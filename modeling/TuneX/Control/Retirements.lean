import TuneX.Control.Sessions

namespace TuneX.Control

open Framework

variable {s t u : State} {now g : Nat} {n : NodeId} {e : Event} {i : Instance}

theorem recordLease_lookup (epoch validUntil : Nat) (a : Assignment) (key : LeaseKey) :
    (State.recordLease n epoch validUntil s a).leases.lookup key=
      if key=⟨a.instanceOn n,epoch⟩ then
        some (match s.leases.lookup key with
          | none => ⟨a.forwardId,validUntil⟩
          | some l => { l with validUntil := max l.validUntil validUntil })
      else s.leases.lookup key := by
  unfold State.recordLease
  dsimp only
  rw [Table.lookup_insert_eq]
  split_ifs with hk
  · subst hk
    rfl
  · rfl

/-- The leases of a new snapshot: nothing is shortened, and every assignment is covered. -/
structure Leased (n : NodeId) (epoch validUntil : Nat) (l : List Assignment) (s t : State) : Prop where
  grows : ∀key x, s.leases.lookup key=some x→∃x', t.leases.lookup key=some x' ∧
    x.validUntil≤x'.validUntil ∧ x'.forwardId=x.forwardId
  covers : ∀a∈l, ∃x, t.leases.lookup ⟨a.instanceOn n,epoch⟩=some x ∧ validUntil≤x.validUntil
  origin : ∀key x, t.leases.lookup key=some x→s.leases.lookup key=some x ∨
    ∃a∈l, key=⟨a.instanceOn n,epoch⟩ ∧ (x.forwardId=a.forwardId ∨
      ∃y, s.leases.lookup key=some y ∧ x.forwardId=y.forwardId)

theorem recordLease_leased (epoch validUntil : Nat) (a : Assignment) :
    Leased n epoch validUntil [a] s (State.recordLease n epoch validUntil s a) := by
  refine ⟨?_,?_,?_⟩
  · intro key x hx
    rw [recordLease_lookup,hx]
    split_ifs
    · exact ⟨_,rfl,le_max_left _ _,rfl⟩
    · exact ⟨x,rfl,le_rfl,rfl⟩
  · intro b hb
    obtain rfl := List.mem_singleton.mp hb
    rw [recordLease_lookup,if_pos rfl]
    cases s.leases.lookup (⟨b.instanceOn n,epoch⟩ : LeaseKey) with
    | none => exact ⟨_,rfl,le_rfl⟩
    | some y => exact ⟨_,rfl,le_max_right _ _⟩
  · intro key x hx
    rw [recordLease_lookup] at hx
    split_ifs at hx with hk
    · refine .inr ⟨a,List.mem_singleton_self a,hk,?_⟩
      cases hy : s.leases.lookup key with
      | none =>
        rw [hy] at hx
        cases hx
        exact .inl rfl
      | some y =>
        rw [hy] at hx
        cases hx
        exact .inr ⟨y,rfl,rfl⟩
    · exact .inl hx

theorem recordLeases_leased (epoch validUntil : Nat) (l : List Assignment) (s : State) :
    Leased n epoch validUntil l s (l.foldl (State.recordLease n epoch validUntil) s) := by
  induction l generalizing s with
  | nil =>
    refine ⟨fun _ x hx => ⟨x,hx,le_rfl,rfl⟩,?_,fun _ _ hx => .inl hx⟩
    intro a ha
    cases ha
  | cons a l ih =>
    have hone := recordLease_leased (n := n) (s := s) epoch validUntil a
    have hrest := ih (State.recordLease n epoch validUntil s a)
    refine ⟨?_,?_,?_⟩
    · intro key x hx
      obtain ⟨y,hy,hle,hf⟩ := hone.grows key x hx
      obtain ⟨z,hz,hle',hf'⟩ := hrest.grows key y hy
      exact ⟨z,hz,hle.trans hle',hf'.trans hf⟩
    · intro b hb
      obtain rfl | hb := List.mem_cons.mp hb
      · obtain ⟨x,hx,hle⟩ := hone.covers b (List.mem_singleton_self b)
        obtain ⟨y,hy,hle',-⟩ := hrest.grows _ x hx
        exact ⟨y,hy,hle.trans hle'⟩
      · exact hrest.covers b hb
    · intro key x hx
      -- The first assignment may have written the row that a later one extends.
      have hfirst : ∀y, (State.recordLease n epoch validUntil s a).leases.lookup key=some y→
          x.forwardId=y.forwardId→s.leases.lookup key=some y ∨ ∃b∈a::l,
          key=⟨b.instanceOn n,epoch⟩ ∧ (x.forwardId=b.forwardId ∨
            ∃z, s.leases.lookup key=some z ∧ x.forwardId=z.forwardId) := by
        intro y hy hxy
        obtain hy | ⟨b,hb,hk,hf⟩ := hone.origin key y hy
        · exact .inl hy
        · obtain rfl := List.mem_singleton.mp hb
          rw [← hxy] at hf
          exact .inr ⟨b,List.mem_cons_self,hk,hf⟩
      obtain hx | ⟨b,hb,hk,hf | ⟨y,hy,hf⟩⟩ := hrest.origin key x hx
      · exact hfirst x hx rfl
      · exact .inr ⟨b,List.mem_cons_of_mem _ hb,hk,.inl hf⟩
      · obtain hy | hnew := hfirst y hy hf
        · exact .inr ⟨b,List.mem_cons_of_mem _ hb,hk,.inr ⟨y,hy,hf⟩⟩
        · exact .inr hnew

variable {next : List Assignment} {row : RuntimeNode} {x r : Retirement} {epoch accepted : Nat}

theorem State.Issued.leased (i : State.Issued s now n row next t) :
    Leased n row.sessionEpoch i.snapshot.validUntil next s t := by
  obtain ⟨hn,hepoch,-,hnext,-⟩ := i.snapshot_fields
  have hleases : (i.retired.store row i.snapshot).leases=s.leases := by
    have hframe := congrArg State.leases (State.retireChanged_frame i.retired_eq)
    exact hframe
  have hl := recordLeases_leased (n := n) row.sessionEpoch i.snapshot.validUntil next
    (i.retired.store row i.snapshot)
  have hresult := i.result
  unfold State.recordLeases at hresult
  rw [hn,hepoch,hnext] at hresult
  rw [← hresult] at hl
  refine ⟨?_,hl.covers,?_⟩
  · rw [← hleases]
    exact hl.grows
  · rw [← hleases]
    exact hl.origin

theorem retire_lookup {j : Instance} {y : Retirement} :
    (s.retire i x).retirements.lookup j=some y ↔ s.retirements.lookup j=some y ∨
      (j=i ∧ y=x ∧ s.retirements.lookup i=none) := by
  unfold State.retire
  split_ifs with hold
  · constructor
    · exact .inl
    · rintro (hy | ⟨-,-,hnone⟩)
      · exact hy
      · rw [hnone] at hold
        cases hold
  · have hnone := Option.not_isSome_iff_eq_none.mp hold
    rw [Table.lookup_insert_some]
    constructor
    · rintro (⟨rfl,rfl⟩ | ⟨-,hy⟩)
      · exact .inr ⟨rfl,rfl,hnone⟩
      · exact .inl hy
    · rintro (hy | ⟨rfl,rfl,-⟩)
      · refine .inr ⟨?_,hy⟩
        rintro rfl
        rw [hnone] at hy
        cases hy
      · exact .inl ⟨rfl,rfl⟩

/-- The retirements of a new snapshot: of what the previous one had and this one has not. -/
structure Retired (n : NodeId) (generation : Nat) (old next : List Assignment) (s t : State) : Prop where
  keeps : ∀j x, s.retirements.lookup j=some x→t.retirements.lookup j=some x
  covers : ∀a∈old, (∃b∈next, b.instanceOn n=a.instanceOn n) ∨
    ∃x, t.retirements.lookup (a.instanceOn n)=some x
  origin : ∀j x, t.retirements.lookup j=some x→s.retirements.lookup j=some x ∨
    ∃a∈old, (∀b∈next, b.instanceOn n≠a.instanceOn n) ∧ a.instanceOn n=j ∧
      x=⟨a.forwardId,a,none,generation,false⟩

theorem retireChanged_retired (l : List Assignment)
    (h : l.foldlM (State.retireOne n next g) s=.ok t) : Retired n g l next s t := by
  induction l generalizing s with
  | nil =>
    cases h
    refine ⟨fun _ _ hx => hx,?_,fun _ _ hx => .inl hx⟩
    intro a ha
    cases ha
  | cons a l ih =>
    simp only [List.foldlM_cons,bind_ok] at h
    obtain ⟨b,hb,hrest⟩ := h
    have hr := ih hrest
    obtain ⟨rfl,hsame⟩ | ⟨hgone,ops,rfl⟩ := State.retireOne_ok hb
    · refine ⟨hr.keeps,?_,?_⟩
      · intro c hc
        obtain rfl | hc := List.mem_cons.mp hc
        · exact .inl hsame
        · exact hr.covers c hc
      · intro j x hx
        obtain hx | ⟨c,hc,hrest⟩ := hr.origin j x hx
        · exact .inl hx
        · exact .inr ⟨c,List.mem_cons_of_mem _ hc,hrest⟩
    · refine ⟨?_,?_,?_⟩
      · intro j x hx
        exact hr.keeps j x (retire_lookup.mpr (.inl hx))
      · intro c hc
        obtain rfl | hc := List.mem_cons.mp hc
        · right
          cases hold : s.retirements.lookup (c.instanceOn n) with
          | some y => exact ⟨y,hr.keeps _ y (retire_lookup.mpr (.inl hold))⟩
          | none => exact ⟨_,hr.keeps _ _ (retire_lookup.mpr (.inr ⟨rfl,rfl,hold⟩))⟩
        · exact hr.covers c hc
      · intro j x hx
        obtain hx | ⟨c,hc,hrest⟩ := hr.origin j x hx
        · obtain hx | ⟨rfl,rfl,-⟩ := retire_lookup.mp hx
          · exact .inl hx
          · exact .inr ⟨a,List.mem_cons_self,hgone,rfl,rfl⟩
        · exact .inr ⟨c,List.mem_cons_of_mem _ hc,hrest⟩

theorem State.Issued.retires (i : State.Issued s now n row next t) :
    Retired n (row.snapshotGeneration+1)
      (((s.snapshots.lookup (n,row.snapshotGeneration)).map (·.assignments)).getD []) next s t := by
  have hr := retireChanged_retired _ i.retired_eq
  have hsame : t.retirements=i.retired.retirements := by
    refine (congrArg State.retirements i.result).trans ?_
    rw [State.recordLeases_frame]
    rfl
  refine ⟨?_,?_,?_⟩
  · rw [hsame]
    exact hr.keeps
  · rw [hsame]
    exact hr.covers
  · rw [hsame]
    exact hr.origin

/-- A report of the session calls the instance removed, without connections. -/
def Removed (s : State) (i : Instance) (epoch : Nat) : Prop :=
  ∃q r d, s.reports.lookup (i.node,epoch,q)=some r ∧ d∈r.drains ∧ d.instanceOn i.node=i ∧
    d.condition=.removed ∧ d.remainingConnections=0

/-- A list of drains calls the instance removed, without connections. -/
def CallsRemoved (l : List Drain) (n : NodeId) (i : Instance) : Prop :=
  ∃d∈l, d.instanceOn n=i ∧ d.condition=.removed ∧ d.remainingConnections=0

theorem observeDrains_lookup (l : List Drain)
    (h : l.foldlM (State.observeDrain n epoch accepted) s=.ok t)
    (hx : t.retirements.lookup i=some x) : ∃r, s.retirements.lookup i=some r ∧
      x={ r with removedEpoch := x.removedEpoch } ∧ (x.removedEpoch=r.removedEpoch ∨
        (x.removedEpoch=some epoch ∧ CallsRemoved l n i)) := by
  induction l generalizing s with
  | nil =>
    cases h
    exact ⟨x,hx,rfl,.inl rfl⟩
  | cons d l ih =>
    simp only [List.foldlM_cons,bind_ok] at h
    obtain ⟨b,hb,hrest⟩ := h
    obtain ⟨r,hr,hsame,hep⟩ := ih hrest
    have hmore : CallsRemoved l n i→CallsRemoved (d::l) n i := by
      rintro ⟨c,hc,hcalls⟩
      exact ⟨c,List.mem_cons_of_mem _ hc,hcalls⟩
    obtain ⟨y,hy,-,rfl | ⟨hrem,hzero,rfl⟩⟩ := State.observeDrain_ok hb
    · exact ⟨r,hr,hsame,hep.imp id fun h => ⟨h.1,hmore h.2⟩⟩
    · obtain ⟨rfl,rfl⟩ | ⟨-,hr⟩ := Table.lookup_insert_some.mp hr
      · refine ⟨y,hy,hsame,.inr ⟨?_,d,List.mem_cons_self,rfl,hrem,hzero⟩⟩
        obtain he | ⟨he,-⟩ := hep
        · exact he
        · exact he
      · exact ⟨r,hr,hsame,hep.imp id fun h => ⟨h.1,hmore h.2⟩⟩

theorem outstanding_false {epoch : Option Nat} (h : ¬s.outstanding now i epoch) {ep : Nat} {l : Lease}
    (hl : s.leases.lookup ⟨i,ep⟩=some l) : l.validUntil+5000≤now ∨ epoch=some ep := by
  by_contra hc
  rw [not_or,not_le] at hc
  refine h (List.any_eq_true.mpr ⟨(⟨i,ep⟩,l),Table.mem_rows.mpr hl,?_⟩)
  simp [hc.1,hc.2]

theorem settleRetirements_lookup (hx : (s.settleRetirements now n).retirements.lookup i=some x) :
    ∃r, s.retirements.lookup i=some r ∧ (x=r ∨ (x={ r with safe := true } ∧
      ¬s.outstanding now i r.removedEpoch)) := by
  unfold State.settleRetirements at hx
  obtain ⟨r,hr,he⟩ := Table.lookup_alter_some.mp hx
  refine ⟨r,hr,?_⟩
  split_ifs at he with hc
  · simp only [Bool.and_eq_true,Bool.not_eq_true'] at hc
    exact .inr ⟨he.symm,by simp [hc.2]⟩
  · exact .inl he.symm

/-- A retirement that was there before: it may have become removed or safe, for a reason. -/
structure Continued (s : State) (now : Nat) (t : State) (i : Instance) (r x : Retirement) : Prop where
  body : x.body=r.body
  generation : x.retirementGeneration=r.retirementGeneration
  removed : ∀ep, x.removedEpoch=some ep → r.removedEpoch=some ep ∨ Removed t i ep
  safe : x.safe → r.safe ∨ ∀ep l, s.leases.lookup ⟨i,ep⟩=some l→
    l.validUntil+5000≤now ∨ x.removedEpoch=some ep

theorem Continued.refl (i : Instance) (r : Retirement) : Continued s now t i r r :=
  ⟨rfl,rfl,fun _ h => .inl h,.inl⟩

/-- An instance of the current snapshot that the next snapshot of its Node leaves out. -/
structure Dropped (s : State) (i : Instance) (x : Retirement) : Prop where
  waits : x.removedEpoch=none ∧ x.safe=false
  named : x.body.instanceOn i.node=i
  current : ∃row p, s.nodes.lookup i.node=some row ∧
    s.snapshots.lookup (i.node,row.snapshotGeneration)=some p ∧ x.body∈p.assignments ∧
    x.retirementGeneration=row.snapshotGeneration+1

structure Retires (s : State) (now : Nat) (t : State) : Prop where
  origin : ∀i x, t.retirements.lookup i=some x→
    (∃r, s.retirements.lookup i=some r ∧ Continued s now t i r x) ∨ Dropped s i x

theorem Retires.of_eq (h : t.retirements=s.retirements) : Retires s now t :=
  ⟨fun i x hx => .inl ⟨x,h ▸ hx,.refl i x⟩⟩

theorem State.Issued.retired_step (hrow : s.nodes.lookup n=some row)
    (i : State.Issued s now n row next t) : Retires s now t := by
  refine ⟨fun j x hx => ?_⟩
  obtain hx | ⟨a,ha,-,rfl,rfl⟩ := i.retires.origin j x hx
  · exact .inl ⟨x,hx,.refl j x⟩
  · right
    cases hp : s.snapshots.lookup (n,row.snapshotGeneration) with
    | none => simp [hp] at ha
    | some p =>
      rw [hp] at ha
      exact ⟨⟨rfl,rfl⟩,rfl,row,p,hrow,hp,ha,rfl⟩

theorem complete_retires {o : Option (Report×Snapshot)} : Retires s now (s.complete now n o) := by
  have hframe : (s.complete now n o).retirements=(s.settleRetirements now n).retirements := by
    rw [State.complete_frame]
  refine ⟨fun i x hx => ?_⟩
  rw [hframe] at hx
  obtain ⟨r,hr,rfl | ⟨rfl,hout⟩⟩ := settleRetirements_lookup hx
  · exact .inl ⟨x,hr,.refl i x⟩
  · refine .inl ⟨r,hr,rfl,rfl,fun _ h => .inl h,fun _ => .inr fun ep l hl => ?_⟩
    exact outstanding_false hout hl

theorem State.Taken.retires {r : Report} (h : State.Taken s now n r t) : Retires s now t := by
  have hreports := h.reports
  obtain ⟨row,drained,failed,hrow,hepoch,hd,hf,hresult,-,-,-,-⟩ := h
  have hfail : failed.retirements=drained.retirements ∧ failed.leases=s.leases := by
    have hleases : drained.leases=s.leases := by rw [State.observeDrains_frame hd]
    obtain rfl | ⟨p,rfl⟩ := hf
    · exact ⟨rfl,hleases⟩
    · rw [State.reportErrors_frame]
      exact ⟨rfl,hleases⟩
  obtain ⟨hret,hleases⟩ := hfail
  -- An instance that the drains of the report call removed.
  have hcalls : ∀i, CallsRemoved r.drains n i→Removed t i row.sessionEpoch := by
    rintro i ⟨d,hdm,rfl,hrem,hzero⟩
    refine ⟨r.reportSequence,r,d,?_,hdm,rfl,hrem,hzero⟩
    rw [hreports,hepoch]
    exact AList.lookup_insert _
  have hdrained : ∀i x, failed.retirements.lookup i=some x→∃y, s.retirements.lookup i=some y ∧
      x={ y with removedEpoch := x.removedEpoch } ∧
      ∀ep, x.removedEpoch=some ep→y.removedEpoch=some ep ∨ Removed t i ep := by
    intro i x hx
    rw [hret] at hx
    obtain ⟨y,hy,hsame,hep⟩ := observeDrains_lookup _ hd hx
    refine ⟨y,hy,hsame,fun ep hx' => ?_⟩
    obtain heq | ⟨heq,hc⟩ := hep
    · exact .inl (heq ▸ hx')
    · rw [heq] at hx'
      cases hx'
      exact .inr (hcalls i hc)
  -- The report itself, or the completion after it, which may find the instance safe.
  have hsettled : ∀i x, t.retirements.lookup i=some x→∃z, failed.retirements.lookup i=some z ∧
      (x=z ∨ (x={ z with safe := true } ∧ ¬failed.outstanding now i z.removedEpoch)) := by
    intro i x hx
    obtain rfl | ⟨p,-,-,-,rfl⟩ := hresult
    · exact ⟨x,hx,.inl rfl⟩
    · rw [State.complete_frame] at hx
      exact settleRetirements_lookup hx
  refine ⟨fun i x hx => ?_⟩
  obtain ⟨z,hz,hxz⟩ := hsettled i x hx
  obtain ⟨y,hy,hsame,hep⟩ := hdrained i z hz
  refine .inl ⟨y,hy,?_⟩
  obtain rfl | ⟨rfl,hout⟩ := hxz
  · rw [hsame]
    exact ⟨rfl,rfl,hep,.inl⟩
  · rw [hsame]
    refine ⟨rfl,rfl,hep,fun _ => .inr fun ep l hl => ?_⟩
    exact outstanding_false hout (hleases ▸ hl)

theorem Acts.retires (he : e≠.quarantine) (h : Acts s now e t) : Retires s now t := by
  cases h with
  | idle | administer | provision | hello | expire => exact .of_eq rfl
  | command c => exact .of_eq (by rw [c.frame])
  | claim h => exact .of_eq (by rw [State.claim_frame h])
  | turn _ _ _ _ h => exact .of_eq (by rw [State.turn_frame h])
  | issue hrow _ i => exact i.retired_step hrow
  | complete => exact complete_retires
  | report h => exact h.retires
  | quarantine => exact absurd rfl he

theorem Acts.leases (h : Acts s now e t) {key : LeaseKey} {x : Lease}
    (hx : t.leases.lookup key=some x) : s.leases.lookup key=some x ∨ ∃n row next,
      s.nodes.lookup n=some row ∧ (∀a∈next, Source s now n false a) ∧
      Nonempty (State.Issued s now n row next t) ∧
      ∃a∈next, key=⟨a.instanceOn n,row.sessionEpoch⟩ ∧ (x.forwardId=a.forwardId ∨
        ∃y, s.leases.lookup key=some y ∧ x.forwardId=y.forwardId) := by
  obtain ⟨-,hl⟩ | ⟨n,row,next,hrow,hnext,⟨i⟩⟩ := h.issued
  · exact .inl (hl ▸ hx)
  · obtain hx | hnew := i.leased.origin key x hx
    · exact .inl hx
    · refine .inr ⟨n,row,next,hrow,fun a ha => ?_,⟨i⟩,hnew⟩
      obtain rfl | hnext := hnext
      · cases ha
      · exact assignments_source hnext ha

end TuneX.Control
