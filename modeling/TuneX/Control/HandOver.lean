import TuneX.Control.Placement
import TuneX.Control.Retirements

namespace TuneX.Control

open Framework

variable {s t u : State} {now : Nat} {n : NodeId} {e : Event} {k : SlotKey} {i : Instance}
  {G : Instance→SlotKey→Prop} {a : Assignment} {id : ForwardId} {l : List (Nat×Event)}

theorem Source.revision {b : Bool} (hs : Deployed s) (h : Source s now n b a) :
    ∃row, s.forwards.lookup a.forwardId=some row ∧ a.forwardRevision=row.revision ∧
      (row.spec.via=[]→a.slotOn n∈State.specKeys row.spec) := by
  cases h with
  | @direct id row q hrow _ _ hn _ _ hq ha =>
    obtain ⟨-,-,-,rfl⟩ := compileDirectOne_ok.mp ha
    subst hn
    exact ⟨row,hrow,rfl,fun _ => List.mem_map_of_mem hq⟩
  | relay hl hpub hnode ha =>
    obtain ⟨row,k⟩ := Planned.of hs hl hpub hnode ha
    obtain ⟨-,-,-,-,hvia,-⟩ := authorized_some k.authorized
    exact ⟨row,k.forward,k.revision,fun hv => absurd hv hvia⟩

/-- A snapshot has the assignments of one revision of each intent, on the slots of that intent. -/
structure OneRevision (s : State) : Prop where
  bounded : ∀key p, s.snapshots.lookup key=some p→∀a∈p.assignments,
    ∃row, s.forwards.lookup a.forwardId=some row ∧ a.forwardRevision ≤ row.revision ∧
      (a.forwardRevision=row.revision → row.spec.via=[]→a.slotOn p.nodeId∈State.specKeys row.spec)
  together : ∀key p, s.snapshots.lookup key=some p→∀a∈p.assignments, ∀b∈p.assignments,
    a.forwardId=b.forwardId→a.forwardRevision=b.forwardRevision

theorem OneRevision.initial (w : World) : OneRevision (State.initial w) := by
  refine ⟨?_,?_⟩
  all_goals simp [State.initial]

theorem Acts.row_revision {row : ForwardRow} (h : Acts s now e t)
    (hrow : s.forwards.lookup id=some row) : ∃row', t.forwards.lookup id=some row' ∧
      (row.revision < row'.revision ∨ (row'.revision=row.revision ∧ row'.spec=row.spec)) := by
  by_cases hc : ∃c : s.Commanded now e t, c.f.id=id
  · obtain ⟨c,rfl⟩ := hc
    have hfollows := c.cause.follows
    rw [hrow] at hfollows
    refine ⟨c.row,c.row_eq,?_⟩
    rw [c.spec,c.revision]
    obtain ⟨-,hnext | hsame⟩ := hfollows
    · left
      omega
    · exact .inr hsame
  · obtain ⟨b,hrow'⟩ := h.row_kept hrow fun c hid => hc ⟨c,hid⟩
    exact ⟨_,hrow',.inr ⟨rfl,rfl⟩⟩

theorem OneRevision.acts {e : Nat×Event} (hd : Deployed s) (hs : OneRevision s) (h : Acts s e.1 e.2 t) :
    OneRevision t := by
  refine ⟨?_,?_⟩
  · intro key p hp a ha
    -- The bound holds before the step; a command moves the revision away from it.
    have hbefore : ∃row, s.forwards.lookup a.forwardId=some row ∧ a.forwardRevision ≤ row.revision ∧
        (a.forwardRevision=row.revision → row.spec.via=[]→
          a.slotOn p.nodeId∈State.specKeys row.spec) := by
      obtain hp | ⟨m,row,next,-,-,hsource,issued,rfl⟩ := h.published hp
      · exact hs.bounded key p hp a ha
      · obtain ⟨r,hr,hrev,hslot⟩ := (hsource a ha).revision hd
        rw [issued.snapshot_fields.1]
        exact ⟨r,hr,hrev.le,fun _ => hslot⟩
    obtain ⟨row,hrow,hle,hslot⟩ := hbefore
    obtain ⟨row',hrow',hlt | ⟨hrev,hspec⟩⟩ := h.row_revision hrow
    · refine ⟨row',hrow',by omega,fun heq => ?_⟩
      omega
    · refine ⟨row',hrow',by omega,?_⟩
      rw [hrev,hspec]
      exact hslot
  · intro key p hp a ha b hb hab
    obtain hp | ⟨m,row,next,-,-,hsource,issued,rfl⟩ := h.published hp
    · exact hs.together key p hp a ha b hb hab
    · obtain ⟨r,hr,hrev,-⟩ := (hsource a ha).revision hd
      obtain ⟨r',hr',hrev',-⟩ := (hsource b hb).revision hd
      rw [← hab,hr] at hr'
      cases hr'
      exact hrev.trans hrev'.symm

/-- No lease of a safely retired instance is in use. -/
structure Settled (G : Instance→SlotKey→Prop) (s : State) : Prop where
  lease : ∀i ep l, s.leases.lookup ⟨i,ep⟩=some l→l.forwardId=i.assignmentId.forward
  retired : ∀i r, s.retirements.lookup i=some r → r.body.instanceOn i.node=i ∧
    G i (r.body.slotOn i.node)
  removed : ∀i r ep, s.retirements.lookup i=some r → r.removedEpoch=some ep→Removed s i ep
  safe : ∀i r, s.retirements.lookup i=some r → r.safe→∀ep l, s.leases.lookup ⟨i,ep⟩=some l→
    l.validUntil+5000 ≤ s.clock ∨ Removed s i ep

theorem Settled.initial (w : World) : Settled (fun _ _ => False) (State.initial w) := by
  refine ⟨?_,?_,?_,?_⟩
  all_goals simp [State.initial]

variable {ep : Nat}

theorem Removed.later (h : Removed s i ep) (hl : Later s t) : Removed t i ep := by
  obtain ⟨q,r,d,hr,hrest⟩ := h
  exact ⟨q,r,d,hl.reports _ _ hr,hrest⟩

theorem State.Issued.not_retired {row : RuntimeNode} {next : List Assignment} {r : Retirement}
    (hs : Placed G s) (hl : Settled G s) (issued : State.Issued s now n row next t)
    (hsource : ∀a∈next, Source s now n false a) (ha : a∈next)
    (hr : s.retirements.lookup (a.instanceOn n)=some r) : False := by
  obtain ⟨hbody,hplace⟩ := hl.retired _ r hr
  have hslot : a.slotOn n=r.body.slotOn n := hs.unique _ _ _ (hs.known (hsource a ha).known) hplace
  have hfence : r.body.bindingFence=a.bindingFence := congrArg Instance.fence hbody
  have hkept : issued.retired.retirements.lookup (a.instanceOn n)=some r :=
    (retireChanged_retired _ issued.retired_eq).keeps _ r hr
  have hstone : State.tombstone (row.snapshotGeneration+1) r∈
      issued.retired.tombstones n (row.snapshotGeneration+1) := by
    unfold State.tombstones
    refine List.mem_map.mpr ⟨(a.instanceOn n,r),List.mem_filter.mpr ⟨Table.mem_rows.mpr hkept,?_⟩,rfl⟩
    exact decide_eq_true rfl
  obtain ⟨-,-,-,-,-,hnone,-⟩ := State.compileSnapshot_ok.mp issued.snapshot_eq
  refine hnone _ hstone a ha ?_
  obtain ⟨-,hprotocol,hport⟩ := SlotKey.mk.inj hslot
  simp [resurrects,State.tombstone,hprotocol,hport,hfence]

theorem Settled.acts {e : Nat×Event} (hk : Kernel s) (hp : Placed G s) (hs : Settled G s)
    (he : e.2≠.quarantine) (hc : s.clock=e.1) (h : Acts s e.1 e.2 t) :
    Settled (fun i k => G i k ∨ Reserves s t k i) t := by
  have hlater : Later s t := h.later hk.catalog
  have hret := h.retires he
  have hclock : t.clock=s.clock := h.clock
  -- A retirement that is there afterwards stands for a published instance.
  have hknown : ∀i x, t.retirements.lookup i=some x→x.body.instanceOn i.node=i ∧
      G i (x.body.slotOn i.node) := by
    intro i x hx
    obtain ⟨r,hr,hcont⟩ | hdrop := hret.origin i x hx
    · rw [hcont.body]
      exact hs.retired i r hr
    · obtain ⟨row,p,-,hsnap,hmem,-⟩ := hdrop.current
      obtain ⟨hnode,-⟩ := hk.catalog.key _ _ p hsnap
      have hplace := hp.published _ p hsnap x.body hmem
      rw [hnode,hdrop.named] at hplace
      exact ⟨hdrop.named,hplace⟩
  refine ⟨?_,?_,?_,?_⟩
  · intro i ep l hl
    obtain hl | ⟨m,row,next,-,hsource,-,a,ha,hkey,hf⟩ := h.leases hl
    · exact hs.lease i ep l hl
    · obtain ⟨rfl,rfl⟩ := LeaseKey.mk.inj hkey
      obtain hf | ⟨y,hy,hf⟩ := hf
      · have hnamed := (hsource a ha).named hk.catalog.deployed
        rw [hf]
        exact (congrArg AssignmentId.forward hnamed).symm
      · rw [hf]
        exact hs.lease _ _ y hy
  · intro i x hx
    obtain ⟨hbody,hplace⟩ := hknown i x hx
    exact ⟨hbody,.inl hplace⟩
  · intro i x ep hx hep
    obtain ⟨r,hr,hcont⟩ | hdrop := hret.origin i x hx
    · obtain hold | hnew := hcont.removed ep hep
      · exact (hs.removed i r ep hr hold).later hlater
      · exact hnew
    · rw [hdrop.waits.1] at hep
      cases hep
  · intro i x hx hsafe ep l hl
    obtain ⟨r,hr,hcont⟩ | hdrop := hret.origin i x hx
    · obtain hl | ⟨m,row,next,-,hsource,⟨issued⟩,a,ha,hkey,-⟩ := h.leases hl
      · obtain hold | hnew := hcont.safe hsafe
        · obtain hend | hrem := hs.safe i r hr hold ep l hl
          · exact .inl (hclock ▸ hend)
          · exact .inr (hrem.later hlater)
        · obtain hend | hrem := hnew ep l hl
          · left
            rw [hclock,hc]
            exact hend
          · right
            obtain hold | hnow := hcont.removed ep hrem
            · exact (hs.removed i r ep hr hold).later hlater
            · exact hnow
      · obtain ⟨rfl,rfl⟩ := LeaseKey.mk.inj hkey
        exact (issued.not_retired hp hs hsource ha hr).elim
    · rw [hdrop.waits.2] at hsafe
      cases hsafe

/-- A step outside recovery, on a clock that has not gone back, that meets the condition on a change
from direct to Relay. -/
def Orderly (s : State) (e : Nat×Event) (t : State) : Prop :=
  s.clock≤e.1 ∧ InStep s e t ∧ e.2≠.quarantine

structure Booked (G : Instance→SlotKey→Prop) (s : State) : Prop where
  kernel : Kernel s
  placed : Placed G s
  settled : Settled G s
  revised : OneRevision s

theorem Booked.initial (w : World) : Booked (fun _ _ => False) (State.initial w) :=
  ⟨.initial w,.initial w,.initial w,.initial w⟩

theorem Booked.atTime (hs : Booked G s) (hc : s.clock≤now) : Booked G (s.atTime now) := by
  refine ⟨hs.kernel.atTime now,hs.placed.clock now,?_,hs.revised.bounded,hs.revised.together⟩
  refine ⟨hs.settled.lease,hs.settled.retired,hs.settled.removed,fun i r hr hsafe ep l hl => ?_⟩
  obtain hend | hrem := hs.settled.safe i r hr hsafe ep l hl
  · exact .inl (hend.trans hc)
  · exact .inr hrem

theorem Booked.step {e : Nat×Event} (hs : Booked G s) (h : Orderly s e t) :
    ∃G', Booked G' t ∧ Acts (s.atTime e.1) e.1 e.2 t := by
  obtain ⟨hclock,⟨hstep,hin⟩,hq⟩ := h
  have hat : Booked G (s.atTime e.1) := hs.atTime hclock
  have hd : Deployed (s.atTime e.1) := hat.kernel.catalog.deployed
  have hacts : Acts (s.atTime e.1) e.1 e.2 t := step_acts hs.kernel.catalog.deployed.specs hstep
  refine ⟨fun i k => G i k ∨ Reserves (s.atTime e.1) t k i,⟨(hs.kernel.step hstep).1,?_,?_,?_⟩,hacts⟩
  · exact hat.placed.acts hd hacts hin
  · exact hat.settled.acts hat.kernel hat.placed hq rfl hacts
  · exact hat.revised.acts hd hacts

theorem run_booked {w : World} (h : Run Orderly (State.initial w) l s) : ∃G, Booked G s := by
  refine h.invariant (fun s => ∃G, Booked G s) ?_ ⟨_,.initial w⟩
  rintro a e b hab ⟨G,ha⟩
  obtain ⟨G',hb,-⟩ := ha.step hab
  exact ⟨G',hb⟩

theorem Settled.ended {l : Lease} (hs : Settled G s)
    (hsafe : s.safelyRetired i) (hl : s.leases.lookup ⟨i,ep⟩=some l) :
    l.validUntil+5000 ≤ s.clock ∨ Removed s i ep := by
  unfold State.safelyRetired at hsafe
  cases hr : s.retirements.lookup i with
  | none => simp [hr] at hsafe
  | some r =>
    rw [hr] at hsafe
    exact hs.safe i r hr hsafe ep l hl

theorem previousLeases_ended {desired : List Instance} {l : Lease} (hs : Settled G s)
    (h : s.previousLeasesSafe s.clock id desired) (hid : i.assignmentId.forward=id)
    (hnot : i∉desired) (hl : s.leases.lookup ⟨i,ep⟩=some l) :
    l.validUntil+5000 ≤ s.clock ∨ Removed s i ep := by
  have hf : l.forwardId=id := (hs.lease i ep l hl).trans hid
  by_cases hend : l.validUntil+5000 ≤ s.clock
  · exact .inl hend
  by_cases hret : s.safelyRetired i
  · exact hs.ended hret hl
  have hrow := List.all_eq_true.mp h (⟨i,ep⟩,l) (Table.mem_rows.mpr hl)
  have hlt : s.clock<l.validUntil+5000 := not_le.mp hend
  simp [hf,hlt,hret,hnot] at hrow

theorem Releasable.ended {keep : SlotKey→Bool} {key : NodeId×Nat} {p : Snapshot} {l : Lease}
    (hs : Booked G s) (h : Releasable s s.clock id keep) (hk : ¬keep k)
    (hp : s.snapshots.lookup key=some p) (ha : a∈p.assignments) (hid : a.forwardId=id)
    (hslot : a.slotOn p.nodeId=k) (hl : s.leases.lookup ⟨a.instanceOn p.nodeId,ep⟩=some l) :
    l.validUntil+5000 ≤ s.clock ∨ Removed s (a.instanceOn p.nodeId) ep := by
  have hnamed := hs.kernel.catalog.named key p hp a ha
  have hforward : (a.instanceOn p.nodeId).assignmentId.forward=id := by
    change a.assignmentId.forward=id
    rw [hnamed]
    exact hid
  have hplace := hs.placed.published key p hp a ha
  rw [hslot] at hplace
  cases h with
  | idle _ _ hidle =>
    refine hs.settled.ended ?_ hl
    by_contra hret
    refine hidle (List.any_eq_true.mpr ⟨(⟨a.instanceOn p.nodeId,ep⟩,l),Table.mem_rows.mpr hl,?_⟩)
    have hf : l.forwardId=id := (hs.settled.lease _ _ l hl).trans hforward
    have hret' : s.safelyRetired (a.instanceOn p.nodeId)=false := by simpa using hret
    simp [hf,hret']
  | @ready row m g q hrow hv hkeep hq hready hsafe =>
    refine previousLeases_ended hs.settled hsafe hforward ?_ hl
    -- The current snapshot has the assignments of the current revision only, on kept slots.
    intro hmem
    obtain ⟨b,hb,hbi⟩ := List.mem_map.mp hmem
    obtain ⟨hb,hbid⟩ := List.mem_filter.mp hb
    have hbid : b.forwardId=id := of_decide_eq_true hbid
    obtain ⟨hnode,-⟩ := hs.kernel.catalog.key m g q hq
    obtain ⟨c,rest,hprotocols⟩ := List.exists_cons_of_ne_nil
      (Spec.valid_protocols (hs.kernel.catalog.deployed.specs id row hrow)).2
    obtain ⟨x,hx,hxid,hxrev⟩ := hready c (by simp [hprotocols])
    have hbrev : b.forwardRevision=row.revision :=
      (hs.revised.together _ q hq b hb x hx (hbid.trans hxid.symm)).trans hxrev
    obtain ⟨row',hrow',-,hkept⟩ := hs.revised.bounded _ q hq b hb
    rw [hbid,hrow] at hrow'
    cases hrow'
    have hbslot := hkept hbrev hv
    have hbplace := hs.placed.published _ q hq b hb
    rw [hnode,hbi] at hbplace
    rw [hnode,hs.placed.unique _ _ _ hbplace hplace] at hbslot
    exact hk ((hkeep k).mpr hbslot)
  | @active row g d hrow hv hd hkeep hsafe =>
    refine previousLeases_ended hs.settled hsafe hforward ?_ hl
    intro hmem
    obtain ⟨node,hnode,hmem⟩ := List.mem_flatMap.mp hmem
    obtain ⟨b,hb,hbi⟩ := List.mem_map.mp hmem
    have hbplace := hs.placed.planned id g d hd node hnode b hb
    rw [hbi] at hbplace
    have hbslot : b.slotOn node.nodeId=k := hs.placed.unique _ _ _ hbplace hplace
    refine hk ?_
    rw [hkeep,List.contains_iff_mem]
    exact List.mem_flatMap.mpr ⟨node,hnode,List.mem_map.mpr ⟨b,hb,hbslot⟩⟩

/-- A slot leaves its Forward only when every lease of what was published on it has ended or the
Agent has reported the instance removed in the session of the lease. -/
theorem slot_handed_over {w : World} {l : List (Nat×Event)} {e : Nat×Event} {id : ForwardId}
    (h : Run Orderly (State.initial w) l s) (hs : Orderly s e t) (ho : (s.slot k).owner=some id)
    (hf : (t.slot k).owner≠some id) {key : NodeId×Nat} {p : Snapshot} {a : Assignment} {ep : Nat}
    {x : Lease} (hp : t.snapshots.lookup key=some p) (ha : a∈p.assignments) (hid : a.forwardId=id)
    (hslot : a.slotOn p.nodeId=k) (hx : t.leases.lookup ⟨a.instanceOn p.nodeId,ep⟩=some x) :
    x.validUntil+5000≤e.1 ∨ Removed t (a.instanceOn p.nodeId) ep := by
  obtain ⟨G,hb⟩ := run_booked h
  obtain ⟨G',hb',hacts⟩ := hb.step hs
  have hclock : t.clock=e.1 := hacts.clock
  have ho' : ((s.atTime t.clock).slot k).owner=some id := ho
  rw [← hclock] at hacts ⊢
  obtain hfreed | ⟨id',htakes⟩ := hacts.reslot
  · obtain hsame | ⟨id',keep,howner,hkeep,hrel,-⟩ := hfreed k
    · rw [hsame] at hf
      exact absurd ho' hf
    · rw [ho'] at howner
      cases howner
      exact hrel.ended hb' hkeep hp ha hid hslot hx
  · by_cases hne : id=id'
    · obtain ⟨keys,gen,-,hslot'⟩ := htakes
      have hk := hslot' k
      split_ifs at hk
      · rw [hk,hne] at hf
        exact absurd rfl hf
      · rw [hk] at hf
        exact absurd ho' hf
    · rw [htakes.other ho' hne] at hf
      exact absurd ho' hf

def performsOrderly (s : State) (l : List (Nat×Event)) : Option State :=
  l.foldlM (fun s e => if s.clock≤e.1 ∧ switchesInStep s e.2 then perform s e else none) s

theorem run_performsOrderly (hq : ∀e∈l, e.2≠.quarantine) (h : performsOrderly s l=some t) :
    Run Orderly s l t := by
  induction l generalizing s with
  | nil =>
    cases h
    exact .refl
  | cons e l ih =>
    simp only [performsOrderly,List.foldlM_cons,do_some] at h
    obtain ⟨u,hu,hl⟩ := h
    split_ifs at hu with hstep
    obtain ⟨hclock,hin⟩ := hstep
    refine .cons ⟨hclock,⟨perform_some hu,hin⟩,hq e List.mem_cons_self⟩ ?_
    exact ih (fun e he => hq e (List.mem_cons_of_mem _ he)) hl

/-- A direct Forward is published, removed and left out of the next snapshot. -/
def removingRun : List (Nat×Event) :=
  startRun++[(1,.create 7 0 1 (directSpec 100)),(2,.claim 0 1),(3,.issue 0 false none none),
    (4,.remove 7 1 1),(5,.claim 1 1),(6,.issue 0 false none none)]

def publishedDirect (generation : Nat) (t : State) (f : Snapshot→Assignment→Lease→Bool) : Bool :=
  (t.snapshots.lookup (0,generation)).any fun p => p.assignments.any fun a =>
    (t.leases.lookup ⟨a.instanceOn p.nodeId,1⟩).any (f p a)

theorem publishedDirect_some {generation : Nat} {f : Snapshot→Assignment→Lease→Bool}
    (h : publishedDirect generation t f) : ∃p a x, t.snapshots.lookup (0,generation)=some p ∧
      a∈p.assignments ∧ t.leases.lookup ⟨a.instanceOn p.nodeId,1⟩=some x ∧ f p a x := by
  obtain ⟨p,hp,h⟩ := (Option.any_eq_true _ _).mp h
  obtain ⟨a,ha,h⟩ := List.any_eq_true.mp h
  obtain ⟨x,hx,h⟩ := (Option.any_eq_true _ _).mp h
  exact ⟨p,a,x,hp,ha,hx,h⟩

/-- The slot is released once the lease has ended. -/
theorem slot_handed_over_removed : ∃s t p a x, Run Orderly (State.initial openWorld) removingRun s ∧
    Orderly s (305003,.complete 0) t ∧ (s.slot ⟨0,.tcp,100⟩).owner=some 1 ∧
    (t.slot ⟨0,.tcp,100⟩).owner=none ∧ t.snapshots.lookup (0,1)=some p ∧ a∈p.assignments ∧
    t.leases.lookup ⟨a.instanceOn p.nodeId,1⟩=some x ∧
    (x.validUntil+5000≤305003 ∨ Removed t (a.instanceOn p.nodeId) 1) := by
  have hrun : ((performsOrderly (State.initial openWorld) removingRun).bind fun s =>
      (performsOrderly s [(305003,.complete 0)]).map fun t =>
        (decide ((s.slot ⟨0,.tcp,100⟩).owner=some 1),decide ((t.slot ⟨0,.tcp,100⟩).owner=none),
          publishedDirect 1 t fun p a _ => a.forwardId=1 && a.slotOn p.nodeId=⟨0,.tcp,100⟩))=
      some (true,true,true) := by
    decide +kernel
  simp only [do_some,decide_eq_true_eq] at hrun
  obtain ⟨s,hs,t,ht,ho,hf,hpub⟩ := hrun
  obtain ⟨p,a,x,hp,ha,hx,hslot⟩ := publishedDirect_some hpub
  simp only [bool_ok] at hslot
  have hl : Run Orderly (State.initial openWorld) removingRun s :=
    run_performsOrderly (by simp [removingRun,startRun]) hs
  obtain ⟨t',hstep,hnil⟩ := (run_performsOrderly (by simp) ht).cons_inv
  obtain rfl := hnil.nil_inv
  refine ⟨s,t,p,a,x,hl,hstep,ho,hf,hp,ha,hx,?_⟩
  exact slot_handed_over hl hstep ho (by simp [hf]) hp ha hslot.1 hslot.2 hx

/-- Every published assignment has a lease of its session that lasts as long as its snapshot. -/
def OnLedger (s : State) : Prop := ∀key p, s.snapshots.lookup key=some p→∀a∈p.assignments,
  ∃x, s.leases.lookup ⟨a.instanceOn p.nodeId,p.sessionEpoch⟩=some x ∧ p.validUntil≤x.validUntil

theorem OnLedger.acts (hs : OnLedger s) (h : Acts s now e t) : OnLedger t := by
  intro key p hp a ha
  obtain ⟨hsame,hleases⟩ | ⟨m,row,next,-,-,⟨issued⟩⟩ := h.issued
  · rw [hleases]
    exact hs key p (hsame ▸ hp) a ha
  · rw [issued.snapshots,Table.lookup_insert_some] at hp
    obtain ⟨-,rfl⟩ | ⟨-,hp⟩ := hp
    · obtain ⟨hn,hepoch,-,hnext,-⟩ := issued.snapshot_fields
      rw [hn,hepoch]
      exact issued.leased.covers a (hnext ▸ ha)
    · obtain ⟨x,hx,hle⟩ := hs key p hp a ha
      obtain ⟨y,hy,hmore,-⟩ := issued.leased.grows _ x hx
      exact ⟨y,hy,hle.trans hmore⟩

theorem run_onLedger {w : World} {l : List (Nat×Event)} (h : Run Step (State.initial w) l s) :
    OnLedger s := by
  have hall : Kernel s ∧ OnLedger s := by
    refine h.invariant (fun s => Kernel s ∧ OnLedger s) ?_ ⟨.initial w,by simp [OnLedger,State.initial]⟩
    rintro a e b hab ⟨hk,hr⟩
    have hacts := step_acts hk.catalog.deployed.specs hab
    exact ⟨(hk.step hab).1,OnLedger.acts (s := a.atTime e.1) hr hacts⟩
  exact hall.2

/-- Once an instance counts as safely retired, every snapshot that ever authorised it has ended, or
its Agent reported it removed in the session of that snapshot. -/
theorem retired_authority_ended {w : World} {l : List (Nat×Event)} {key : NodeId×Nat} {p : Snapshot}
    {a : Assignment} (h : Run Orderly (State.initial w) l s) (hp : s.snapshots.lookup key=some p)
    (ha : a∈p.assignments) (hsafe : s.safelyRetired (a.instanceOn p.nodeId)) :
    p.validUntil+5000 ≤ s.clock ∨ Removed s (a.instanceOn p.nodeId) p.sessionEpoch := by
  obtain ⟨G,hb⟩ := run_booked h
  obtain ⟨x,hx,hle⟩ := run_onLedger (h.mono fun _ _ _ hab => hab.2.1.1) key p hp a ha
  obtain hend | hremoved := hb.settled.ended hsafe hx
  · left
    omega
  · exact .inr hremoved

theorem retired_authority_ended_removed : ∃s p a,
    Run Orderly (State.initial openWorld) (removingRun++[(305003,.complete 0)]) s ∧
    s.snapshots.lookup (0,1)=some p ∧ a∈p.assignments ∧ s.safelyRetired (a.instanceOn p.nodeId) ∧
    (p.validUntil+5000 ≤ s.clock ∨ Removed s (a.instanceOn p.nodeId) p.sessionEpoch) := by
  have hrun : ((performsOrderly (State.initial openWorld) (removingRun++[(305003,.complete 0)])).map fun s =>
      publishedDirect 1 s fun p a _ => s.safelyRetired (a.instanceOn p.nodeId))=some true := by
    decide +kernel
  obtain ⟨s,hs,hpub⟩ := Option.map_eq_some_iff.mp hrun
  obtain ⟨p,a,-,hp,ha,-,hsafe⟩ := publishedDirect_some hpub
  have hl := run_performsOrderly (by simp [removingRun,startRun]) hs
  exact ⟨s,p,a,hl,hp,ha,hsafe,retired_authority_ended hl hp ha hsafe⟩

/-- A report that one Relay assignment of generation 2 is removed. -/
def removedReport (n : NodeId) (role : Role) (sequence accepted : Nat) : Report where
  nodeId := n
  bootId := 1
  sessionEpoch := 1
  reportSequence := sequence
  observedAt := 0
  acceptedSnapshotGeneration := accepted
  observations := []
  drains := [⟨⟨n,1,.tcp,role⟩,2,1,0,0,0,.removed⟩]

/-- A Node fetches its snapshot, in one transaction. -/
def fetched (now : Nat) (n : NodeId) : List (Nat×Event) :=
  [(now,.advance 1),(now,.issue n false none none),(now,.complete n)]

/-- A Node reports, in one transaction. -/
def reported (now : Nat) (r : Report) : List (Nat×Event) := [(now,.report r.nodeId r),(now,.advance 1)]

/-- The identity of generation 3 and fence 3 is published on port 100 and retired safely when its
lease has ended. After a time as a Relay the Forward is published under it again, on port 200, and
removed; Node 0 fetches its next snapshot. -/
def returningRun : List (Nat×Event) :=
  beforeRun++[(9,.reauthorize 1 true false),(9,.claim 5 1)]++fetched 9 0++
    [(10,.update 7 1 1 { relaySpec true with port := 150 }),(11,.claim 6 1)]++fetched 12 0++
    fetched 305010 0++fetched 305010 1++
    reported 305011 (relayReport 0 .relayIngress 1 4 .prepared .prepared)++
    reported 305011 (relayReport 1 .relayEgress 1 1 .prepared .prepared)++fetched 305013 1++
    reported 305014 (relayReport 1 .relayEgress 2 2 .active .ready)++fetched 305016 0++
    reported 305017 (relayReport 0 .relayIngress 2 5 .active .ready)++
    [(305019,.update 7 1 2 (directSpec 200)),(305020,.claim 7 1)]++fetched 305021 0++
    fetched 305021 1++reported 305022 (removedReport 0 .relayIngress 3 6)++
    reported 305022 (removedReport 1 .relayEgress 3 3)++fetched 305022 1++
    [(305023,.remove 7 1 3),(305024,.claim 8 1),(305026,.advance 1),
      (305026,.issue 0 false none none)]

def neverCalledRemoved (t : State) (i : Instance) : Bool :=
  t.reports.rows.all fun e => e.2.drains.all fun d => d.instanceOn i.node≠i

theorem neverCalledRemoved_not (h : neverCalledRemoved t i) : ¬Removed t i ep := by
  rintro ⟨q,r,d,hr,hd,hi,-⟩
  have hrow := List.all_eq_true.mp h _ (Table.mem_rows.mpr hr)
  have hdrain := List.all_eq_true.mp hrow d hd
  exact of_decide_eq_true hdrain hi

/-- Port 200 is released while the lease of what was published on it is valid. -/
theorem slot_handed_over_early : ∃s t p a x, Run Step (State.initial portsWorld) returningRun s ∧
    Step s (305026,.complete 0) t ∧ (s.slot ⟨0,.tcp,200⟩).owner=some 1 ∧
    (t.slot ⟨0,.tcp,200⟩).owner=none ∧ t.snapshots.lookup (0,6)=some p ∧ a∈p.assignments ∧
    a.forwardId=1 ∧ a.slotOn p.nodeId=⟨0,.tcp,200⟩ ∧
    t.leases.lookup ⟨a.instanceOn p.nodeId,1⟩=some x ∧ 305026<x.validUntil ∧
    ¬Removed t (a.instanceOn p.nodeId) 1 := by
  have hrun : ((performs (State.initial portsWorld) returningRun).bind fun s =>
      (perform s (305026,.complete 0)).map fun t =>
        (decide ((s.slot ⟨0,.tcp,200⟩).owner=some 1),decide ((t.slot ⟨0,.tcp,200⟩).owner=none),
          publishedDirect 6 t fun p a x => a.forwardId=1 && a.slotOn p.nodeId=⟨0,.tcp,200⟩ &&
            305026<x.validUntil && neverCalledRemoved t (a.instanceOn p.nodeId)))=
      some (true,true,true) := by
    decide +kernel
  simp only [do_some,decide_eq_true_eq] at hrun
  obtain ⟨s,hs,t,ht,ho,hf,hpub⟩ := hrun
  obtain ⟨p,a,x,hp,ha,hx,hlease⟩ := publishedDirect_some hpub
  simp only [bool_ok] at hlease
  obtain ⟨⟨⟨hid,hslot⟩,hvalid⟩,hnever⟩ := hlease
  exact ⟨s,t,p,a,x,run_performs hs,perform_some ht,ho,hf,hp,ha,hid,hslot,hx,hvalid,
    neverCalledRemoved_not hnever⟩

end TuneX.Control
