import TuneX.Control.Events
import TuneX.Control.Plans

namespace TuneX.Control

open Framework

variable {s t u : State} {f : Forward} {now g : Nat} {n : NodeId} {e : Event} {k : SlotKey}

/-- Why slots of a Forward may be released: none of its leases is in use, its current direct intent
is reported ready, or its deployment is active. In the last two cases every other lease has ended.
An intent that is not deleted keeps the slots of its own specification while it is direct. -/
inductive Releasable (s : State) (now : Nat) (id : ForwardId) (keep : SlotKey→Bool) : Prop
  | idle {row : ForwardRow} (hrow : s.forwards.lookup id=some row)
      (hkeep : row.deleting ∨ ∀k∈State.specKeys row.spec, keep k) (h : ¬s.unsafeLeases id)
  | ready {row : ForwardRow} {n : NodeId} {g : Nat} {p : Snapshot}
      (hrow : s.forwards.lookup id=some row) (hv : row.spec.via=[])
      (hkeep : ∀k, keep k ↔ k∈State.specKeys row.spec) (hp : s.snapshots.lookup (n,g)=some p)
      (hready : ∀q∈row.spec.protocols, ∃a∈p.assignments, a.forwardId=id ∧
        a.forwardRevision=row.revision)
      (hsafe : s.previousLeasesSafe now id
        ((p.assignments.filter fun a => a.forwardId=id).map fun a => a.instanceOn n))
  | active {row : ForwardRow} {g : Nat} {d : Deployment} (hrow : s.forwards.lookup id=some row)
      (hv : row.spec.via≠[]) (hd : s.deployments.lookup (id,g)=some d)
      (hkeep : keep=d.plan.slots.contains) (hsafe : s.previousLeasesSafe now id d.plan.instances)

variable {id : ForwardId} {keep : SlotKey→Bool} {row : ForwardRow} {op : Operation} {r : Report}
  {o : Option (Report×Snapshot)} {d : Deployment}

theorem Releasable.congr (h : Releasable s now id keep)
    (ht : t={ s with slots := t.slots, operations := t.operations }) :
    Releasable t now id keep := by
  rw [ht]
  cases h with
  | idle hrow hkeep h => exact .idle hrow hkeep h
  | ready hrow hv hkeep hp hready hsafe => exact .ready hrow hv hkeep hp hready hsafe
  | active hrow hv hd hkeep hsafe => exact .active hrow hv hd hkeep hsafe

theorem Releasable.keeps (h : Releasable s now id keep) (hrow : s.forwards.lookup id=some row)
    (hv : row.spec.via=[]) (hd : ¬row.deleting) (hk : k∈State.specKeys row.spec) : keep k := by
  cases h with
  | idle hrow' hkeep =>
    rw [hrow] at hrow'
    cases hrow'
    exact hkeep.resolve_left hd k hk
  | ready hrow' _ hkeep =>
    rw [hrow] at hrow'
    cases hrow'
    exact (hkeep k).mpr hk
  | active hrow' hv' =>
    rw [hrow] at hrow'
    cases hrow'
    exact absurd hv hv'

/-- Slots stay as they are or lose an owner that may release them. -/
def Freed (now : Nat) (s t : State) : Prop :=
  ∀k, t.slot k=s.slot k ∨ ∃id keep, (s.slot k).owner=some id ∧ ¬keep k ∧ Releasable t now id keep ∧
    t.slot k={ s.slot k with owner := none }

theorem Freed.of_eq (h : t.slots=s.slots) : Freed now s t := fun k => .inl (State.slot_congr h k)

theorem Freed.trans (h : Freed now s t) (h' : Freed now t u)
    (hu : u={ t with slots := u.slots, operations := u.operations }) : Freed now s u := by
  intro k
  obtain hk | ⟨id,keep,ho,hn,hr,hk⟩ := h k
  · obtain hk' | ⟨id,keep,ho,hn,hr,hk'⟩ := h' k
    · exact .inl (hk'.trans hk)
    · exact .inr ⟨id,keep,hk ▸ ho,hn,hr,hk ▸ hk'⟩
  · obtain hk' | ⟨id',keep',ho',-,-,-⟩ := h' k
    · exact .inr ⟨id,keep,ho,hn,hr.congr hu,hk'.trans hk⟩
    · rw [hk] at ho'
      cases ho'

theorem Freed.release (keep : SlotKey→Bool) (h : Releasable s now id keep)
    (ht : t={ s.release id keep with operations := t.operations }) : Freed now s t := by
  intro k
  have hslots : t.slots=(s.release id keep).slots := by rw [ht]
  rw [State.slot_congr hslots,State.slot_release]
  have hr : Releasable t now id keep := by
    refine h.congr ?_
    rw [ht]
    rfl
  split_ifs with hc
  · simp only [bool_ok,Bool.not_eq_true'] at hc
    exact .inr ⟨id,keep,hc.1,by simp [hc.2],hr,rfl⟩
  · exact .inl rfl

/-- The slots that `releaseObsoleteSlots` keeps. -/
def currentSlot (p : Spec) (k : SlotKey) : Bool :=
  k.node=p.nodeId && k.port=p.port && p.protocols.contains k.protocol

theorem mem_specKeys (p : Spec) (k : SlotKey) : currentSlot p k ↔ k∈State.specKeys p := by
  unfold currentSlot State.specKeys
  simp only [bool_ok,List.contains_iff_mem,List.mem_map]
  constructor
  · rintro ⟨⟨hn,hp⟩,hm⟩
    refine ⟨k.protocol,hm,?_⟩
    rw [Spec.slotKey,← hn,← hp]
  · rintro ⟨q,hq,rfl⟩
    exact ⟨⟨rfl,rfl⟩,hq⟩

theorem currentReady_mem {p : Snapshot} (h : State.currentReady f now op r p) :
    ∀q∈f.spec.protocols, ∃a∈p.assignments,
      a.forwardId=f.id ∧ a.forwardRevision=f.revision := by
  intro q hq
  simp only [State.currentReady,schema_ok] at h
  have hq := h.2 q hq
  cases ha : p.assignments.find? fun a =>
      a.forwardId=f.id && a.forwardRevision=f.revision && a.protocol=q with
  | none => simp [ha] at hq
  | some a =>
    have hp := List.find?_some ha
    simp only [bool_ok] at hp
    exact ⟨a,List.mem_of_find?_eq_some ha,hp.1.1,hp.1.2⟩

theorem completeOperation_freed (op : Operation)
    (ho : ∀r p, o=some (r,p)→∃g, s.snapshots.lookup (n,g)=some p) :
    Freed now s (State.completeOperation now n o s op) := by
  unfold State.completeOperation
  cases hrow : s.forwards.lookup op.forwardId with
  | none => exact .of_eq rfl
  | some row =>
    dsimp only
    split
    · exact .of_eq rfl
    · rename_i hv
      simp only [Bool.or_eq_true,not_or,Bool.not_eq_true',Bool.not_eq_false,List.isEmpty_iff] at hv
      have hidle : ∀m : Bool, (m && !s.unsafeLeases op.forwardId)=true→
          ¬s.unsafeLeases op.forwardId := by
        intro m hm
        simp only [Bool.and_eq_true,Bool.not_eq_true'] at hm
        simp [hm.2]
      have hkeep : row.deleting ∨ ∀k∈State.specKeys row.spec, currentSlot row.spec k :=
        .inr fun k => (mem_specKeys row.spec k).mpr
      split
      · rename_i hs
        rw [Bool.and_eq_true] at hs
        have hl := hidle _ hs.2
        by_cases hd : row.deleting
        · rw [if_pos hd]
          exact .release (fun _ => false) (.idle hrow (.inl hd) hl) rfl
        · rw [if_neg hd]
          exact .release (currentSlot row.spec) (.idle hrow hkeep hl) rfl
      · split
        · rename_i hf
          rw [Bool.and_eq_true] at hf
          exact .release (currentSlot row.spec) (.idle hrow hkeep (hidle _ hf.2)) rfl
        · cases ho' : o with
          | none => exact .of_eq rfl
          | some rp =>
            dsimp only
            split
            · rename_i hr
              rw [Bool.and_eq_true,Bool.and_eq_true] at hr
              obtain ⟨g,hp⟩ := ho rp.1 rp.2 ho'
              exact .release (currentSlot row.spec) (.ready hrow hv.1 (mem_specKeys row.spec) hp
                (currentReady_mem hr.1.2) hr.2) rfl
            · exact .of_eq rfl

theorem complete_freed (ho : ∀r p, o=some (r,p)→∃g, s.snapshots.lookup (n,g)=some p) :
    Freed now s (s.complete now n o) := by
  unfold State.complete
  have hfold : ∀l : List Operation, ∀b : State, b.snapshots=s.snapshots→
      Freed now b (l.foldl (State.completeOperation now n o) b) ∧
      l.foldl (State.completeOperation now n o) b={ b with
        slots := (l.foldl (State.completeOperation now n o) b).slots
        operations := (l.foldl (State.completeOperation now n o) b).operations } := by
    intro l
    induction l with
    | nil =>
      intro b _
      exact ⟨.of_eq rfl,rfl⟩
    | cons op l ih =>
      intro b hb
      have hframe : State.completeOperation now n o b op={ b with
          slots := (State.completeOperation now n o b op).slots
          operations := (State.completeOperation now n o b op).operations } :=
        State.completeOperation_frame o op
      obtain ⟨hfreed,hframe'⟩ := ih (State.completeOperation now n o b op) (by rw [hframe,hb])
      refine ⟨?_,?_⟩
      · exact (completeOperation_freed op (fun r p hrp => hb ▸ ho r p hrp)).trans hfreed hframe'
      · rw [List.foldl_cons,hframe',hframe]
  exact (hfold _ (s.settleRetirements now n) rfl).1

theorem completeRelay_freed (hrow : s.forwards.lookup f.id=some row) (hv : row.spec.via≠[])
    (hd : s.deployments.lookup (f.id,g)=some d) : Freed now s (s.completeRelay now f row op d) := by
  unfold State.completeRelay
  split
  · exact .of_eq rfl
  · split
    · split
      · exact .of_eq rfl
      · rename_i hl
        rw [Bool.or_eq_true,not_or] at hl
        by_cases hdel : row.deleting
        · rw [if_pos hdel]
          refine .release (fun _ => false) (.idle hrow (.inl hdel) hl.2) ?_
          rw [State.settleRelay_frame]
          rfl
        · rw [if_neg hdel]
          refine .of_eq ?_
          rw [State.settleRelay_frame]
    · split
      · rename_i ha
        rw [Bool.and_eq_true] at ha
        refine .release d.plan.slots.contains (.active hrow hv hd rfl ha.2) ?_
        rw [State.settleRelay_frame]
      · exact .of_eq rfl

theorem Freed.congr_left (h : Freed now u t) (hu : u.slots=s.slots) : Freed now s t := by
  intro k
  have hk := h k
  rw [State.slot_congr hu] at hk
  exact hk

/-- Slots are taken for one Forward: each was free or its own and gets the next fence. -/
def Takes (id : ForwardId) (s t : State) : Prop :=
  ∃(keys : List SlotKey) (gen : SlotRow→Nat),
    (∀k∈keys, (s.slot k).owner=none ∨ (s.slot k).owner=some id) ∧
    ∀k, t.slot k=if k∈keys then ⟨some id,(s.slot k).fence+1,gen (s.slot k)⟩ else s.slot k

theorem Takes.none (id : ForwardId) (h : t.slots=s.slots) : Takes id s t :=
  ⟨[],fun _ => 0,by simp,fun k => by simp [State.slot_congr h k]⟩

theorem Takes.other {owner : ForwardId} (h : Takes id s t) (ho : (s.slot k).owner=some owner)
    (hne : owner≠id) : t.slot k=s.slot k := by
  obtain ⟨keys,gen,howner,hslot⟩ := h
  have hnot : k∉keys := by
    intro hm
    cases howner k hm with
    | inl hn => simp [ho] at hn
    | inr hn => exact hne (Option.some.inj (ho.symm.trans hn))
  rw [hslot,if_neg hnot]

theorem Takes.fence_le (h : Takes id s t) (k : SlotKey) : (s.slot k).fence≤(t.slot k).fence := by
  obtain ⟨keys,gen,-,hslot⟩ := h
  rw [hslot]
  split_ifs
  · exact Nat.le_succ _
  · exact le_rfl

theorem Spec.valid_protocols {p : Spec} (h : p.valid) : p.protocols.Nodup ∧ p.protocols≠[] := by
  simp only [Spec.valid,bool_ok] at h
  have hp := h.1.1.1
  simp only [mem_list] at hp
  obtain h | h | h := hp <;> simp [h]

theorem State.Accepted.takes {actor : ActorId} {b : State} (a : b.Accepted now actor f u)
    (hb : b.slots=s.slots) (ht : t.slots=u.slots) : Takes f.id s t := by
  have hnd := compilePathResources_nodup a.resources_eq
  obtain ⟨howner,hslot⟩ := State.reserveRelay_spec hnd a.reserved_eq
  refine ⟨a.resources.map RelayResource.key,fun _ => a.generation,?_,?_⟩
  · intro k hk
    rw [← State.slot_congr hb]
    exact howner k hk
  · intro k
    rw [State.slot_congr ht,State.slot_congr a.slots,hslot,State.slot_congr hb]

theorem State.Commanded.slots (c : s.Commanded now e t) : t.slots=c.reserved.slots := by
  have h := congrArg State.slots c.result
  exact h

theorem State.Commanded.deployments (c : s.Commanded now e t) :
    t.deployments=c.reserved.deployments := by
  have h := congrArg State.deployments c.result
  exact h

theorem State.Commanded.takes (c : s.Commanded now e t) : Takes c.f.id s t := by
  have hslots := c.slots
  have hr := c.reserving
  have hnd := (Spec.valid_protocols c.valid).1
  generalize c.reserved=reserved at hslots hr
  cases hr with
  | keep => exact .none c.f.id hslots
  | reserve _ _ h =>
    obtain ⟨howner,hslot⟩ := State.reserve_spec hnd h
    refine ⟨State.specKeys c.f.spec,fun _ => 1,fun k hk => .inl (howner k hk),fun k => ?_⟩
    rw [State.slot_congr hslots,hslot]
    rfl
  | @transition old _ _ _ h =>
    obtain ⟨howner,hslot⟩ := State.transition_spec hnd h
    refine ⟨State.specKeys c.f.spec,fun r => State.nextGeneration c.f.revision r.generation
      (s.ownedGenerations old.spec.nodeId c.f.id),howner,fun k => ?_⟩
    rw [State.slot_congr hslots,hslot]
    rfl
  | plan _ h =>
    obtain ⟨a⟩ := State.acceptPlan_ok h
    exact a.takes rfl hslots

theorem Turn.slots (hrow : s.forwards.lookup id=some row)
    (h : State.Turn s now (row.forward id) row op g d t) :
    Freed now s t ∨ (row.spec.via≠[] ∧ ∃actor u, Nonempty (s.Accepted now actor (row.forward id) u) ∧
      t.slots=u.slots ∧ t.deployments=u.deployments) := by
  cases h with
  | direct => exact .inl (.of_eq rfl)
  | @refresh actor _ hv _ ht =>
    obtain ⟨u,hu,rfl⟩ := State.refresh_ok ht
    exact .inr ⟨hv,actor,u,State.acceptPlan_ok hu,rfl,rfl⟩
  | withdraw hv =>
    left
    unfold State.withdraw
    refine Freed.congr_left (u := s.setDeployment id g { d with stage := .withdrawn })
      (completeRelay_freed (g := g) hrow hv ?_) rfl
    exact AList.lookup_insert _
  | progress hv =>
    left
    unfold State.progress
    dsimp only
    split
    · refine Freed.congr_left (u := s.setDeployment id g (s.nextDeployment now d))
        (completeRelay_freed (g := g) hrow hv ?_) rfl
      exact AList.lookup_insert _
    · exact .of_eq rfl

theorem State.Taken.freed (h : State.Taken s now n r t) : Freed now s t := by
  obtain ⟨row,drained,failed,-,-,hd,hf,hr⟩ := h
  have hdrain := State.observeDrains_frame hd
  have hfail : failed.slots=s.slots ∧ failed.snapshots=s.snapshots := by
    obtain rfl | ⟨p,rfl⟩ := hf
    · unfold State.storeReport
      rw [hdrain]
      exact ⟨rfl,rfl⟩
    · rw [State.reportErrors_frame]
      unfold State.storeReport
      rw [hdrain]
      exact ⟨rfl,rfl⟩
  obtain rfl | ⟨p,hp,-,-,rfl⟩ := hr
  · exact .of_eq hfail.1
  · refine Freed.congr_left (complete_freed ?_) hfail.1
    rintro r' p' h'
    cases h'
    exact ⟨_,hfail.2 ▸ hp⟩

/-- Who writes the slots: a release, a command, or the refresh of a plan. -/
inductive Books (s : State) (now : Nat) (e : Event) (t : State) : Prop
  | freed (h : Freed now s t)
  | command (c : s.Commanded now e t)
  | refresh {id : ForwardId} {row : ForwardRow} {actor : ActorId} {u : State}
      (hrow : s.forwards.lookup id=some row) (hv : row.spec.via≠[])
      (a : s.Accepted now actor (row.forward id) u) (hs : t.slots=u.slots)
      (hd : t.deployments=u.deployments) (hf : t.forwards=s.forwards)

theorem Acts.books (h : Acts s now e t) : Books s now e t := by
  cases h with
  | idle | administer | provision | hello | expire => exact .freed (.of_eq rfl)
  | command c => exact .command c
  | claim h => exact .freed (.of_eq (by rw [State.claim_frame h]))
  | turn _ _ hrow _ h =>
    obtain hf | ⟨hv,actor,u,⟨a⟩,hs,hd⟩ := Turn.slots hrow h
    · exact .freed hf
    · exact .refresh hrow hv a hs hd (by rw [State.turn_frame h])
  | issue _ _ i => exact .freed (.of_eq (by rw [i.frame]))
  | complete => exact .freed (complete_freed (by simp))
  | report h => exact .freed h.freed
  | quarantine => exact .freed (.of_eq (by rw [quarantineRecovery_frame]))

theorem Acts.reslot (h : Acts s now e t) : Freed now s t ∨ ∃id, Takes id s t := by
  cases h.books with
  | freed h => exact .inl h
  | command c => exact .inr ⟨_,c.takes⟩
  | refresh _ _ a hs => exact .inr ⟨_,a.takes rfl hs⟩

theorem Acts.fence_mono (h : Acts s now e t) (k : SlotKey) : (s.slot k).fence≤(t.slot k).fence := by
  cases h.reslot with
  | inl h =>
    obtain hk | ⟨id,keep,-,-,-,hk⟩ := h k
    · rw [hk]
    · rw [hk]
  | inr h =>
    obtain ⟨id,h⟩ := h
    exact h.fence_le k

end TuneX.Control
