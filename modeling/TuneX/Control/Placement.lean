import TuneX.Control.Reservations

namespace TuneX.Control

open Framework

variable {s t u : State} {now : Nat} {n : NodeId} {e : Event} {k : SlotKey} {i : Instance}

theorem Takes.kept {id owner : ForwardId} (h : Takes id s t) (ho : (t.slot k).owner=some owner)
    (hne : owner≠id) : t.slot k=s.slot k := by
  obtain ⟨keys,gen,-,hslot⟩ := h
  have hk := hslot k
  split_ifs at hk
  · rw [hk] at ho
    exact absurd (Option.some.inj ho).symm hne
  · exact hk

theorem Acts.row_before {id : ForwardId} {row' : ForwardRow} (h : Acts s now e t)
    (hrow : t.forwards.lookup id=some row') (hc : ∀c : s.Commanded now e t, c.f.id≠id) :
    ∃row, s.forwards.lookup id=some row ∧ row.spec=row'.spec ∧ row.revision=row'.revision := by
  obtain hf | ⟨-,hf⟩ | ⟨⟨c⟩⟩ := h.forwards
  · exact ⟨row',hf ▸ hrow,rfl,rfl⟩
  · rw [hf,Table.lookup_alter_some] at hrow
    obtain ⟨row,hrow,rfl⟩ := hrow
    exact ⟨row,hrow,rfl,rfl⟩
  · rw [c.forwards,if_neg (hc c).symm] at hrow
    exact ⟨row',hrow,rfl,rfl⟩

/-- The identity of a direct intent on one of its slots. -/
def directInstance (s : State) (id : ForwardId) (p : Spec) (q : Protocol) : Instance :=
  ⟨p.nodeId,⟨p.nodeId,id,q,.direct⟩,(s.slot (p.slotKey q)).generation,(s.slot (p.slotKey q)).fence⟩

theorem Acts.direct_slot {id : ForwardId} {row : ForwardRow} {q : Protocol} (h : Acts s now e t)
    (hrow : t.forwards.lookup id=some row) (hv : row.spec.via=[]) (hq : q∈row.spec.protocols)
    (ho : (t.slot (row.spec.slotKey q)).owner=some id) :
    Reserves s t (row.spec.slotKey q) (directInstance t id row.spec q) ∨
      ((∃old, s.forwards.lookup id=some old ∧ old.spec=row.spec) ∧
        t.slot (row.spec.slotKey q)=s.slot (row.spec.slotKey q)) := by
  by_cases hc : ∃c : s.Commanded now e t, c.f.id=id
  · obtain ⟨c,rfl⟩ := hc
    have hc' := c.row_eq
    have hspec := c.spec
    rw [hrow] at hc'
    cases hc'
    have hnd := (Spec.valid_protocols c.valid).1
    have hkey : c.row.spec.slotKey q∈State.specKeys c.f.spec := by
      rw [← hspec]
      exact List.mem_map_of_mem hq
    -- A command that takes the slots of the intent raises their fences.
    have htaken : ∀gen : SlotRow→Nat, t.slot (c.row.spec.slotKey q)=
        ⟨some c.f.id,(s.slot (c.row.spec.slotKey q)).fence+1,gen (s.slot (c.row.spec.slotKey q))⟩→
        Reserves s t (c.row.spec.slotKey q) (directInstance t c.f.id c.row.spec q) := by
      intro gen hslot
      refine .direct hrow hv hq rfl ho ?_ rfl
      rw [hslot]
      exact Nat.lt_succ_self _
    have hslots := c.slots
    have hr := c.reserving
    generalize c.reserved=reserved at hslots hr
    cases hr with
    | keep _ hk =>
      right
      have hsame := hk (hspec ▸ hv)
      obtain ⟨old,hold,hos⟩ := Option.map_eq_some_iff.mp hsame
      refine ⟨⟨old,hold,hos.trans hspec.symm⟩,?_⟩
      rw [State.slot_congr hslots]
      rfl
    | reserve _ _ hres =>
      left
      have hslot := (State.reserve_spec hnd hres).2 (c.row.spec.slotKey q)
      rw [← State.slot_congr hslots,if_pos hkey] at hslot
      exact htaken (fun _ => 1) hslot
    | @transition old _ _ _ hres =>
      left
      have hslot := (State.transition_spec hnd hres).2 (c.row.spec.slotKey q)
      rw [← State.slot_congr hslots,if_pos hkey] at hslot
      exact htaken (fun r => State.nextGeneration c.f.revision r.generation
        (s.ownedGenerations old.spec.nodeId c.f.id)) hslot
    | plan hv' => exact absurd (hspec ▸ hv) hv'
  · right
    have hc' : ∀c : s.Commanded now e t, c.f.id≠id := fun c hid => hc ⟨c,hid⟩
    obtain ⟨old,hold,hspec,-⟩ := h.row_before hrow hc'
    refine ⟨⟨old,hold,hspec⟩,?_⟩
    cases h.books with
    | freed hfreed =>
      obtain hsame | ⟨_,_,-,-,-,hnone⟩ := hfreed (row.spec.slotKey q)
      · exact hsame
      · rw [hnone] at ho
        cases ho
    | command c => exact c.takes.kept ho (hc' c).symm
    | @refresh id' r actor u hr hvia a hsl _ _ =>
      have hne : id≠id' := by
        rintro rfl
        rw [hold] at hr
        cases hr
        exact hvia (hspec ▸ hv)
      exact (a.takes rfl hsl).kept ho hne

/-- An identity that the store holds, with the slot it stands for. -/
inductive Known (s : State) : Instance→SlotKey→Prop
  | direct {id : ForwardId} {row : ForwardRow} {q : Protocol} (hrow : s.forwards.lookup id=some row)
      (hv : row.spec.via=[]) (hq : q∈row.spec.protocols)
      (ho : (s.slot (row.spec.slotKey q)).owner=some id) :
      Known s (directInstance s id row.spec q) (row.spec.slotKey q)
  | planned {id : ForwardId} {g : Nat} {d : Deployment} {node : PlanNode} {a : Assignment}
      (hd : s.deployments.lookup (id,g)=some d) (hn : node∈d.plan.nodes) (ha : a∈node.assignments) :
      Known s (a.instanceOn node.nodeId) (a.slotOn node.nodeId)
  | published {key : NodeId×Nat} {p : Snapshot} {a : Assignment}
      (hp : s.snapshots.lookup key=some p) (ha : a∈p.assignments) :
      Known s (a.instanceOn p.nodeId) (a.slotOn p.nodeId)

theorem Source.known {b : Bool} {a : Assignment} (h : Source s now n b a) :
    Known s (a.instanceOn n) (a.slotOn n) := by
  cases h with
  | direct hrow _ _ hn hv _ hq ha =>
    obtain ⟨ho,-,-,rfl⟩ := compileDirectOne_ok.mp ha
    subst hn
    exact .direct hrow hv hq ho
  | relay hl _ hnode ha =>
    obtain ⟨⟨c,hc,rfl⟩,-⟩ := deploymentAssignments_mem ha
    obtain ⟨hmem,rfl⟩ := find_node hnode
    exact Known.planned (a := c) (latestDeployment_some hl).1 hmem hc

theorem Acts.known {e : Nat×Event} (hd : Deployed s) (h : Acts s e.1 e.2 t) (hk : Known t i k) :
    Known s i k ∨ Reserves s t k i := by
  cases hk with
  | direct hrow hv hq ho =>
    obtain hres | ⟨⟨old,hold,hspec⟩,hslot⟩ := h.direct_slot hrow hv hq ho
    · exact .inr hres
    · left
      unfold directInstance
      rw [hslot,← hspec] at ho ⊢
      exact .direct hold (hspec ▸ hv) (hspec ▸ hq) ho
  | planned hdep hnode ha =>
    cases (h.redeploy hd.specs).origin hdep with
    | kept hd₀ hp =>
      left
      rw [hp] at hnode
      exact .planned hd₀ hnode ha
    | planned _ hbd acc _ _ hf hg =>
      right
      refine .relay ?_ hdep hnode ha rfl rfl
      rw [Option.eq_none_iff_forall_ne_some,← hf,← hg]
      intro d' hd'
      exact lt_irrefl _ (acc.generation_fresh (hbd ▸ hd'))
  | published hp ha =>
    left
    obtain hp | ⟨m,row,next,-,-,hsource,issued,rfl⟩ := h.published hp
    · exact .published hp ha
    · rw [issued.snapshot_fields.1]
      exact (hsource _ ha).known

/-- Identities and the slots they stand for; `G` holds what has been reserved so far. -/
structure Placed (G : Instance→SlotKey→Prop) (s : State) : Prop where
  unique : ∀i k k', G i k→G i k'→k=k'
  spent : ∀i k, G i k→Spent s i
  direct : ∀id row q, s.forwards.lookup id=some row → row.spec.via=[]→q∈row.spec.protocols→
    (s.slot (row.spec.slotKey q)).owner=some id→
    G (directInstance s id row.spec q) (row.spec.slotKey q)
  planned : ∀id g d, s.deployments.lookup (id,g)=some d→∀node∈d.plan.nodes, ∀a∈node.assignments,
    G (a.instanceOn node.nodeId) (a.slotOn node.nodeId)
  published : ∀key p, s.snapshots.lookup key=some p→∀a∈p.assignments,
    G (a.instanceOn p.nodeId) (a.slotOn p.nodeId)

variable {G : Instance→SlotKey→Prop}

theorem Placed.initial (w : World) : Placed (fun _ _ => False) (State.initial w) := by
  refine ⟨?_,?_,?_,?_,?_⟩
  all_goals simp [State.initial]

theorem Placed.clock (c : Nat) (hs : Placed G s) : Placed G { s with clock := c } :=
  ⟨hs.unique,fun i k hk => (hs.spent i k hk).clock c,hs.direct,hs.planned,hs.published⟩

theorem Placed.known (hs : Placed G s) (h : Known s i k) : G i k := by
  cases h with
  | direct hrow hv hq ho => exact hs.direct _ _ _ hrow hv hq ho
  | planned hd hn ha => exact hs.planned _ _ _ hd _ hn _ ha
  | published hp ha => exact hs.published _ _ hp _ ha

theorem Placed.acts {e : Nat×Event} (hd : Deployed s) (hs : Placed G s) (h : Acts s e.1 e.2 t)
    (hin : switchesInStep s e.2) : Placed (fun i k => G i k ∨ Reserves s t k i) t := by
  have ht : Deployed t := hd.acts h
  have hknown : ∀i k, Known t i k→G i k ∨ Reserves s t k i := fun i k hk =>
    (h.known hd hk).imp_left hs.known
  refine ⟨?_,?_,?_,?_,?_⟩
  · intro i k k' hk hk'
    obtain hk | hk := hk
    · obtain hk' | hk' := hk'
      · exact hs.unique i k k' hk hk'
      · exact absurd hk' ((hs.spent i k hk).not_reserves ht h)
    · obtain hk' | hk' := hk'
      · exact absurd hk ((hs.spent i k' hk').not_reserves ht h)
      · exact hk.slot_unique ht hk'
  · intro i k hk
    obtain hk | hk := hk
    · exact (hs.spent i k hk).acts hd.specs h hin
    · exact hk.spent ht
  · intro id row q hrow hv hq ho
    exact hknown _ _ (.direct hrow hv hq ho)
  · intro id g d hdep node hnode a ha
    exact hknown _ _ (.planned hdep hnode ha)
  · intro key p hp a ha
    exact hknown _ _ (.published hp ha)

end TuneX.Control
