import TuneX.Agent.JournalHistory

namespace TuneX.Agent

open Framework

/-- Two assignments that name one execution: identifier, generation and fence agree. -/
def SameExecution (old a : Assignment) : Prop :=
  old.assignmentId=a.assignmentId ∧ old.deploymentGeneration=a.deploymentGeneration ∧
    old.bindingFence=a.bindingFence

instance (old a : Assignment) : Decidable (SameExecution old a) :=
  inferInstanceAs (Decidable (_ ∧ _))

/-- What an execution identity is meant to fix. -/
def SameBody (old a : Assignment) : Prop :=
  old.resource=a.resource ∧ old.protocol=a.protocol ∧
    old.driver.configDigest=a.driver.configDigest

theorem sameBody_slot {old a : Assignment} (h : SameBody old a) : old.slot=a.slot := by
  unfold Assignment.slot
  rw [h.1]

theorem compare_sameBody {old a : Assignment} (h : RuntimeJournal.compare a old=none)
    (he : SameExecution old a) (hs : old.slot=a.slot) : SameBody old a :=
  (RuntimeJournal.compare_none h hs).2 he.1 he.2.1 he.2.2

/-- Between the stored snapshot and the next one accepted, an execution identity fixes
resource, protocol and configuration exactly when no execution changes its slot. -/
theorem identity_immutable_iff (lib : TransitLibrary) (node : String) (l : List JournalEvent)
    (s t : Store) (current : RuntimeJournal) (snapshot : Snapshot) (o : Outcome)
    (hc : CollisionFree lib.toLibrary (l++[.accept current snapshot o]))
    (h : Run (Store.Step lib node) (Store.start node) l s)
    (hstep : Store.Step lib node s (.accept current snapshot o) t) :
    (∀old∈s.file.live, ∀a∈snapshot.assignments, SameExecution old a→
      old.resource=a.resource ∧ old.protocol=a.protocol ∧
        old.driver.configDigest=a.driver.configDigest) ↔
    (∀old∈s.file.live, ∀a∈snapshot.assignments, SameExecution old a → old.slot=a.slot) := by
  have hs := run_sound hc.mono h
  constructor
  · intro hbody old hold a ha he
    exact sameBody_slot (hbody old hold a ha he)
  · intro hslot old hold a ha he
    have hsl := hslot old hold a ha he
    rcases accept_step hs.coherent hstep with ⟨hrep,-⟩|⟨hadv,-⟩
    · have hlive := repeats_snapshot hs hc hrep
      have hslots := (RuntimeJournal.accept_cases hstep.2.1).2.2.1.slots
      have heq := List.inj_on_of_nodup_map hslots (hlive ▸ hold) ha hsl
      rw [heq]
      exact ⟨rfl,rfl,rfl⟩
    · exact compare_sameBody (hadv.compared a ha old hold) he hsl

namespace Sample

/-- The journal after the same execution has been accepted on another port. -/
def moved : RuntimeJournal :=
  journal₁.succeed (snapshot 2 (direct 200 .prepared))
    (AList.insert ⟨.tcp,200⟩ 1 journal₁.fences)

theorem accept_moved :
    RuntimeJournal.accept library.toLibrary journal₁ journal₁ (snapshot 2 (direct 200 .prepared))=
      .ok (.saved moved) := by
  rfl

end Sample

open Sample in
/-- One execution identity is stored for TCP port 100 and accepted next for TCP port 200. -/
theorem execution_moves_slot :
    Run (Store.Step library "n1") (Store.start "n1")
      [.load journal₀,first,.accept journal₁ (snapshot 2 (direct 200 .prepared)) (.saved moved)]
      ⟨moved,[moved,journal₁,journal₀]⟩ ∧
    journal₁.live=[direct 100 .prepared] ∧
    SameExecution (direct 100 .prepared) (direct 200 .prepared) ∧
    (direct 100 .prepared).resource≠(direct 200 .prepared).resource :=
  ⟨run_first.snoc ⟨List.mem_cons_self,accept_moved,rfl⟩,rfl,by decide,by decide⟩

open Sample in
/-- The stored assignment is accepted as active on its slot. -/
theorem identity_immutable_activation :
    Run (Store.Step library "n1") (Store.start "n1") ([.load journal₀,first]++[activation])
      ⟨activated,[activated,journal₁,journal₀]⟩ ∧
    journal₁.live=[direct 100 .prepared] ∧ activated.live=[direct 100 .active] ∧
    ∀old∈journal₁.live, ∀a∈activated.live, SameExecution old a → old.resource=a.resource ∧
      old.protocol=a.protocol ∧ old.driver.configDigest=a.driver.configDigest := by
  refine ⟨run_first.snoc step_activated,rfl,rfl,(identity_immutable_iff library "n1" _ _ _ journal₁
    (snapshot 2 (direct 100 .active)) _ collisionFree_activation run_first step_activated).mpr ?_⟩
  intro old hold a ha _
  have h₁ : old=direct 100 .prepared := by
    simpa [show journal₁.live=[direct 100 .prepared] from rfl] using hold
  have h₂ : a=direct 100 .active := by simpa [snapshot] using ha
  rw [h₁,h₂]
  rfl

end TuneX.Agent
