import TuneX.Agent.TransitJournal

namespace TuneX.Agent

open Framework

structure RuntimeJournal where
  protocolVersion : Nat
  nodeId : String
  /-- The stored snapshot; `none` is the JSON null of a new journal. -/
  snapshot : Option Snapshot
  generation : Nat
  digest : String
  fences : Counters Slot
  retired : Counters Slot
  executionExtension : Option Nat
  importedTransitDigest : String
  deriving DecidableEq

/-- A successful call either leaves the file alone or replaces it by the record it returns. -/
inductive Outcome
  | unchanged (record : RuntimeJournal)
  | saved (record : RuntimeJournal)
  deriving DecidableEq

def Outcome.record : Outcome→RuntimeJournal
  | .unchanged record => record
  | .saved record => record

def Outcome.file (before : RuntimeJournal) : Outcome→RuntimeJournal
  | .unchanged _ => before
  | .saved record => record

namespace RuntimeJournal

/-- `InitializeRuntimeJournal`, for a Node name it accepts. -/
def initial (node : String) : RuntimeJournal := ⟨3,node,none,0,"",∅,∅,none,""⟩

def table (j : RuntimeJournal) : FenceTable Slot := ⟨j.fences,j.retired⟩

/-- The assignments of the stored snapshot; a journal without history has none. -/
def live (j : RuntimeJournal) : List Assignment :=
  if 0<j.generation then (j.snapshot.map Snapshot.assignments).getD [] else []

def loadEntry (e : Slot×Nat) : Except String Unit := do
  reject (e.1.port<1 ∨ 99999<e.1.port ∨ e.2<1) "INTEGRITY_FAILURE: Invalid physical fence record"
  reject (65535<e.1.port) "INTEGRITY_FAILURE: Invalid physical port history"
  reject (maxCounter<e.2) "INTEGRITY_FAILURE: Runtime journal counter overflow"

def loadEntries : List (Slot×Nat)→Except String Unit
  | [] => pure ()
  | e::l => do
    loadEntry e
    loadEntries l

/-- The stored snapshot parses again and agrees with the record around it. -/
def loadSnapshot (lib : Library) (node : String) (j : RuntimeJournal) (s : Snapshot) :
    Except String Unit := do
  let s ← (parse lib s).mapError fun _ => "INTEGRITY_FAILURE: invalid persisted Snapshot"
  reject (s.executionExtension≠none ∧ j.executionExtension=none)
    "INTEGRITY_FAILURE: Missing durable execution extension"
  reject (s.nodeId≠node ∨ s.snapshotGeneration≠j.generation ∨ s.snapshotDigest≠j.digest)
    "INTEGRITY_FAILURE: Stored Snapshot differs"
  reject (∃a∈s.assignments, j.fences.read a.slot<a.bindingFence ∨
      a.bindingFence≤j.retired.read a.slot)
    "INTEGRITY_FAILURE: Stored physical fence differs"

def loadHistory (lib : Library) (node : String) (j : RuntimeJournal) : Except String Unit :=
  if 0<j.generation then
    match j.snapshot with
    | none => .error "INTEGRITY_FAILURE: invalid persisted Snapshot"
    | some s => loadSnapshot lib node j s
  else pure ()

/-- The semantic checks of `LoadRuntimeJournal` on a decoded record. -/
def load (lib : Library) (node : String) (j : RuntimeJournal) :
    Except String RuntimeJournal := do
  reject (j.protocolVersion≠3 ∨ j.nodeId≠node) "INTEGRITY_FAILURE: Runtime journal binding differs"
  reject (j.executionExtension≠none ∧ j.executionExtension≠some 1)
    "UNSUPPORTED_PROTOCOL_VERSION: Runtime journal extension"
  reject (j.importedTransitDigest≠"" ∧
      (j.executionExtension=none ∨ ¬digestOk j.importedTransitDigest))
    "INTEGRITY_FAILURE: Invalid Transit import"
  loadEntries (j.fences.pairs++j.retired.pairs)
  reject (maxCounter<j.generation) "INTEGRITY_FAILURE: Runtime generation overflow"
  reject (j.generation=0 ∧ (j.digest≠"" ∨ j.snapshot≠none ∨
      j.importedTransitDigest="" ∧ (j.fences.pairs≠[] ∨ j.retired.pairs≠[])))
    "INTEGRITY_FAILURE: Zero generation with execution history"
  loadHistory lib node j
  pure j

/-- The comparison of a new assignment with one prior assignment. Prior assignments on
another slot are skipped before anything else is looked at. -/
def compare (a old : Assignment) : Option String :=
  if old.slot≠a.slot then none
  else if a.bindingFence=old.bindingFence ∧
      (old.assignmentId≠a.assignmentId ∨ old.forwardId≠a.forwardId ∨
        old.deploymentGeneration≠a.deploymentGeneration ∨ old.role≠a.role ∨
        old.driver.id≠a.driver.id) then
    some "FENCING_REJECTED: New physical owner requires a new Fence"
  else if old.assignmentId=a.assignmentId ∧ old.deploymentGeneration=a.deploymentGeneration ∧
      old.bindingFence=a.bindingFence then
    if old.driver.configDigest≠a.driver.configDigest ∨ old.resource≠a.resource ∨
        old.protocol≠a.protocol then
      some "INTEGRITY_FAILURE: Immutable execution changed"
    else if old.phase=.draining ∧ a.phase≠.draining ∨ old.phase=.active ∧ a.phase=.prepared then
      some "FENCING_REJECTED: Execution phase regressed"
    else none
  else none

def verdict (prior : List Assignment) (a : Assignment) : Option String :=
  prior.findSome? (compare a)

/-- The record that follows `current` once the assignments of a snapshot are admitted. -/
def succeed (current : RuntimeJournal) (s : Snapshot) (fences : Counters Slot) :
    RuntimeJournal :=
  {current with
    executionExtension := s.executionExtension.or current.executionExtension
    fences := fences
    retired := (current.retired.raiseAll (FenceTable.absent fences
      (FenceTable.grantsOf Assignment.slot Assignment.bindingFence s.assignments))).raiseAll
      (s.tombstones.map fun t => (t.slot,t.bindingFence))
    generation := s.snapshotGeneration
    digest := s.snapshotDigest
    snapshot := some s}

/-- The caller's record is the durable one, up to the stored snapshot's own text. -/
def Current (durable current : RuntimeJournal) : Prop :=
  durable.protocolVersion=current.protocolVersion ∧
  durable.executionExtension=current.executionExtension ∧
  durable.importedTransitDigest=current.importedTransitDigest ∧
  durable.generation=current.generation ∧ durable.digest=current.digest ∧
  durable.fences.same current.fences ∧ durable.retired.same current.retired

instance (durable current : RuntimeJournal) : Decidable (Current durable current) :=
  inferInstanceAs (Decidable (_ ∧ _))

/-- `AcceptRuntimeSnapshot` on the durable file and the caller's record. -/
def accept (lib : Library) (file current : RuntimeJournal) (s : Snapshot) :
    Except String Outcome := do
  let durable ← load lib current.nodeId file
  reject (¬Current durable current) "INTEGRITY_FAILURE: Caller Runtime state is stale"
  let _ ← parse lib s
  reject (s.executionExtension≠none ∧ current.executionExtension=none)
    "UNSUPPORTED_CAPABILITY: Explicit durable execution migration required"
  reject (current.protocolVersion≠3 ∨ current.nodeId≠s.nodeId ∨
      s.snapshotGeneration<current.generation ∨
      s.snapshotGeneration=current.generation ∧ s.snapshotDigest≠current.digest)
    "INTEGRITY_FAILURE: Runtime history/binding differs"
  if s.snapshotGeneration=current.generation then pure (.unchanged current)
  else do
    reject (0<current.generation ∧
        ∃prior∈current.snapshot, s.sessionEpoch<prior.sessionEpoch)
      "SESSION_SUPERSEDED: Persisted session cannot regress"
    let fences ← FenceTable.admitAll Assignment.slot Assignment.bindingFence "FENCING_REJECTED"
      (verdict current.live) current.retired current.fences s.assignments
    pure (.saved (succeed current s fences))

/-- Every fence the Transit history used, per slot. -/
def legacy (transit : TransitJournal) : List (Slot×Nat) :=
  (transit.fences.raiseAll transit.retired.pairs).pairs

/-- `EnableRuntimeExecution`, with the Transit journal file to import if a path is given. -/
def enable (lib : TransitLibrary) (node : String) (file : RuntimeJournal)
    (transit : Option TransitJournal) : Except String Outcome := do
  let current ← load lib.toLibrary node file
  match transit with
  | none => pure (.saved {current with executionExtension := some 1})
  | some transit => do
    let transit ← TransitJournal.load lib node transit
    if current.importedTransitDigest≠"" then do
      reject (current.importedTransitDigest≠lib.journalDigest transit)
        "INTEGRITY_FAILURE: Imported Transit history changed"
      pure (.unchanged current)
    else do
      reject (∃e∈legacy transit, ∃a∈current.live, a.slot=e.1 ∧ a.bindingFence≤e.2)
        "RESOURCE_CONFLICT: Legacy Transit history overlaps live Runtime ownership"
      pure (.saved {current with
        fences := current.fences.raiseAll (legacy transit)
        retired := current.retired.raiseAll (legacy transit)
        importedTransitDigest := lib.journalDigest transit
        executionExtension := some 1})

theorem load_eq {lib : Library} {node : String} {j d : RuntimeJournal}
    (h : load lib node j=.ok d) : d=j ∧ j.protocolVersion=3 ∧ j.nodeId=node := by
  unfold load at h
  simp only [do_ok,not_or,not_not] at h
  exact ⟨h.2.2.2.2.2.2.2.symm,h.1⟩

/-- What a new assignment of a repeated slot and fence keeps of the prior one. -/
def Continues (old a : Assignment) : Prop :=
  (old.assignmentId=a.assignmentId ∧ old.forwardId=a.forwardId ∧
    old.deploymentGeneration=a.deploymentGeneration ∧ old.role=a.role ∧
    old.driver.id=a.driver.id) ∧
  (old.phase=.draining→a.phase=.draining) ∧ (old.phase=.active→a.phase≠.prepared)

theorem continues_refl (a : Assignment) : Continues a a := by
  refine ⟨⟨rfl,rfl,rfl,rfl,rfl⟩,id,?_⟩
  intro h
  simp [h]

theorem continues_trans (a b c : Assignment) (hab : Continues a b) (hbc : Continues b c) :
    Continues a c := by
  obtain ⟨⟨h₁,h₂,h₃,h₄,h₅⟩,hd,hp⟩ := hab
  obtain ⟨⟨k₁,k₂,k₃,k₄,k₅⟩,kd,kp⟩ := hbc
  refine ⟨⟨h₁.trans k₁,h₂.trans k₂,h₃.trans k₃,h₄.trans k₄,h₅.trans k₅⟩,fun h => kd (hd h),?_⟩
  intro ha
  have hb := hp ha
  cases hph : b.phase with
  | prepared => exact absurd hph hb
  | active => exact kp hph
  | draining =>
    have hc := kd hph
    simp [hc]

theorem compare_none {a old : Assignment} (h : compare a old=none) (hs : old.slot=a.slot) :
    (old.bindingFence=a.bindingFence → Continues old a) ∧
      (old.assignmentId=a.assignmentId → old.deploymentGeneration=a.deploymentGeneration→
        old.bindingFence=a.bindingFence → old.resource=a.resource ∧ old.protocol=a.protocol ∧
          old.driver.configDigest=a.driver.configDigest) := by
  unfold compare at h
  rw [if_neg (not_not.mpr hs)] at h
  split_ifs at h with howner hsame hbody hphase
  · refine ⟨?_,?_⟩
    · intro hf
      have hown : ¬_ := fun hd => howner ⟨hf.symm,hd⟩
      simp only [not_or,not_not] at hown
      refine ⟨hown,?_,?_⟩
      · intro hd
        by_contra hn
        exact hphase (.inl ⟨hd,hn⟩)
      · exact fun ha hn => hphase (.inr ⟨ha,hn⟩)
    · intro _ _ _
      simp only [not_or,not_not] at hbody
      exact ⟨hbody.2.1,hbody.2.2,hbody.1⟩
  · refine ⟨?_,fun h₁ h₂ h₃ => absurd ⟨h₁,h₂,h₃⟩ hsame⟩
    intro hf
    have hown : ¬_ := fun hd => howner ⟨hf.symm,hd⟩
    simp only [not_or,not_not] at hown
    exact absurd ⟨hown.1,hown.2.2.1,hf⟩ hsame

theorem verdict_none {prior : List Assignment} {a : Assignment} (h : verdict prior a=none) :
    ∀old∈prior, compare a old=none := by
  unfold verdict at h
  rw [List.findSome?_eq_none_iff] at h
  exact h

theorem accept_cases {lib : Library} {file current : RuntimeJournal} {s : Snapshot}
    {o : Outcome} (h : accept lib file current s=.ok o) :
    load lib current.nodeId file=.ok file ∧ Current file current ∧ ValidSnapshot lib s ∧
    (s.executionExtension≠none→current.executionExtension≠none) ∧ current.nodeId=s.nodeId ∧
    ((s.snapshotGeneration=current.generation ∧ s.snapshotDigest=current.digest ∧
        o=.unchanged current) ∨
      (current.generation<s.snapshotGeneration ∧
        ∃fences, FenceTable.admitAll Assignment.slot Assignment.bindingFence "FENCING_REJECTED"
            (verdict current.live) current.retired current.fences s.assignments=.ok fences ∧
          o=.saved (succeed current s fences))) := by
  unfold accept at h
  simp only [do_ok,not_or,not_and,not_not] at h
  obtain ⟨durable,hload,hcur,parsed,hparse,hext,⟨-,hnode,hgen,hdig⟩,h⟩ := h
  obtain ⟨rfl,-⟩ := load_eq hload
  refine ⟨hload,hcur,(parse_valid lib s parsed hparse).2,hext,hnode,?_⟩
  split_ifs at h with hsame
  · simp only [pure_ok] at h
    exact .inl ⟨hsame,hdig hsame,h.symm⟩
  · simp only [do_ok] at h
    obtain ⟨-,fences,hadm,rfl⟩ := h
    exact .inr ⟨by omega,fences,hadm,rfl⟩

theorem enable_cases {lib : TransitLibrary} {node : String} {file : RuntimeJournal}
    {transit : Option TransitJournal} {o : Outcome} (h : enable lib node file transit=.ok o) :
    load lib.toLibrary node file=.ok file ∧
    ((transit=none ∧ o=.saved {file with executionExtension := some 1}) ∨
      o=.unchanged file ∨
      (∃j, transit=some j ∧ file.importedTransitDigest="" ∧
        (∀e∈legacy j, ∀a∈file.live, a.slot=e.1→e.2<a.bindingFence) ∧
        o=.saved {file with
          fences := file.fences.raiseAll (legacy j)
          retired := file.retired.raiseAll (legacy j)
          importedTransitDigest := lib.journalDigest j
          executionExtension := some 1})) := by
  unfold enable at h
  simp only [bind_ok] at h
  obtain ⟨current,hload,h⟩ := h
  obtain ⟨rfl,-⟩ := load_eq hload
  refine ⟨hload,?_⟩
  cases transit with
  | none =>
    simp only [pure_ok] at h
    exact .inl ⟨rfl,h.symm⟩
  | some transit =>
    simp only [bind_ok] at h
    obtain ⟨j,hj,h⟩ := h
    obtain rfl := TransitJournal.load_eq hj
    split_ifs at h with himp
    · simp only [do_ok] at h
      exact .inr (.inl h.2.symm)
    · simp only [do_ok,not_exists,not_and,not_le] at h
      exact .inr (.inr ⟨j,rfl,not_not.mp himp,h.1,h.2.symm⟩)

end RuntimeJournal

end TuneX.Agent
