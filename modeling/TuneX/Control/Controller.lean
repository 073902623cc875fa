import TuneX.Control.Coordinator

namespace TuneX.Control

open Framework

/-- The row of a Node in the session of a new boot. -/
def RuntimeNode.booted (row : RuntimeNode) (boot : Nat) (capabilities : List Capability) :
    RuntimeNode :=
  { row with
    sessionEpoch := row.sessionEpoch+1
    bootId := some boot
    lastReportSequence := 0
    lastReport := none
    receivedAt := none
    capabilities := capabilities }

namespace State

def provision (s : State) (n : NodeId) : Except Error State := do
  reject (s.nodes.lookup n).isSome .resourceConflict
  pure { s with nodes := s.nodes.insert n ⟨0,none,0,0,none,none,[]⟩ }

def helloCapabilities (capabilities : List Capability) : Except Error Unit := do
  reject (.adp3∉capabilities) .unsupportedCapability
  reject ((.transport .tcp∉capabilities ∧ .transport .udp∉capabilities) ∨
    .nativeDirect∉capabilities) .unsupportedCapability

/-- A new boot opens the next session; the capabilities it names replace the stored ones. -/
def newBoot (s : State) (n : NodeId) (row : RuntimeNode) (boot : Nat)
    (capabilities : List Capability) : Except Error State := do
  reject (row.sessionEpoch≥maxCounter) .resourceLimit
  pure { s with
    boots := s.boots.insert (n,boot) (row.sessionEpoch+1)
    nodes := s.nodes.insert n (row.booted boot capabilities) }

def hello (s : State) (now : Nat) (n : NodeId) (boot : Nat) (capabilities : List Capability)
    (lastStored : Nat) : Except Error State := do
  helloCapabilities capabilities
  match s.nodes.lookup n with
  | none => .error .sessionSuperseded
  | some row =>
    reject (¬s.nodeAuthorized now n) .authorizationDenied
    reject (row.snapshotGeneration<lastStored) .integrityFailure
    match s.boots.lookup (n,boot) with
    | none => s.newBoot n row boot capabilities
    | some epoch =>
      reject (epoch≠row.sessionEpoch ∨ row.bootId≠some boot) .sessionSuperseded
      reject (¬row.capabilities.isPerm capabilities) .integrityFailure
      pure s

def awaitingClaim (s : State) (n : NodeId) : Bool :=
  s.operations.any fun o => o.status=.accepted &&
    (s.forwards.lookup o.forwardId).any fun r => r.revision=o.targetRevision && r.spec.nodeId=n

def keepMultihop (previous : Snapshot) (next : List Assignment) : Bool :=
  previous.assignments.all fun old => !multihopRole old.role || next.any fun a =>
    a.instanceOn previous.nodeId=old.instanceOn previous.nodeId && a.phase=old.phase &&
      a.config=old.config

/-- The snapshot in force is handed out again while accepted work waits for its claim. -/
def waits (now until_ : Nat) (row : RuntimeNode) (withdrawn awaiting : Bool) (next : List Assignment)
    (previous : Snapshot) : Bool :=
  !withdrawn && awaiting && keepMultihop previous next && previous.sessionEpoch=row.sessionEpoch &&
    now+5000<previous.validUntil && previous.validUntil≤until_

def unchanged (now bound : Nat) (row : RuntimeNode) (next : List Assignment) (previous : Snapshot) :
    Bool :=
  previous.sessionEpoch=row.sessionEpoch && previous.assignments.isPerm next &&
    previous.validUntil≤bound && now+renewalLeadMillis<previous.validUntil

def verifyPublishable (s : State) (now : Nat) (assignments : List Assignment) : Bool :=
  assignments.all fun a => (s.newestFor a.forwardId a.forwardRevision).any fun op =>
    !op.recoveryInvalidated && op.live now false

def claimHolds (s : State) (now : Nat) (c : Nat×Claim) : Bool :=
  s.operations.any fun o => o.id=c.1 && o.status=.running && (o.claim.map (·.token))=some c.2.token &&
    now<c.2.claimUntil && now<o.executionDeadline

def store (s : State) (row : RuntimeNode) (snapshot : Snapshot) : State :=
  { s with
    snapshots := s.snapshots.insert (snapshot.nodeId,snapshot.snapshotGeneration) snapshot
    nodes := s.nodes.insert snapshot.nodeId
      { row with snapshotGeneration := snapshot.snapshotGeneration } }

/-- A snapshot of the next generation, with the retirements and leases that come with it. -/
def issueNext (s : State) (now : Nat) (n : NodeId) (row : RuntimeNode) (validUntil : Nat)
    (next : List Assignment) (claim : Option (Nat×Claim)) : Except Error State := do
  reject (row.sessionEpoch=0) .sessionSuperseded
  reject (row.snapshotGeneration≥maxCounter) .resourceLimit
  let t ← s.retireChanged n (s.snapshots.lookup (n,row.snapshotGeneration)) next
    (row.snapshotGeneration+1)
  let snapshot ← compileSnapshot n row.sessionEpoch (row.snapshotGeneration+1) now validUntil next
    (t.tombstones n (row.snapshotGeneration+1))
  reject (¬t.verifyPublishable now next) .staleClaim
  reject (claim.any fun c => !t.claimHolds now c) .staleClaim
  pure ((t.store row snapshot).recordLeases snapshot)

/-- A withdrawn Node gets an empty set. -/
def nextAssignments (s : State) (now : Nat) (n : NodeId) (withdrawn : Bool) :
    Except Error (List Assignment) :=
  if withdrawn then .ok [] else s.assignments now n false

/-- Publication after the deployments have had their turn. `credential` is the end of the
credential presented by the Node itself; without one the stored end counts. -/
def issue (s : State) (now : Nat) (n : NodeId) (awaiting : Bool) (claim : Option (Nat×Claim))
    (credential : Option Nat) : Except Error State := do
  match s.nodes.lookup n with
  | none => .error .sessionSuperseded
  | some row =>
    reject (credential.any fun u => u≤now || s.world.revoked n) .authorizationDenied
    let until_ := credential.getD (s.world.credentialUntil n)
    let withdrawn : Bool := s.world.revoked n || until_≤now
    let next ← s.nextAssignments now n withdrawn
    let previous := s.snapshots.lookup (n,row.snapshotGeneration)
    if previous.any (waits now until_ row withdrawn awaiting next) then .ok s else do
      let bound ← s.authorizationBound now next
      if previous.any (unchanged now (min until_ bound) row next) then .ok s else
        s.issueNext now n row
          (if withdrawn then now+leaseMillis else min (now+leaseMillis) (min until_ bound)) next claim

def publish (s : State) (now : Nat) (n : NodeId) (claim : Option (Nat×Claim))
    (credential : Option Nat) : Except Error State := do
  let t ← s.advanceForNode now n
  t.issue now n (s.awaitingClaim n) claim credential

def observationKnown (snapshot : Option Snapshot) (n : NodeId) (o : Observation) : Bool :=
  snapshot.any fun p => p.assignments.any fun a =>
    a.instanceOn n=o.instanceOn n && (o.phase=some a.phase || o.phase=none)

def reportError (now : Nat) (snapshot : Snapshot) (report : Report) (s : State) (a : Assignment) :
    State :=
  match report.observations.find? fun o => o.assignmentId=a.assignmentId with
  | none => s
  | some o =>
    if o.condition≠.error then s else
    if multihopRole a.role then s.executionError now snapshot a o else
    if o.retryable then s else
      s.updateOperations (fun p => p.forwardId=a.forwardId && p.targetRevision=a.forwardRevision &&
        p.status=.running) fun p => { p with status := .failed, cleanupPending := true }

def storeReport (s : State) (now : Nat) (n : NodeId) (row : RuntimeNode) (report : Report) : State :=
  { s with
    reports := s.reports.insert (n,report.sessionEpoch,report.reportSequence) report
    nodes := s.nodes.insert n { row with
      lastReportSequence := report.reportSequence
      lastReport := some report
      receivedAt := some now } }

/-- A report that is new for its session. -/
def takeReport (s : State) (now : Nat) (n : NodeId) (row : RuntimeNode) (report : Report) :
    Except Error State := do
  reject (report.reportSequence ≤ row.lastReportSequence) .staleGeneration
  let snapshot := (s.snapshots.lookup (n,report.acceptedSnapshotGeneration)).filter fun p =>
    p.sessionEpoch=row.sessionEpoch && report.acceptedSnapshotGeneration≠0
  reject (report.acceptedSnapshotGeneration≠0 ∧ snapshot=none) .staleGeneration
  reject (¬report.observations.all (observationKnown snapshot n)) .fencingRejected
  let t ← s.observeDrains n row.sessionEpoch report
  let u := t.storeReport now n row report
  let current := snapshot.filter fun p => p.snapshotGeneration=row.snapshotGeneration
  let v := (current.filter fun p => now+maxClockSkewMillis<p.validUntil).elim u fun p =>
    p.assignments.foldl (reportError now p report) u
  pure (current.elim v fun p => v.complete now n (some (report,p)))

def report (s : State) (now : Nat) (n : NodeId) (report : Report) : Except Error State :=
  match s.nodes.lookup n with
  | none => .error .sessionSuperseded
  | some row => do
    reject (report.nodeId≠n ∨ report.sessionEpoch≠row.sessionEpoch) .authorizationDenied
    reject (¬s.nodeAuthorized now n) .authorizationDenied
    reject (row.bootId≠some report.bootId) .sessionSuperseded
    match s.reports.lookup (n,row.sessionEpoch,report.reportSequence) with
    | some prior =>
      reject (prior≠report) .integrityFailure
      pure s
    | none => s.takeReport now n row report

end State

end TuneX.Control
