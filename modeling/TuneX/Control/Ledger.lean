import TuneX.Control.Schema

namespace TuneX.Control

open Framework

def Spec.slotKey (p : Spec) (protocol : Protocol) : SlotKey := ⟨p.nodeId,protocol,p.port⟩

def Operation.current (o : Operation) : Bool := o.status=.accepted || o.status=.running

/-- Order of `target_revision DESC, created_at DESC, id DESC`. -/
def Operation.latestFirst (a b : Operation) : Bool :=
  b.targetRevision<a.targetRevision || (b.targetRevision=a.targetRevision &&
    (b.createdAt<a.createdAt || (b.createdAt=a.createdAt && b.id≤a.id)))

/-- Order of `created_at DESC, id DESC`. -/
def Operation.newestFirst (a b : Operation) : Bool :=
  b.createdAt<a.createdAt || (b.createdAt=a.createdAt && b.id≤a.id)

/-- An Operation that may still be published from. -/
def Operation.live (o : Operation) (now : Nat) (includeAccepted : Bool) : Bool :=
  o.status=.succeeded || ((o.status=.running || (includeAccepted && o.status=.accepted)) &&
    now<o.executionDeadline)

def Operation.claimable (now : Nat) (o : Operation) : Bool :=
  !o.recoveryInvalidated && o.current && ((o.claim.map (·.claimUntil)).getD 0≤now) &&
    now<o.executionDeadline

namespace State

/-- A slot row; the insert before every read creates the free default. -/
def slot (s : State) (k : SlotKey) : SlotRow := (s.slots.lookup k).getD ⟨none,0,0⟩

def owned (s : State) (n : NodeId) : Nat :=
  s.slots.rows.countP fun r => r.1.node=n && r.2.owner.isSome

def updateOperations (s : State) (p : Operation→Bool) (g : Operation→Operation) : State :=
  { s with operations := s.operations.map fun o => if p o then g o else o }

def latest (s : State) (f : ForwardId) : Option Operation :=
  first Operation.latestFirst (s.operations.filter fun o => o.forwardId=f)

def newestFor (s : State) (f : ForwardId) (revision : Nat) : Option Operation :=
  first Operation.newestFirst (s.operations.filter fun o => o.forwardId=f && o.targetRevision=revision)

def latestSnapshot (s : State) (n : NodeId) : Option Snapshot :=
  first (fun a b => decide (b.snapshotGeneration≤a.snapshotGeneration))
    ((s.snapshots.rows.filter fun r => r.1.1=n).map Prod.snd)

def take (s : State) (owner : ForwardId) (k : SlotKey) (generation : Nat) : State :=
  { s with slots := s.slots.insert k ⟨some owner,(s.slot k).fence+1,generation⟩ }

def reserveSlot (f : Forward) (s : State) (protocol : Protocol) : Except Error State := do
  let k := f.spec.slotKey protocol
  reject ((s.slot k).owner≠none) .portReserved
  reject ((s.slot k).fence≥maxCounter) .resourceLimit
  pure (s.take f.id k 1)

def reserve (s : State) (f : Forward) : Except Error State := do
  let t ← f.spec.protocols.foldlM (reserveSlot f) s
  reject (t.owned f.spec.nodeId>maxAssignmentsPerNode) .resourceLimit
  pure t

def ownedGenerations (s : State) (n : NodeId) (f : ForwardId) : List Nat :=
  (s.slots.rows.filter fun r => r.1.node=n && r.2.owner=some f).map fun r => r.2.generation

def nextGeneration (revision current : Nat) (owned : List Nat) : Nat :=
  owned.foldl (fun m g => max m (g+1)) (max revision (current+1))

def transitionSlot (next : Forward) (generations : List Nat) (s : State) (protocol : Protocol) :
    Except Error State := do
  let k := next.spec.slotKey protocol
  let row := s.slot k
  reject (row.owner≠none ∧ row.owner≠some next.id) .portReserved
  reject (row.fence≥maxCounter) .resourceLimit
  let generation := nextGeneration next.revision row.generation generations
  reject (generation>maxCounter) .resourceLimit
  pure (s.take next.id k generation)

/-- The slots of the earlier intent stay owned until the new one is reported ready. -/
def transition (s : State) (current next : Forward) : Except Error State :=
  next.spec.protocols.foldlM (transitionSlot next (s.ownedGenerations current.spec.nodeId current.id)) s

/-- Free the slots of a Forward outside a set to keep. -/
def release (s : State) (f : ForwardId) (keep : SlotKey→Bool) : State :=
  { s with slots := s.slots.alter fun k r =>
      if r.owner=some f && !keep k then { r with owner := none } else r }

def releaseForwardSlots (s : State) (f : ForwardId) : State := s.release f fun _ => false

def releaseObsoleteSlots (s : State) (f : Forward) : State :=
  s.release f.id fun k =>
    k.node=f.spec.nodeId && k.port=f.spec.port && f.spec.protocols.contains k.protocol

def accept (s : State) (now : Nat) (f : Forward) (kind : Kind) : State :=
  let created := max now (((s.latest f.id).map (·.createdAt)).getD 0+1)
  let superseded := s.updateOperations (fun o => o.forwardId=f.id && o.current)
    fun o => { o with status := .superseded, claim := none }
  { superseded with operations := {
      id := s.operations.length
      forwardId := f.id
      targetRevision := f.revision
      kind := kind
      status := .accepted
      executionDeadline := created+600000
      claim := none
      cleanupPending := false
      createdAt := created
      recoveryInvalidated := false } :: superseded.operations }

def expire (s : State) (now : Nat) : State :=
  s.updateOperations (fun o => !o.recoveryInvalidated && o.current && o.executionDeadline≤now)
    fun o => { o with status := .failed, cleanupPending := true, claim := none }

/-- A claimable Operation starts to run. Rows that another transaction has locked are skipped, so
it need not be the oldest. -/
def claim (s : State) (now id token : Nat) : Except Error State := do
  let t := s.expire now
  reject (¬t.operations.any fun o => o.id=id && o.claimable now) .notFound
  pure (t.updateOperations (fun o => o.id=id)
    fun o => { o with status := .running, claim := some ⟨token,now+15000⟩ })

def denyIntent (s : State) (id : Nat) : State :=
  s.updateOperations (fun o => o.id=id && o.status=.accepted)
    fun o => { o with status := .failed, cleanupPending := true }

def safelyRetired (s : State) (i : Instance) : Bool :=
  ((s.retirements.lookup i).map (·.safe)).getD false

def unsafeRetirements (s : State) (f : ForwardId) : Bool :=
  s.retirements.rows.any fun r => r.2.forwardId=f && !r.2.safe

def unsafeLeases (s : State) (f : ForwardId) : Bool :=
  s.leases.rows.any fun l => l.2.forwardId=f && !s.safelyRetired l.1.instanceKey

def retire (s : State) (i : Instance) (r : Retirement) : State :=
  if (s.retirements.lookup i).isSome then s else { s with retirements := s.retirements.insert i r }

def retireOne (n : NodeId) (next : List Assignment) (generation : Nat) (s : State)
    (old : Assignment) : Except Error State :=
  if next.any fun a => a.instanceOn n=old.instanceOn n then .ok s else
    match s.latest old.forwardId with
    | none => .error .missingRetirementOwner
    | some op =>
      .ok ((s.retire (old.instanceOn n) ⟨old.forwardId,old,none,generation,false⟩).updateOperations
        (fun o => o.id=op.id) fun o => { o with cleanupPending := true })

def retireChanged (s : State) (n : NodeId) (previous : Option Snapshot) (next : List Assignment)
    (generation : Nat) : Except Error State :=
  ((previous.map (·.assignments)).getD []).foldlM (retireOne n next generation) s

def recordLease (n : NodeId) (epoch validUntil : Nat) (s : State) (a : Assignment) : State :=
  let key : LeaseKey := ⟨a.instanceOn n,epoch⟩
  let lease : Lease := match s.leases.lookup key with
    | none => ⟨a.forwardId,validUntil⟩
    | some l => { l with validUntil := max l.validUntil validUntil }
  { s with leases := s.leases.insert key lease }

def recordLeases (s : State) (snapshot : Snapshot) : State :=
  snapshot.assignments.foldl (recordLease snapshot.nodeId snapshot.sessionEpoch snapshot.validUntil) s

def previousLeasesSafe (s : State) (now : Nat) (f : ForwardId) (desired : List Instance) : Bool :=
  s.leases.rows.all fun l =>
    !(l.2.forwardId=f && now<l.2.validUntil+5000 && !s.safelyRetired l.1.instanceKey) ||
      desired.contains l.1.instanceKey

def sessionAuthoritySafe (s : State) (now : Nat) (n : NodeId) (epoch : Nat) : Bool :=
  s.leases.rows.all fun l =>
    !(l.1.instanceKey.node=n && l.1.sessionEpoch≠epoch && now<l.2.validUntil+5000 &&
      !s.safelyRetired l.1.instanceKey)

def tombstone (generation : Nat) (r : Retirement) : Tombstone where
  assignmentId := r.body.assignmentId
  forwardId := r.body.forwardId
  role := r.body.role
  protocol := r.body.protocol
  physicalProtocol := r.body.resource.protocol
  port := r.body.resource.port
  bindingFence := r.body.bindingFence
  retirementGeneration := min r.retirementGeneration generation

def tombstones (s : State) (n : NodeId) (generation : Nat) : List Tombstone :=
  (s.retirements.rows.filter fun r => r.1.node=n).map fun r => tombstone generation r.2

def observeDrain (n : NodeId) (epoch accepted : Nat) (s : State) (d : Drain) :
    Except Error State := do
  let i := d.instanceOn n
  match s.retirements.lookup i with
  | none => .error .fencingRejected
  | some r =>
    reject (accepted < r.retirementGeneration) .fencingRejected
    reject (d.condition=.draining ∧
      ¬((s.leases.lookup ⟨i,epoch⟩).any fun l =>
        0<l.validUntil && d.deadline/1000000≤(l.validUntil : Int)))
      .leaseExpired
    pure (if d.condition=.removed ∧ d.remainingConnections=0 then
      { s with retirements := s.retirements.insert i { r with removedEpoch := some epoch } } else s)

def observeDrains (s : State) (n : NodeId) (epoch : Nat) (report : Report) : Except Error State :=
  report.drains.foldlM (observeDrain n epoch report.acceptedSnapshotGeneration) s

/-- A lease of the instance may still be in use. -/
def outstanding (s : State) (now : Nat) (i : Instance) (removedEpoch : Option Nat) : Bool :=
  s.leases.rows.any fun l =>
    l.1.instanceKey=i && now<l.2.validUntil+5000 && removedEpoch≠some l.1.sessionEpoch

def settleRetirements (s : State) (now : Nat) (n : NodeId) : State :=
  { s with retirements := s.retirements.alter fun i r =>
      if i.node=n && !r.safe && !s.outstanding now i r.removedEpoch then { r with safe := true }
      else r }

/-- Every protocol of the intent is published and reported ready. -/
def currentReady (f : Forward) (now : Nat) (op : Operation) (report : Report)
    (snapshot : Snapshot) : Bool :=
  now<op.executionDeadline && now+5000<snapshot.validUntil && f.spec.protocols.all fun p =>
    match snapshot.assignments.find? fun a =>
      a.forwardId=f.id && a.forwardRevision=f.revision && a.protocol=p with
    | none => false
    | some a => report.observations.any fun o =>
        o.instanceOn snapshot.nodeId=a.instanceOn snapshot.nodeId && o.phase=some .active &&
          o.condition=.ready

def settleOperation (s : State) (op : Operation) (dropClaim : Bool) : State :=
  (s.updateOperations (fun o => o.id=op.id) fun o =>
    { o with
      status := if o.status=.running then .succeeded else o.status
      cleanupPending := false
      claim := if dropClaim then none else o.claim }).updateOperations
    (fun o => o.forwardId=op.forwardId && (o.status=.failed || o.status=.superseded))
    fun o => { o with cleanupPending := false }

def completeOperation (now : Nat) (n : NodeId) (observed : Option (Report×Snapshot)) (s : State)
    (op : Operation) : State :=
  match s.forwards.lookup op.forwardId with
  | none => s
  | some row =>
    let f : Forward := ⟨op.forwardId,row.scopeId,row.revision,row.spec⟩
    if !row.spec.via.isEmpty || s.unsafeRetirements f.id then s else
    let stopped := row.deleting || !row.spec.enabled || op.kind=.revoke
    let noCurrentAssignment := (s.latestSnapshot n).any fun p =>
      !p.assignments.any fun a => a.forwardId=f.id
    let idle := noCurrentAssignment && !s.unsafeLeases f.id
    if stopped && idle then
      (if row.deleting then s.releaseForwardSlots f.id else s.releaseObsoleteSlots f).settleOperation
        op false
    else if op.status=.failed && idle then
      (s.releaseObsoleteSlots f).updateOperations (fun o => o.id=op.id)
        fun o => { o with cleanupPending := false }
    else match observed with
      | none => s
      | some (report,snapshot) =>
        if !stopped && currentReady f now op report snapshot && s.previousLeasesSafe now f.id
          ((snapshot.assignments.filter fun a => a.forwardId=f.id).map fun a => a.instanceOn n) then
          (s.releaseObsoleteSlots f).settleOperation op true
        else s

def completable (s : State) (n : NodeId) (o : Operation) : Bool :=
  !o.recoveryInvalidated && (o.status=.running || o.cleanupPending) &&
    (s.forwards.lookup o.forwardId).any fun r => r.revision=o.targetRevision && r.spec.nodeId=n

def complete (s : State) (now : Nat) (n : NodeId) (observed : Option (Report×Snapshot)) : State :=
  let t := s.settleRetirements now n
  (t.operations.filter (t.completable n)).foldl (completeOperation now n observed) t

end State

end TuneX.Control
