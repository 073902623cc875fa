import TuneX.Control.Controller
import TuneX.Framework.Run

namespace TuneX.Control

open Framework

/-- The next value of an intent, or the current one when the canonical values agree. -/
def decideForwardChange (current : Forward) (expected : Nat) (spec : Spec) : Except Error Forward := do
  reject (current.revision≠expected) .revisionConflict
  reject (¬spec.valid) .invalidConfig
  if current.spec=spec then pure current else do
    reject (current.revision≥maxCounter) .revisionExhausted
    pure { current with revision := current.revision+1, spec := spec }

namespace State

/-- A direct intent that its Node admits and that compiles. -/
def directAllowed (s : State) (now : Nat) (actor : ActorId) (f : Forward) : Bool :=
  s.canExecuteDirect now actor f && (s.world.facts f.spec.nodeId).policy.revision≠0 &&
    (s.world.facts f.spec.nodeId).policy.cidrs≠[]

def insertForward (s : State) (f : Forward) (actor : ActorId) : State :=
  { s with
    forwards := s.forwards.insert f.id
      ⟨f.scopeId,f.revision,f.spec,some actor,false,false⟩ }

def prepareCreate (s : State) (now : Nat) (actor : ActorId) (f : Forward) : Except Error State :=
  if f.spec.via.isEmpty then do
    reject (¬s.directAllowed now actor f) .authorizationDenied
    let t ← s.reserve f
    pure (t.insertForward f actor)
  else (s.insertForward f actor).acceptPlan now actor f

def create (s : State) (now : Nat) (actor : ActorId) (scope : ScopeId) (id : ForwardId)
    (spec : Spec) : Except Error State := do
  let f : Forward := ⟨id,scope,1,spec⟩
  reject (¬spec.valid) .invalidConfig
  reject (¬s.world.executing actor scope) .authorizationDenied
  reject (s.forwards.lookup id).isSome .resourceConflict
  let t ← s.prepareCreate now actor f
  let u := t.accept now f .create
  u.assertExecutionCapacity now f
  pure u

/-- An intent may leave its Node only when recovery has suspended it and the Node is revoked. -/
def moveAllowed (s : State) (row : ForwardRow) (next : Spec) : Bool :=
  next.nodeId=row.spec.nodeId || (row.recoverySuspended && s.world.revoked row.spec.nodeId)

def replace (s : State) (next : Forward) (actor : ActorId) : State :=
  { s with
    forwards := s.forwards.insert next.id
      ⟨next.scopeId,next.revision,next.spec,some actor,false,false⟩ }

/-- The part of `prepareUpdate` that runs for an unchanged intent too. -/
def updateAllowed (s : State) (now : Nat) (actor : ActorId) (next : Forward) : Bool :=
  if next.spec.via.isEmpty then s.directAllowed now actor next
  else !next.spec.enabled || s.canExecuteRelay now actor next

def prepareUpdate (s : State) (now : Nat) (actor : ActorId) (current next : Forward) :
    Except Error State :=
  if next.spec.via.isEmpty then do
    let t ← s.transition current next
    pure (t.replace next actor)
  else if next.spec.enabled then (s.replace next actor).acceptPlan now actor next
  else pure (s.replace next actor)

def updateKind (current next : Spec) : Kind :=
  if !next.enabled then .disable else if !current.enabled then .enable else .update

def update (s : State) (now : Nat) (actor : ActorId) (id : ForwardId) (expected : Nat)
    (spec : Spec) : Except Error State :=
  match s.forwards.lookup id with
  | none => .error .notFound
  | some row => do
    reject row.deleting .notFound
    reject (¬s.world.executing actor row.scopeId) .authorizationDenied
    let next ← decideForwardChange (row.forward id) expected spec
    reject (¬s.moveAllowed row spec) .unsupportedCapability
    reject (¬s.updateAllowed now actor next) .authorizationDenied
    if next.revision=row.revision then pure s else do
      let t ← s.prepareUpdate now actor (row.forward id) next
      let u := t.accept now next (updateKind row.spec spec)
      u.assertExecutionCapacity now next
      pure u

def markDeleting (s : State) (id : ForwardId) (row : ForwardRow) : State :=
  { s with
    forwards := s.forwards.insert id
      { row with revision := row.revision+1, deleting := true } }

def remove (s : State) (now : Nat) (actor : ActorId) (id : ForwardId) (expected : Nat) :
    Except Error State :=
  match s.forwards.lookup id with
  | none => .error .notFound
  | some row => do
    reject row.deleting .notFound
    reject (¬s.world.executing actor row.scopeId) .authorizationDenied
    reject (row.revision≠expected) .revisionConflict
    reject (row.revision≥maxCounter) .revisionExhausted
    let next : Forward := ⟨id,row.scopeId,row.revision+1,row.spec⟩
    let u := (s.markDeleting id row).accept now next .delete
    u.assertExecutionCapacity now next
    pure u

/-- New reservations for an unchanged intent. -/
def transitionExecution (s : State) (now : Nat) (actor : ActorId) (f : Forward) :
    Except Error State :=
  if f.spec.via.isEmpty then s.transition f f else s.acceptPlan now actor f

def transitionFor (s : State) (now : Nat) (f : Forward) : Option ActorId→Except Error State
  | none => .ok s
  | some actor => s.transitionExecution now actor f

def setAuthorizer (s : State) (id : ForwardId) (actor : ActorId) : State :=
  { s with forwards := s.forwards.alter fun k r =>
      if k=id then { r with authorizer := some actor } else r }

def retry (s : State) (now : Nat) (actor : ActorId) (operation expected : Nat) :
    Except Error State :=
  match s.operations.find? fun o => o.id=operation with
  | none => .error .notFound
  | some op => match s.forwards.lookup op.forwardId with
    | none => .error .notFound
    | some row => do
      let f := row.forward op.forwardId
      reject row.deleting .notFound
      reject (¬s.world.executing actor row.scopeId) .authorizationDenied
      reject (op.recoveryInvalidated ∨ row.revision≠expected ∨ op.targetRevision≠row.revision)
        .operationSuperseded
      reject (op.status≠.failed) .operationNotRetryable
      reject (row.spec.via.isEmpty ∧ ¬s.canExecuteDirect now actor f) .authorizationDenied
      let t ← s.transitionFor now f (if row.spec.enabled then some actor else none)
      let u := (t.setAuthorizer op.forwardId actor).accept now f .retry
      u.assertExecutionCapacity now f
      pure u

/-- The part of an access, grant or policy change that concerns one intent: it runs on under new
reservations, or it is stopped, at once when the change denies it. -/
def reauthorize (s : State) (now : Nat) (id : ForwardId) (allowed denied : Bool) :
    Except Error State :=
  match s.forwards.lookup id with
  | none => .error .notFound
  | some row => do
    let f := row.forward id
    let granted := row.authorizer.filter fun _ => allowed
    reject row.deleting .notFound
    let t ← s.transitionFor now f (granted.filter fun _ => row.spec.enabled)
    let u := t.accept now f (if granted.isSome then .policy else .revoke)
    pure (if denied && granted.isNone then u.denyIntent s.operations.length else u)

def quarantineOne (n : NodeId) (generation : Nat) (s : State) (a : Assignment) : State :=
  match s.latest a.forwardId with
  | none => s
  | some _ =>
    { s with
      retirements := s.retirements.insert (a.instanceOn n)
        (match s.retirements.lookup (a.instanceOn n) with
          | some r => { r with safe := true }
          | none => ⟨a.forwardId,a,none,min maxCounter (generation+1),true⟩) }

def quarantineNode (s : State) (r : NodeId×RuntimeNode) : State :=
  match s.snapshots.lookup (r.1,r.2.snapshotGeneration) with
  | none => s
  | some p => p.assignments.foldl (quarantineOne r.1 p.snapshotGeneration) s

def quarantineRecovery (s : State) : State :=
  let t : State := { s with
    world := { s.world with revoked := fun _ => true }
    operations := s.operations.map fun o => { o with recoveryInvalidated := true, claim := none }
    retirements := s.retirements.alter fun _ r => { r with safe := true }
    nodes := s.nodes.alter fun _ r => { r with lastReport := none, receivedAt := none }
    deployments := s.deployments.alter fun _ d => { d with stage := .withdrawn }
    forwards := s.forwards.alter fun _ r => { r with recoverySuspended := true } }
  t.nodes.rows.foldl quarantineNode t

end State

/-- The parts of the transactions of Control. A transaction is a sequence of them at one time:
a publication lets the deployments of the Node take their turn and then issues. -/
inductive Event
  | administer (w : World)
  | provision (n : NodeId)
  | hello (n : NodeId) (boot : Nat) (capabilities : List Capability) (lastStored : Nat)
  | create (actor : ActorId) (scope : ScopeId) (id : ForwardId) (spec : Spec)
  | update (actor : ActorId) (id : ForwardId) (expected : Nat) (spec : Spec)
  | remove (actor : ActorId) (id : ForwardId) (expected : Nat)
  | retry (actor : ActorId) (operation expected : Nat)
  | reauthorize (id : ForwardId) (allowed denied : Bool)
  | expire
  | claim (operation token : Nat)
  | advance (f : ForwardId)
  | issue (n : NodeId) (awaiting : Bool) (claim : Option (Nat×Claim)) (credential : Option Nat)
  | complete (n : NodeId)
  | report (n : NodeId) (report : Report)
  | quarantine

def apply (s : State) (now : Nat) : Event→Except Error State
  | .administer w => .ok { s with world := w }
  | .provision n => s.provision n
  | .hello n boot capabilities lastStored => s.hello now n boot capabilities lastStored
  | .create actor scope id spec => s.create now actor scope id spec
  | .update actor id expected spec => s.update now actor id expected spec
  | .remove actor id expected => s.remove now actor id expected
  | .retry actor operation expected => s.retry now actor operation expected
  | .reauthorize id allowed denied => s.reauthorize now id allowed denied
  | .expire => .ok (s.expire now)
  | .claim operation token => s.claim now operation token
  | .advance f => s.advance now f
  | .issue n awaiting claim credential => s.issue now n awaiting claim credential
  | .complete n => .ok (s.complete now n none)
  | .report n report => s.report now n report
  | .quarantine => .ok s.quarantineRecovery

/-- A committed part of a transaction; its time need not be later than the one before it. -/
def Step (s : State) (e : Nat×Event) (t : State) : Prop :=
  apply { s with clock := e.1 } e.1 e.2=.ok t

/-- The step as a function. -/
def perform (s : State) (e : Nat×Event) : Option State :=
  (apply { s with clock := e.1 } e.1 e.2).toOption

theorem perform_some {s t : State} {e : Nat×Event} (h : perform s e=some t) : Step s e t :=
  (toOption_ok _ _).mp h

def performs (s : State) (l : List (Nat×Event)) : Option State := l.foldlM perform s

theorem run_performs {s t : State} {l : List (Nat×Event)} (h : performs s l=some t) :
    Run Step s l t :=
  .of_foldlM (fun _ _ _ => perform_some) h

end TuneX.Control
