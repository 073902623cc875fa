import TuneX.Framework.Run
import TuneX.Framework.Table
import TuneX.Agent.Validate
import Mathlib.Data.List.TakeDrop

namespace TuneX.Control.Transit

open Framework
open Agent (counterOk)

inductive Protocol
  | tcp
  | udp
  deriving DecidableEq, Repr

inductive HopRole
  | ingress
  | transit
  | egress
  deriving DecidableEq, Repr

structure TransitResource where
  nodeId : String
  role : HopRole
  forwardProtocol : Protocol
  physicalProtocol : Protocol
  address : String
  port : Nat
  deriving DecidableEq, Repr

structure HopBinding where
  assignmentId : String
  nodeId : String
  role : HopRole
  protocol : Protocol
  sessionEpoch : Nat
  bindingFence : Nat
  resource : TransitResource
  upstreamNodeId : Option String
  downstreamNodeId : Option String
  deriving DecidableEq, Repr

/-- A plan without its digest; `ι` stands for the intents. -/
structure PlanBody (ι : Type) where
  scopeId : String
  forwardId : String
  forwardRevision : Nat
  deploymentGeneration : Nat
  profileDigest : String
  pathDigest : String
  authorizationUntil : Int
  activationOrder : List String
  assignments : List HopBinding
  intents : List ι

structure TransitPreparation (ι : Type) extends PlanBody ι where
  planDigest : String

inductive StageState
  | reserved
  | aborted
  deriving DecidableEq, Repr

structure TransitStageRow (ι : Type) where
  forwardId : String
  generation : Nat
  targetRevision : Nat
  scopeId : String
  createdBy : String
  state : StageState
  expiresAt : Int
  planDigest : String
  body : TransitPreparation ι
  createdAt : Int

def safe (n : Int) : Bool := decide (-9007199254740991≤n) && decide (n ≤ 9007199254740991)

/-- A binding that `verifyTransitStage` does not accept. -/
def HopBinding.wrong (a : HopBinding) : Bool :=
  !counterOk a.bindingFence || !counterOk a.sessionEpoch || decide (a.resource.nodeId≠a.nodeId) ||
  decide (a.resource.role≠a.role) || decide (a.resource.forwardProtocol≠a.protocol) ||
  if a.role=.ingress then decide (a.resource.physicalProtocol≠a.protocol)
  else decide (a.resource.physicalProtocol≠.tcp)

section
variable {ι : Type}

/-- The nodes of a plan, each once. -/
def PlanBody.nodeIds (p : PlanBody ι) : List String := (p.assignments.map HopBinding.nodeId).dedup

def HopBinding.socket (a : HopBinding) : String×Protocol×Nat :=
  (a.nodeId,a.resource.physicalProtocol,a.resource.port)

def verifyTransitStage (digest : PlanBody ι→String) (row : TransitStageRow ι) :
    Except String (TransitPreparation ι) := do
  let plan := row.body
  reject (counterOk row.generation=false ∨ counterOk row.targetRevision=false ∨
    safe row.expiresAt=false ∨ row.expiresAt ≤ row.createdAt ∨ safe plan.authorizationUntil=false)
    "INTEGRITY_FAILURE"
  reject (plan.planDigest≠row.planDigest ∨ digest plan.toPlanBody≠row.planDigest ∨
    plan.forwardId≠row.forwardId ∨ plan.scopeId≠row.scopeId ∨
    plan.forwardRevision≠row.targetRevision ∨ plan.deploymentGeneration≠row.generation ∨
    plan.authorizationUntil < row.expiresAt) "INTEGRITY_FAILURE"
  let ids := plan.nodeIds
  reject (ids.length<3 ∨ 8 < ids.length ∨ ¬(plan.assignments.map HopBinding.socket).Nodup ∨
    ¬(plan.assignments.map fun a => (a.nodeId,a.protocol)).Nodup ∨
    plan.activationOrder.length≠ids.length ∨ plan.activationOrder.dedup.length≠ids.length ∨
    (∃id∈plan.activationOrder, id∉ids) ∨ ∃a∈plan.assignments, a.wrong) "INTEGRITY_FAILURE"
  pure plan

end

inductive Phase
  | preparing
  | activating
  | compensating
  | sealed
  | quarantined
  deriving DecidableEq, Repr

inductive Action
  | prepare
  | activate
  | withdraw
  deriving DecidableEq, Repr

inductive Condition
  | prepared
  | ready
  | removed
  deriving DecidableEq, Repr

structure CommandAssignment where
  assignmentId : String
  protocol : Protocol
  sessionEpoch : Nat
  bindingFence : Nat
  physicalProtocol : Protocol
  port : Nat
  deriving DecidableEq, Repr

structure CommandBody where
  action : Action
  forwardId : String
  generation : Nat
  planDigest : String
  nodeId : String
  revision : Nat
  assignments : List CommandAssignment
  deriving DecidableEq, Repr

structure OfflineTransitCommand extends CommandBody where
  commandDigest : String
  deriving DecidableEq, Repr

structure Observation where
  assignmentId : String
  sessionEpoch : Nat
  bindingFence : Nat
  deploymentGeneration : Nat
  condition : Condition
  deriving DecidableEq, Repr

structure TransitObservationProof where
  commandDigest : String
  nodeId : String
  action : Action
  reportSequence : Nat
  receivedAt : Int
  assignments : List Observation
  deriving DecidableEq, Repr

structure CoordinationBody where
  forwardId : String
  generation : Nat
  planDigest : String
  phase : Phase
  position : Nat
  revision : Nat
  receiptHighwater : Table String Nat

structure CoordinationRow extends CoordinationBody where
  journalDigest : String

/-- The digests of the journal and of the commands. -/
structure Digests where
  journal : CoordinationBody→String
  command : CommandBody→String

/-- Whether the position lies where the phase puts it. -/
def Phase.misplaced (phase : Phase) (position size : Nat) : Prop :=
  match phase with
  | .sealed | .quarantined => position≠size
  | _ => size≤position

instance (phase : Phase) (position size : Nat) : Decidable (phase.misplaced position size) :=
  match phase with
  | .sealed | .quarantined => inferInstanceAs (Decidable (position≠size))
  | .preparing | .activating | .compensating => inferInstanceAs (Decidable (size≤position))

section
variable {ι : Type} (digests : Digests)

def bodyOf (row : CoordinationRow) (plan : TransitPreparation ι) :
    Except String CoordinationBody := do
  reject (counterOk row.revision=false ∨ row.planDigest≠plan.planDigest ∨
    row.forwardId≠plan.forwardId ∨ row.generation≠plan.deploymentGeneration ∨
    (∃r∈row.receiptHighwater.rows, r.1∉plan.activationOrder ∨ counterOk r.2=false) ∨
    row.phase.misplaced row.position plan.activationOrder.length ∨
    digests.journal row.toCoordinationBody≠row.journalDigest) "INTEGRITY_FAILURE"
  pure row.toCoordinationBody

def Phase.action : Phase→Action
  | .preparing => .prepare
  | .activating => .activate
  | _ => .withdraw

def Phase.order (phase : Phase) (plan : TransitPreparation ι) : List String :=
  if phase=.compensating then plan.activationOrder.reverse else plan.activationOrder

def commandAssignments (plan : TransitPreparation ι) (nodeId : String) : List CommandAssignment :=
  ((plan.assignments.filter fun a => a.nodeId=nodeId).map fun a =>
    ⟨a.assignmentId,a.protocol,a.sessionEpoch,a.bindingFence,a.resource.physicalProtocol,
      a.resource.port⟩).mergeSort fun a b => decide (a.assignmentId≤b.assignmentId)

def offlineTransitStep (plan : TransitPreparation ι) (body : CoordinationBody) :
    Except String (Option OfflineTransitCommand) :=
  if body.phase=.sealed ∨ body.phase=.quarantined then .ok none
  else
    match (body.phase.order plan)[body.position]? with
    | none => .error "INTEGRITY_FAILURE"
    | some nodeId => do
      let assignments := commandAssignments plan nodeId
      reject (assignments=[]) "INTEGRITY_FAILURE"
      let command : CommandBody := ⟨body.phase.action,plan.forwardId,plan.deploymentGeneration,
        plan.planDigest,nodeId,body.revision,assignments⟩
      pure (some ⟨command,digests.command command⟩)

end

def Action.condition : Action → Condition
  | .prepare => .prepared
  | .activate => .ready
  | .withdraw => .removed

def checkObservations (command : OfflineTransitCommand) :
    List String→List Observation→Except String Unit
  | _,[] => .ok ()
  | reported,o::rest =>
    match command.assignments.find? (·.assignmentId == o.assignmentId) with
    | none => .error "FENCING_REJECTED"
    | some expected => do
      reject (o.assignmentId∈reported ∨ o.sessionEpoch≠expected.sessionEpoch ∨
        o.bindingFence≠expected.bindingFence ∨ o.deploymentGeneration≠command.generation ∨
        o.condition≠command.action.condition) "FENCING_REJECTED"
      checkObservations command (o.assignmentId::reported) rest

def checkProof (command : OfflineTransitCommand) (proof : TransitObservationProof)
    (highwater : Table String Nat) (now : Int) : Except String Unit := do
  reject (proof.nodeId≠command.nodeId ∨ proof.action≠command.action ∨
    proof.commandDigest≠command.commandDigest ∨ counterOk proof.reportSequence=false ∨
    proof.reportSequence≤(highwater.lookup proof.nodeId).getD 0 ∨ safe proof.receivedAt=false ∨
    now+5000<proof.receivedAt ∨ 30000<now-proof.receivedAt ∨
    proof.assignments.length≠command.assignments.length) "FENCING_REJECTED"
  checkObservations command [] proof.assignments

structure SlotRow where
  ownerId : Option String
  fence : Nat
  deploymentGeneration : Nat
  deriving DecidableEq, Repr

/-- What a call brings and what it finds of the other tables. -/
structure Circumstances where
  actor : String
  scopeId : String
  stageState : StageState
  now : Int
  sessions : String→Option Nat
  slots : String×Protocol×Nat→Option SlotRow

/-- The journal of one generation, with the steps confirmed and the proofs accepted so far. -/
structure Journal where
  row : Option CoordinationRow
  confirmed : List (Action×String)
  used : List TransitObservationProof

def Journal.start : Journal := ⟨none,[],[]⟩

section
variable {ι : Type} (digest : PlanBody ι→String) (digests : Digests) (stageRow : TransitStageRow ι)

def stage (c : Circumstances) : Except String (TransitPreparation ι) := do
  reject (counterOk stageRow.generation=false) "INVALID_CONFIG"
  reject (stageRow.scopeId≠c.scopeId) "NOT_FOUND"
  reject (stageRow.createdBy≠c.actor) "AUTHORIZATION_DENIED"
  let plan ← verifyTransitStage digest { stageRow with state := c.stageState }
  reject (c.stageState≠.reserved) "FENCING_REJECTED"
  pure plan

def ownership (c : Circumstances) (plan : TransitPreparation ι) : Except String Unit := do
  reject (∃id∈plan.nodeIds, c.sessions id=none ∨
    ∃a∈plan.assignments, a.nodeId=id ∧ c.sessions id≠some a.sessionEpoch) "SESSION_SUPERSEDED"
  reject (∃a∈plan.assignments, ¬∃slot∈c.slots a.socket, slot.ownerId=some plan.forwardId ∧
    slot.fence=a.bindingFence ∧ slot.deploymentGeneration=plan.deploymentGeneration)
    "FENCING_REJECTED"

def locked (j : Journal) (plan : TransitPreparation ι) : Except String CoordinationBody :=
  match j.row with
  | none => .error "NOT_FOUND"
  | some row => bodyOf digests row plan

/-- The row is locked, so the guards of the update hold. -/
def persist (body : CoordinationBody) (phase : Phase) (position : Nat)
    (receiptHighwater : Table String Nat) : Except String CoordinationRow := do
  reject (Agent.maxCounter≤body.revision) "RESOURCE_LIMIT"
  let next : CoordinationBody := { body with
    phase := phase, position := position, receiptHighwater := receiptHighwater
    revision := body.revision+1 }
  pure ⟨next,digests.journal next⟩

def fresh (c : Circumstances) (plan : TransitPreparation ι) : Except String Unit :=
  reject (stageRow.expiresAt ≤ c.now+5000 ∨ plan.authorizationUntil ≤ c.now+5000) "LEASE_EXPIRED"

/-- The checks of a step that may still start something. -/
def forwardOnly (c : Circumstances) (plan : TransitPreparation ι) (phase : Phase) :
    Except String Unit :=
  if phase=.preparing ∨ phase=.activating then do
    fresh stageRow c plan
    ownership c plan
  else .ok ()

namespace Journal

def begin_ (j : Journal) (c : Circumstances) :
    Except String (Journal×Option OfflineTransitCommand) := do
  let plan ← stage digest stageRow c
  fresh stageRow c plan
  ownership c plan
  reject (j.row.isSome) "RESOURCE_CONFLICT"
  let body : CoordinationBody :=
    ⟨stageRow.forwardId,stageRow.generation,plan.planDigest,.preparing,0,1,∅⟩
  let command ← offlineTransitStep digests plan body
  pure ({ j with row := some ⟨body,digests.journal body⟩ },command)

def peek (j : Journal) (c : Circumstances) :
    Except String (Journal×Option OfflineTransitCommand) := do
  let plan ← stage digest stageRow c
  let body ← locked digests j plan
  forwardOnly stageRow c plan body.phase
  let command ← offlineTransitStep digests plan body
  pure (j,command)

/-- Where the journal stands after the step at `position`. -/
def advance (phase : Phase) (position size : Nat) : Phase×Nat :=
  if position+1=size then
    match phase with
    | .preparing => (.activating,0)
    | .activating => (.sealed,size)
    | _ => (.quarantined,size)
  else (phase,position+1)

/-- `verified` is the answer of the caller's verifier. -/
def confirm (j : Journal) (c : Circumstances) (proof : TransitObservationProof) (verified : Bool) :
    Except String (Journal×Option OfflineTransitCommand) := do
  let plan ← stage digest stageRow c
  let body ← locked digests j plan
  forwardOnly stageRow c plan body.phase
  match ← offlineTransitStep digests plan body with
  | none => .error "FENCING_REJECTED"
  | some command => do
    checkProof command proof body.receiptHighwater c.now
    reject (verified=false) "AUTHORIZATION_DENIED"
    let (phase,position) := advance body.phase body.position plan.activationOrder.length
    let row ← persist digests body phase position
      (body.receiptHighwater.insert proof.nodeId proof.reportSequence)
    let next ← offlineTransitStep digests plan row.toCoordinationBody
    pure (⟨some row,j.confirmed++[(command.action,command.nodeId)],j.used++[proof]⟩,next)

def fail (j : Journal) (c : Circumstances) :
    Except String (Journal×Option OfflineTransitCommand) := do
  let plan ← stage digest stageRow c
  let body ← locked digests j plan
  if body.phase=.quarantined then pure (j,none)
  else if body.phase=.compensating then do
    let command ← offlineTransitStep digests plan body
    pure (j,command)
  else do
    let row ← persist digests body .compensating 0 body.receiptHighwater
    let command ← offlineTransitStep digests plan row.toCoordinationBody
    pure ({ j with row := some row },command)

/-- Recovery as this journal sees it: `others` is what the same transaction meets in the others. -/
def quarantineRecovery (j : Journal) (state : StageState) (others : Except String Unit) :
    Except String (Journal×Option OfflineTransitCommand) := do
  others
  match j.row with
  | none => pure (j,none)
  | some row =>
    if row.phase=.preparing ∨ row.phase=.activating ∨ row.phase=.sealed then do
      let plan ← verifyTransitStage digest { stageRow with state := state }
      let body ← bodyOf digests row plan
      let next ← persist digests body .compensating 0 body.receiptHighwater
      pure ({ j with row := some next },none)
    else pure (j,none)

end Journal

inductive Call
  | begin_ (c : Circumstances)
  | peek (c : Circumstances)
  | confirm (c : Circumstances) (proof : TransitObservationProof) (verified : Bool)
  | fail (c : Circumstances)
  | quarantineRecovery (state : StageState) (others : Except String Unit)

def Journal.step (j : Journal) : Call→Except String (Journal×Option OfflineTransitCommand)
  | .begin_ c => j.begin_ digest digests stageRow c
  | .peek c => j.peek digest digests stageRow c
  | .confirm c proof verified => j.confirm digest digests stageRow c proof verified
  | .fail c => j.fail digest digests stageRow c
  | .quarantineRecovery state others => j.quarantineRecovery digest digests stageRow state others

/-- A call is one transaction: a refused one leaves the journal as it was. -/
def Step (j : Journal) (c : Call) (j' : Journal) : Prop :=
  (∃answer, j.step digest digests stageRow c=.ok (j',answer)) ∨
    (∃e, j.step digest digests stageRow c=.error e) ∧ j'=j

end

end TuneX.Control.Transit
