import Mathlib.Data.List.Dedup
import TuneX.Framework.Table
import TuneX.Framework.Result
import TuneX.Agent.Snapshot

namespace TuneX.Control

open Framework
export Agent (Protocol Phase Role)

abbrev NodeId := Nat
abbrev ForwardId := Nat
abbrev ActorId := Nat
abbrev ScopeId := Nat
abbrev Host := Nat
abbrev Address := Nat
abbrev Fingerprint := Nat

def maxCounter : Nat := 9007199254740991

def leaseMillis : Nat := 300000
def renewalLeadMillis : Nat := 120000
def maxClockSkewMillis : Nat := 5000
def observationFreshnessMillis : Nat := 30000
def drainTimeoutSeconds : Nat := 30
def maxAssignmentsPerNode : Nat := 1000
def maxPlannedPathNodes : Nat := 8

inductive Error
  | portReserved
  | resourceLimit
  | resourceConflict
  | sessionSuperseded
  | integrityFailure
  | unsupportedCapability
  | authorizationDenied
  | staleClaim
  | staleGeneration
  | fencingRejected
  | leaseExpired
  | invalidConfig
  | revisionConflict
  | templateArchived
  | revisionExhausted
  | operationSuperseded
  | operationNotRetryable
  | notFound
  | missingRelayNode
  | missingRetirementOwner
  | idempotencyConflict
  | recoveryReplayRequiresReview
  deriving DecidableEq, Repr

inductive Capability
  | adp3
  | transport (protocol : Protocol)
  | nativeDirect
  | nativeRelay
  | relayWire
  | multihopExecution
  | nativeMultihop
  | multihopWire
  | other (name : Nat)
  deriving DecidableEq, Repr

structure Target where
  host : Host
  port : Nat
  deriving DecidableEq, Repr

structure ProfileRef where
  profileId : Nat
  configRevision : Nat
  deriving DecidableEq, Repr

/-- The intent of a Forward; an empty path is a direct Forward. -/
structure Spec where
  enabled : Bool
  protocols : List Protocol
  nodeId : NodeId
  address : Address
  port : Nat
  target : Target
  via : List NodeId
  transport : Option ProfileRef
  deriving DecidableEq, Repr

/-- What `parseForwardSpec` accepts. -/
def Spec.valid (s : Spec) : Bool :=
  decide (s.protocols∈([[.tcp],[.udp],[.tcp,.udp]] : List (List Protocol))) &&
    decide (1 ≤ s.port ∧ s.port≤65535 ∧ 1 ≤ s.target.port ∧ s.target.port≤65535) &&
    decide (s.via.Nodup ∧ s.nodeId∉s.via) && (s.via.isEmpty==s.transport.isNone)

def Spec.path (s : Spec) : List NodeId := s.nodeId::s.via

structure Forward where
  id : ForwardId
  scopeId : ScopeId
  revision : Nat
  spec : Spec
  deriving DecidableEq, Repr

structure ForwardRow where
  scopeId : ScopeId
  revision : Nat
  spec : Spec
  authorizer : Option ActorId
  deleting : Bool
  recoverySuspended : Bool
  deriving DecidableEq, Repr

/-- A physical socket of a Node. -/
structure SlotKey where
  node : NodeId
  protocol : Protocol
  port : Nat
  deriving DecidableEq, Repr

structure SlotRow where
  owner : Option ForwardId
  fence : Nat
  generation : Nat
  deriving DecidableEq, Repr

/-- The digest of exactly these four values names an Assignment. -/
structure AssignmentId where
  node : NodeId
  forward : ForwardId
  protocol : Protocol
  role : Role
  deriving DecidableEq, Repr

structure EgressPolicy where
  revision : Nat
  cidrs : List Nat
  metadata : Bool
  deriving DecidableEq, Repr

structure HopNode where
  nodeId : NodeId
  sessionEpoch : Nat
  bindingFence : Nat
  peerFingerprint : Fingerprint
  port : Nat
  deriving DecidableEq, Repr

/-- A driver configuration; it stands for its digest as well. -/
inductive Config
  | direct (target : Target) (policy : EgressPolicy)
  | relay (peer : NodeId) (peerFingerprints : List Fingerprint) (profile : ProfileRef)
      (policy : EgressPolicy) (dial : Target)
  | multihop (path : List HopNode) (hopIndex : Nat) (profile : ProfileRef) (policy : EgressPolicy)
      (target : Target)
  deriving DecidableEq, Repr

structure Resource where
  address : Address
  port : Nat
  protocol : Protocol
  deriving DecidableEq, Repr

structure Assignment where
  assignmentId : AssignmentId
  forwardId : ForwardId
  forwardRevision : Nat
  deploymentGeneration : Nat
  bindingFence : Nat
  role : Role
  protocol : Protocol
  phase : Phase
  resource : Resource
  config : Config
  drainTimeoutSeconds : Nat
  deriving DecidableEq, Repr

/-- An execution instance: the key that leases, retirements and reports share. -/
structure Instance where
  node : NodeId
  assignmentId : AssignmentId
  generation : Nat
  fence : Nat
  deriving DecidableEq, Repr

def Assignment.instanceOn (a : Assignment) (n : NodeId) : Instance :=
  ⟨n,a.assignmentId,a.deploymentGeneration,a.bindingFence⟩

def Assignment.slotOn (a : Assignment) (n : NodeId) : SlotKey :=
  ⟨n,a.resource.protocol,a.resource.port⟩

structure Tombstone where
  assignmentId : AssignmentId
  forwardId : ForwardId
  role : Role
  protocol : Protocol
  physicalProtocol : Protocol
  port : Nat
  bindingFence : Nat
  retirementGeneration : Nat
  deriving DecidableEq, Repr

structure Snapshot where
  nodeId : NodeId
  sessionEpoch : Nat
  snapshotGeneration : Nat
  issuedAt : Nat
  validUntil : Nat
  assignments : List Assignment
  tombstones : List Tombstone
  deriving DecidableEq, Repr

inductive Kind
  | create
  | update
  | enable
  | disable
  | delete
  | retry
  | policy
  | revoke
  deriving DecidableEq, Repr

inductive Status
  | accepted
  | running
  | succeeded
  | failed
  | superseded
  deriving DecidableEq, Repr

structure Claim where
  token : Nat
  claimUntil : Nat
  deriving DecidableEq, Repr

structure Operation where
  id : Nat
  forwardId : ForwardId
  targetRevision : Nat
  kind : Kind
  status : Status
  executionDeadline : Nat
  claim : Option Claim
  cleanupPending : Bool
  createdAt : Nat
  recoveryInvalidated : Bool
  deriving DecidableEq, Repr

structure Retirement where
  forwardId : ForwardId
  body : Assignment
  removedEpoch : Option Nat
  retirementGeneration : Nat
  safe : Bool
  deriving DecidableEq, Repr

structure LeaseKey where
  instanceKey : Instance
  sessionEpoch : Nat
  deriving DecidableEq, Repr

structure Lease where
  forwardId : ForwardId
  validUntil : Nat
  deriving DecidableEq, Repr

structure PlanNode where
  nodeId : NodeId
  sessionEpoch : Nat
  assignments : List Assignment
  deriving DecidableEq, Repr

/-- A prepared Relay plan; only a multi-hop plan carries its path. -/
structure Plan where
  forwardId : ForwardId
  forwardRevision : Nat
  deploymentGeneration : Nat
  endpointRevisions : List (NodeId×Nat)
  path : Option (List NodeId)
  authorizationUntil : Nat
  nodes : List PlanNode
  deriving DecidableEq, Repr

inductive Stage
  | preparing
  | egressActive
  | ingressActive
  | active
  | withdrawn
  deriving DecidableEq, Repr

structure Deployment where
  targetRevision : Nat
  ingressNodeId : NodeId
  egressNodeId : NodeId
  stage : Stage
  plan : Plan
  preparedCount : Nat
  activatedCount : Nat
  deriving DecidableEq, Repr

inductive Condition
  | pending
  | prepared
  | ready
  | degraded
  | error
  | draining
  | removed
  deriving DecidableEq, Repr

/-- The reported phase is `none` for an absent instance. -/
structure Observation where
  assignmentId : AssignmentId
  deploymentGeneration : Nat
  bindingFence : Nat
  phase : Option Phase
  condition : Condition
  errorCode : Option Nat
  retryable : Bool
  deriving DecidableEq, Repr

inductive DrainCondition
  | draining
  | removed
  deriving DecidableEq, Repr

/-- The times that an Agent writes are in nanoseconds. -/
structure Drain where
  assignmentId : AssignmentId
  deploymentGeneration : Nat
  bindingFence : Nat
  startedAt : Int
  deadline : Int
  remainingConnections : Nat
  condition : DrainCondition
  deriving DecidableEq, Repr

structure Report where
  nodeId : NodeId
  bootId : Nat
  sessionEpoch : Nat
  reportSequence : Nat
  observedAt : Int
  acceptedSnapshotGeneration : Nat
  observations : List Observation
  drains : List Drain
  deriving DecidableEq, Repr

def Observation.instanceOn (o : Observation) (n : NodeId) : Instance :=
  ⟨n,o.assignmentId,o.deploymentGeneration,o.bindingFence⟩

def Drain.instanceOn (d : Drain) (n : NodeId) : Instance :=
  ⟨n,d.assignmentId,d.deploymentGeneration,d.bindingFence⟩

structure RuntimeNode where
  sessionEpoch : Nat
  bootId : Option Nat
  snapshotGeneration : Nat
  lastReportSequence : Nat
  lastReport : Option Report
  receivedAt : Option Nat
  capabilities : List Capability
  deriving DecidableEq, Repr

structure NodeFacts where
  scopeId : ScopeId
  allowedListenerAddresses : List Address
  allowedPorts : List Nat
  policy : EgressPolicy
  targetAllowed : Host→Bool

structure RelayCredential where
  fingerprint : Fingerprint
  validUntil : Nat
  retiring : Bool
  deriving DecidableEq, Repr

structure ResolvedEndpoint where
  revision : Nat
  advertisedHost : Host
  listenAddress : Address
  allowedTcpPorts : List Nat
  deriving DecidableEq, Repr

/-- What the identity, Node, transport and endpoint modules hold; Runtime only reads it. -/
structure World where
  executing : ActorId→ScopeId→Bool
  granted : NodeId→ActorId→Bool
  facts : NodeId→NodeFacts
  credentialUntil : NodeId→Nat
  revoked : NodeId→Bool
  relayCredentials : NodeId→List RelayCredential
  profile : ActorId→ScopeId→ProfileRef→Option (List Protocol)
  endpoint : NodeId→Option ResolvedEndpoint
  multihopEnabled : Bool

structure State where
  clock : Nat
  world : World
  slots : Table SlotKey SlotRow
  forwards : Table ForwardId ForwardRow
  operations : List Operation
  deployments : Table (ForwardId×Nat) Deployment
  snapshots : Table (NodeId×Nat) Snapshot
  leases : Table LeaseKey Lease
  retirements : Table Instance Retirement
  nodes : Table NodeId RuntimeNode
  boots : Table (NodeId×Nat) Nat
  reports : Table (NodeId×Nat×Nat) Report

def State.initial (w : World) : State where
  clock := 0
  world := w
  slots := ∅
  forwards := ∅
  operations := []
  deployments := ∅
  snapshots := ∅
  leases := ∅
  retirements := ∅
  nodes := ∅
  boots := ∅
  reports := ∅

end TuneX.Control
