namespace TuneX.Agent

inductive Protocol
  | tcp
  | udp
  deriving DecidableEq, Repr

inductive Phase
  | prepared
  | active
  | draining
  deriving DecidableEq, Repr

inductive Role
  | direct
  | relayIngress
  | relayEgress
  | multihopIngress
  | multihopTransit
  | multihopEgress
  deriving DecidableEq, Repr

inductive DriverId
  | direct
  | relay
  | multihop
  deriving DecidableEq, Repr

/-- A physical socket of one Node; a journal map writes it as the text `protocol/port`. -/
structure Slot where
  protocol : Protocol
  port : Nat
  deriving DecidableEq, Repr

instance : LawfulBEq (Slot×Nat) := inferInstance

structure Resource where
  address : String
  port : Nat
  protocol : Protocol
  deriving DecidableEq, Repr

def Resource.slot (r : Resource) : Slot := ⟨r.protocol,r.port⟩

structure Target where
  host : String
  port : Nat
  deriving DecidableEq, Repr

structure DirectConfig where
  target : Target
  egressPolicyRevision : Nat
  allowMetadataTargets : Bool
  allowedDestinationCidrs : List String
  deriving DecidableEq, Repr

structure Binding where
  scopeId : String
  forwardId : String
  ingressNodeId : String
  egressNodeId : String
  ingressAssignmentId : String
  egressAssignmentId : String
  profileId : String
  forwardRevision : Nat
  deploymentGeneration : Nat
  ingressSessionEpoch : Nat
  egressSessionEpoch : Nat
  ingressFence : Nat
  egressFence : Nat
  profileRevision : Nat
  profileDigest : String
  deriving DecidableEq, Repr

structure ProfileConfig where
  driver : String
  wireVersion : Nat
  security : String
  protocols : List Protocol
  handshakeTimeoutSeconds : Nat
  idleTimeoutSeconds : Nat
  maxFrameBytes : Nat
  maxUdpDatagramBytes : Nat
  maxConnectionsPerNode : Nat
  deriving DecidableEq, Repr

structure RelayConfig where
  role : Role
  binding : Binding
  profile : ProfileConfig
  peerFingerprints : List String
  peerEndpoint : Option Target
  target : Option Target
  egressPolicyRevision : Nat
  allowMetadataTargets : Bool
  allowedDestinationCidrs : List String
  deriving DecidableEq, Repr

structure HopNode where
  nodeId : String
  assignmentId : String
  sessionEpoch : Nat
  bindingFence : Nat
  peerFingerprint : String
  listenAddress : String
  host : String
  port : Nat
  deriving DecidableEq, Repr

structure HopConfig where
  scopeId : String
  forwardId : String
  forwardRevision : Nat
  deploymentGeneration : Nat
  profileId : String
  profileRevision : Nat
  profileDigest : String
  pathDigest : String
  protocol : Protocol
  hopIndex : Nat
  path : List HopNode
  profile : ProfileConfig
  target : Target
  egressPolicyRevision : Nat
  allowedDestinationCidrs : List String
  allowMetadataTargets : Bool
  deriving DecidableEq, Repr

/-- The optional fields of the wire object, by the three shapes its schema admits. -/
inductive RuntimeConfig
  | direct (config : DirectConfig)
  | relay (config : RelayConfig)
  | multihop (hop : HopConfig)
  deriving DecidableEq, Repr

structure Driver where
  id : DriverId
  schemaVersion : Nat
  configDigest : String
  config : RuntimeConfig
  deriving DecidableEq, Repr

structure Assignment where
  assignmentId : String
  forwardId : String
  forwardRevision : Nat
  deploymentGeneration : Nat
  bindingFence : Nat
  role : Role
  protocol : Protocol
  phase : Phase
  driver : Driver
  drainTimeoutSeconds : Nat
  resource : Resource
  deriving DecidableEq, Repr

structure Tombstone where
  assignmentId : String
  forwardId : String
  protocol : Protocol
  port : Nat
  bindingFence : Nat
  retirementGeneration : Nat
  physicalProtocol : Protocol
  role : Role
  deriving DecidableEq, Repr

structure Snapshot where
  protocolVersion : Nat
  nodeId : String
  sessionEpoch : Nat
  snapshotGeneration : Nat
  complete : Bool
  issuedAt : String
  validUntil : String
  snapshotDigest : String
  assignments : List Assignment
  tombstones : List Tombstone
  executionExtension : Option Nat
  deriving DecidableEq, Repr

def Assignment.slot (a : Assignment) : Slot := a.resource.slot

def Tombstone.slot (t : Tombstone) : Slot := ⟨t.physicalProtocol,t.port⟩

/-- The signed content of a snapshot: everything but its own digest. -/
def Snapshot.body (s : Snapshot) : Snapshot := {s with snapshotDigest := ""}

/-- The values the Agent hashes through canonical JSON. -/
inductive Document
  | snapshot (body : Snapshot)
  | config (config : RuntimeConfig)
  | profile (profile : ProfileConfig)
  | hopPath (scopeId forwardId : String) (forwardRevision deploymentGeneration : Nat)
      (profileId : String) (profileRevision : Nat) (profileDigest : String)
      (protocol : Protocol) (path : List HopNode) (target : Target)
  | binding (binding : Binding)
  | wire (binding : Binding) (pathDigest : String)

/-- A parsed IP address: its zone, whether it is unspecified once unmapped, and its
canonical text. -/
structure Addr where
  zone : String
  unspecified : Bool
  text : String

structure Prefix where
  masked : Bool
  zone : String

/-- The libraries the validators call: canonical JSON with SHA-256, the JSON Schema
formats, `net/netip` and RFC 3339 parsing. -/
structure Library where
  digest : Document→String
  ipFormat : String→Bool
  dateTime : String→Bool
  parseAddr : String→Option Addr
  parsePrefix : String→Option Prefix
  /-- Unix seconds and the fraction digits without trailing zeros. -/
  utcInstant : String→Option (Int×List Char)

def maxCounter : Nat := 9007199254740991

end TuneX.Agent
