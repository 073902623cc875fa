import TuneX.Control.Ledger

namespace TuneX.Control

open Framework

inductive PathRole
  | ingress
  | transit
  | egress
  deriving DecidableEq, Repr

def PathRole.relay : PathRole→Role
  | .ingress => .relayIngress
  | _ => .relayEgress

def PathRole.multihop : PathRole→Role
  | .ingress => .multihopIngress
  | .transit => .multihopTransit
  | .egress => .multihopEgress

def multihopRole : Role→Bool
  | .multihopIngress | .multihopTransit | .multihopEgress => true
  | _ => false

/-- The role of the Node at an index of a path with `count` Nodes. -/
def pathRole (count index : Nat) : PathRole :=
  if index=0 then .ingress else if index+1=count then .egress else .transit

structure Peer where
  fingerprint : Fingerprint
  validUntil : Nat
  deriving DecidableEq, Repr

structure ExecutionFacts where
  nodeId : NodeId
  facts : NodeFacts
  capabilities : List Capability
  sessionEpoch : Nat
  credentialUntil : Nat
  peers : List Peer

structure RelayResource where
  nodeId : NodeId
  role : PathRole
  forwardProtocol : Protocol
  physicalProtocol : Protocol
  address : Address
  port : Nat
  deriving DecidableEq, Repr

def RelayResource.key (r : RelayResource) : SlotKey := ⟨r.nodeId,r.physicalProtocol,r.port⟩

structure Reserved where
  resource : RelayResource
  bindingFence : Nat
  deriving DecidableEq, Repr

/-- The path facts a plan is compiled from. -/
structure PlanInput where
  nodes : List ExecutionFacts
  endpoints : List (NodeId×ResolvedEndpoint)
  ports : List (NodeId×Protocol×Nat)
  profile : List Protocol

namespace State

/-- A Node that is neither revoked nor past its credential. -/
def nodeAuthorized (s : State) (now : Nat) (n : NodeId) : Bool :=
  !s.world.revoked n && now<s.world.credentialUntil n

def relayCredentialFacts (s : State) (now : Nat) (n : NodeId) (currentOnly : Bool) :
    Option (List Peer) :=
  let credentials := (s.world.relayCredentials n).filter fun c =>
    now<c.validUntil && !(currentOnly && c.retiring)
  if s.nodeAuthorized now n && 1 ≤ credentials.length && credentials.length≤2 then
    some (credentials.map fun c => ⟨c.fingerprint,min c.validUntil (s.world.credentialUntil n)⟩)
  else none

def executionFacts (s : State) (now : Nat) (actor : ActorId) (scope : ScopeId) (n : NodeId) :
    Option ExecutionFacts := do
  let row ← s.nodes.lookup n
  let peers ← s.relayCredentialFacts now n true
  if s.world.executing actor scope && (s.world.facts n).scopeId=scope && s.world.granted n actor &&
    s.nodeAuthorized now n && row.sessionEpoch≠0 then
    some ⟨n,s.world.facts n,row.capabilities,row.sessionEpoch,s.world.credentialUntil n,peers⟩
  else none

/-- Facts of every Node of the path, or nothing when one is not usable. -/
def facts (s : State) (now : Nat) (actor : ActorId) (f : Forward) : Option (List ExecutionFacts) :=
  if f.spec.via.isEmpty || f.spec.transport.isNone ||
    (1<f.spec.via.length && !s.world.multihopEnabled) then none
  else f.spec.path.mapM (s.executionFacts now actor f.scopeId)

/-- The first port of a list that is unused here and, for a reservation, free or its own. -/
def choosePort (s : State) (own : Option ForwardId) (n : NodeId) (used candidates : List Nat) :
    Option Nat :=
  candidates.find? fun port => !used.contains port && match own with
    | none => true
    | some f => (s.slot ⟨n,.tcp,port⟩).owner=none || (s.slot ⟨n,.tcp,port⟩).owner=some f

def choosePorts (s : State) (own : Option ForwardId) (n : NodeId) (preferred : Protocol→Option Nat)
    (allowed : List Nat) : List Nat→List Protocol→Option (List (NodeId×Protocol×Nat))
  | _,[] => some []
  | used,p::rest => do
    let candidates := ((preferred p).toList.filter allowed.contains)++allowed
    let port ← s.choosePort own n used candidates
    let tail ← choosePorts s own n preferred allowed (port::used) rest
    some ((n,p,port)::tail)

def preferredPort (previous : Option Plan) (multihop : Bool) (n : NodeId) (p : Protocol) :
    Option Nat := do
  let plan ← previous
  let node ← plan.nodes.find? fun node => node.nodeId=n
  let a ← node.assignments.find? fun a => a.protocol=p && (multihop || a.role=.relayEgress)
  some a.resource.port

def planInput (s : State) (now : Nat) (actor : ActorId) (f : Forward) (previous : Option Plan)
    (own : Option ForwardId) : Option PlanInput := do
  let nodes ← s.facts now actor f
  let reference ← f.spec.transport
  let profile ← s.world.profile actor f.scopeId reference
  let endpoints ← f.spec.via.mapM fun n => (s.world.endpoint n).map fun e => (n,e)
  let ports ← endpoints.mapM fun e =>
    s.choosePorts own e.1 (preferredPort previous (1<f.spec.via.length) e.1) e.2.allowedTcpPorts []
      f.spec.protocols
  some ⟨nodes,endpoints,ports.flatten,profile⟩

end State

def PlanInput.node (i : PlanInput) (n : NodeId) : Option ExecutionFacts :=
  i.nodes.find? fun e => e.nodeId=n

def PlanInput.endpoint (i : PlanInput) (n : NodeId) : Option ResolvedEndpoint :=
  (i.endpoints.find? fun e => e.1=n).map (·.2)

def PlanInput.port (i : PlanInput) (n : NodeId) (p : Protocol) : Option Nat :=
  (i.ports.find? fun e => e.1=n && e.2.1=p).map (·.2.2)

/-- The host the Node at an index dials: the next endpoint, or the target from the last Node. -/
def dialHost (f : Forward) (i : PlanInput) (index : Nat) : Option Host :=
  match f.spec.path[index+1]? with
  | none => some f.spec.target.host
  | some n => (i.endpoint n).map (·.advertisedHost)

def hopAllowed (required : List Capability) (f : Forward) (i : PlanInput) (index : Nat)
    (n : NodeId) : Bool :=
  match i.node n,dialHost f i index with
  | some e,some host =>
    (required++f.spec.protocols.map Capability.transport).all e.capabilities.contains &&
      (index≠0 || (e.facts.allowedListenerAddresses.contains f.spec.address &&
        e.facts.allowedPorts.contains f.spec.port)) &&
      e.facts.targetAllowed host
  | _,_ => false

def hopResource (f : Forward) (i : PlanInput) (index : Nat) (n : NodeId) (p : Protocol) :
    Option RelayResource :=
  if index=0 then some ⟨n,.ingress,p,p,f.spec.address,f.spec.port⟩ else do
    let e ← i.endpoint n
    let port ← i.port n p
    some ⟨n,pathRole f.spec.path.length index,p,.tcp,e.listenAddress,port⟩

/-- The sockets of a path, each with its own physical resource. -/
def compileResources (required : List Capability) (f : Forward) (i : PlanInput) :
    Option (List RelayResource) := do
  let hops := f.spec.path.zipIdx.map fun h => (h.2,h.1)
  let resources ← hops.mapM fun h => f.spec.protocols.mapM (hopResource f i h.1 h.2)
  if f.spec.protocols.all i.profile.contains && hops.all (fun h => hopAllowed required f i h.1 h.2) &&
    decide (resources.flatten.map RelayResource.key).Nodup then some resources.flatten else none

def compileRelayResources (f : Forward) (i : PlanInput) : Option (List RelayResource) :=
  if f.spec.path.length=2 then compileResources [.nativeRelay,.adp3,.relayWire] f i else none

def compileMultihopResources (f : Forward) (i : PlanInput) : Option (List RelayResource) :=
  if 3≤f.spec.path.length ∧ f.spec.path.length ≤ maxPlannedPathNodes then
    compileResources [.adp3,.multihopExecution,.nativeMultihop,.multihopWire] f i else none

def compilePathResources (f : Forward) (i : PlanInput) : Option (List RelayResource) :=
  if 1<f.spec.via.length then compileMultihopResources f i else compileRelayResources f i

/-- The credential a multi-hop plan pins: the one that lasts longest. -/
def ExecutionFacts.pin (e : ExecutionFacts) (now : Nat) : Option Peer :=
  first (fun a b => b.validUntil<a.validUntil || (b.validUntil=a.validUntil && a.fingerprint≤b.fingerprint))
    (e.peers.filter fun p => now<p.validUntil)

def reservation (reserved : List Reserved) (n : NodeId) (p : Protocol) : Option Reserved :=
  reserved.find? fun r => r.resource.nodeId=n && r.resource.forwardProtocol=p

def planAssignment (f : Forward) (generation : Nat) (role : Role) (n : NodeId) (p : Protocol)
    (r : Reserved) (config : Config) : Assignment where
  assignmentId := ⟨n,f.id,p,role⟩
  forwardId := f.id
  forwardRevision := f.revision
  deploymentGeneration := generation
  bindingFence := r.bindingFence
  role := role
  protocol := p
  phase := .prepared
  resource := ⟨r.resource.address,r.resource.port,r.resource.physicalProtocol⟩
  config := config
  drainTimeoutSeconds := drainTimeoutSeconds

def relayConfig (f : Forward) (i : PlanInput) (index : Nat) (reference : ProfileRef)
    (reserved : List Reserved) (p : Protocol) : Option Config := do
  let n ← f.spec.path[index]?
  let peer ← f.spec.path[1-index]?
  let facts ← i.node n
  let peerFacts ← i.node peer
  let dial ← if index=0 then do
      let e ← i.endpoint peer
      let r ← reservation reserved peer p
      some ⟨e.advertisedHost,r.resource.port⟩
    else some f.spec.target
  some (.relay peer (peerFacts.peers.map (·.fingerprint)) reference facts.facts.policy dial)

def hopNode (now : Nat) (i : PlanInput) (reserved : List Reserved) (p : Protocol) (n : NodeId) :
    Option HopNode := do
  let e ← i.node n
  let pin ← e.pin now
  let r ← reservation reserved n p
  some ⟨n,e.sessionEpoch,r.bindingFence,pin.fingerprint,r.resource.port⟩

def multihopConfig (now : Nat) (f : Forward) (i : PlanInput) (index : Nat) (reference : ProfileRef)
    (reserved : List Reserved) (p : Protocol) : Option Config := do
  let n ← f.spec.path[index]?
  let facts ← i.node n
  let path ← f.spec.path.mapM (hopNode now i reserved p)
  some (.multihop path index reference facts.facts.policy f.spec.target)

def hopConfig (now : Nat) (f : Forward) (i : PlanInput) (index : Nat) (reference : ProfileRef)
    (reserved : List Reserved) (p : Protocol) : Option Config :=
  if 1<f.spec.via.length then multihopConfig now f i index reference reserved p
  else relayConfig f i index reference reserved p

def hopRole (f : Forward) (index : Nat) : Role :=
  let role := pathRole f.spec.path.length index
  if 1<f.spec.via.length then role.multihop else role.relay

def planNode (now : Nat) (f : Forward) (generation : Nat) (i : PlanInput) (reference : ProfileRef)
    (reserved : List Reserved) (index : Nat) (n : NodeId) : Option PlanNode := do
  let e ← i.node n
  let assignments ← f.spec.protocols.mapM fun p => do
    let r ← reservation reserved n p
    let config ← hopConfig now f i index reference reserved p
    some (planAssignment f generation (hopRole f index) n p r config)
  some ⟨n,e.sessionEpoch,assignments⟩

/-- How long the credentials of a Node bound a plan: a Relay plan takes all of them, a
multi-hop plan the pinned one. -/
def nodeBound (now : Nat) (multihop : Bool) (e : ExecutionFacts) : Nat :=
  ((if multihop then (e.pin now).toList else e.peers).map (·.validUntil)).foldl min e.credentialUntil

def compilePlan (now : Nat) (f : Forward) (generation : Nat) (i : PlanInput)
    (reserved : List Reserved) : Option Plan := do
  let reference ← f.spec.transport
  let nodes ← (f.spec.path.zipIdx).mapM fun h => planNode now f generation i reference reserved h.2 h.1
  let multihop : Bool := 1<f.spec.via.length
  if i.nodes.all fun e => now<e.credentialUntil &&
      decide (e.peers.map (·.fingerprint)).Nodup &&
      (if multihop then (e.pin now).isSome else e.peers.all fun p => now<p.validUntil) then
    some ⟨f.id,f.revision,generation,i.endpoints.map fun e => (e.1,e.2.revision),
      if multihop then some f.spec.path else none,
      (i.nodes.map (nodeBound now multihop)).foldl min maxCounter,nodes⟩
  else none

namespace State

def reserveRelaySlot (f : Forward) (generation : Nat) (acc : State×List Reserved)
    (r : RelayResource) : Except Error (State×List Reserved) := do
  let row := acc.1.slot r.key
  reject (row.owner≠none ∧ row.owner≠some f.id) .portReserved
  reject (row.fence≥maxCounter) .resourceLimit
  pure (acc.1.take f.id r.key generation,acc.2++[⟨r,row.fence+1⟩])

def reserveRelay (s : State) (f : Forward) (resources : List RelayResource) (generation : Nat) :
    Except Error (State×List Reserved) := do
  reject (generation>maxCounter) .resourceLimit
  let t ← resources.foldlM (reserveRelaySlot f generation) (s,[])
  reject (resources.any fun r => t.1.owned r.nodeId>maxAssignmentsPerNode) .resourceLimit
  pure t

/-- The deployment of highest generation. -/
def latestDeployment (s : State) (f : ForwardId) : Option (Nat×Deployment) :=
  first (fun a b => decide (b.1≤a.1))
    ((s.deployments.rows.filter fun r => r.1.1=f).map fun r => (r.1.2,r.2))

def newDeployment (f : Forward) (plan : Plan) : Deployment :=
  ⟨f.revision,f.spec.nodeId,f.spec.path.getLastD 0,.preparing,plan,0,0⟩

def canExecuteRelay (s : State) (now : Nat) (actor : ActorId) (f : Forward) : Bool :=
  ((s.planInput now actor f none none).bind (compilePathResources f)).isSome

def acceptPlan (s : State) (now : Nat) (actor : ActorId) (f : Forward) : Except Error State := do
  let previous := s.latestDeployment f.id
  let generation := max f.revision ((previous.map Prod.fst).getD 0+1)
  reject (generation>maxCounter) .resourceLimit
  match s.planInput now actor f (previous.map (·.2.plan)) (some f.id) with
  | none => .error .authorizationDenied
  | some input =>
    match compilePathResources f input with
    | none => .error .resourceConflict
    | some resources =>
      let t ← s.reserveRelay f resources generation
      match compilePlan now f generation input t.2 with
      | none => .error .authorizationDenied
      | some plan =>
        pure { t.1 with
          deployments := t.1.deployments.insert (f.id,generation) (newDeployment f plan) }

end State

end TuneX.Control
