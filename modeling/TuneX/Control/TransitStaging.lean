import TuneX.Control.TransitOrder
import Mathlib.Data.List.Sort

namespace TuneX.Control.Transit

open Framework
open Agent (counterOk digestOk portOk)

structure Forward where
  id : String
  scopeId : String
  revision : Nat
  enabled : Bool
  protocols : List Protocol
  ingressNode : String
  listenAddress : String
  listenPort : Nat
  via : List String
  transport : Option (String×Nat)
  deriving DecidableEq, Repr

namespace Forward

def path (f : Forward) : List String := f.ingressNode::f.via

/-- What `parseForward` asks of these fields. -/
def valid (f : Forward) : Bool :=
  counterOk f.revision && decide (f.protocols∈[[Protocol.tcp],[Protocol.udp],[Protocol.tcp,Protocol.udp]]) &&
    portOk f.listenPort && decide f.path.Nodup && (f.via.isEmpty==f.transport.isNone)

end Forward

structure Hop where
  nodeId : String
  index : Nat
  role : HopRole
  upstreamNodeId : Option String
  downstreamNodeId : Option String
  deriving DecidableEq, Repr

/-- The role on a path of several nodes; a path of one is refused before its role is read. -/
def hopRole (size index : Nat) : HopRole :=
  if index=0 then .ingress else if index+1=size then .egress else .transit

def hops (path : List String) : List Hop :=
  path.mapIdx fun index nodeId => ⟨nodeId,index,hopRole path.length index,
    if index=0 then none else path[index-1]?,path[index+1]?⟩

def compilePathTopology (f : Forward) : Except String (List Hop) := do
  reject (f.valid=false) "INVALID_CONFIG"
  reject (8<f.path.length) "RESOURCE_LIMIT"
  reject (¬f.path.Nodup) "INVALID_CONFIG"
  pure (hops f.path)

structure Endpoint where
  listenAddress : String
  allowedTcpPorts : List Nat
  deriving DecidableEq, Repr

structure NodeFacts where
  credentialUntil : Int
  /-- Fingerprints with the time until which each is valid. -/
  peers : List (String×Int)
  deriving DecidableEq, Repr

structure ReservedTransitResource extends TransitResource where
  forwardId : String
  deploymentGeneration : Nat
  bindingFence : Nat
  deriving DecidableEq, Repr

def TransitResource.socket (r : TransitResource) : String×Protocol×Nat :=
  (r.nodeId,r.physicalProtocol,r.port)

/-- What the owners of the other tables answer to a stage. -/
structure Surroundings (ι : Type) where
  actor : String
  scopeId : String
  now : Int
  forward : String→Option Forward
  authorizer : String→Option String
  sessions : String→Option Nat
  /-- The digest of the locked profile and its connection limit. -/
  profile : Forward→Except String (String×Nat)
  node : String→Except String NodeFacts
  endpoint : String→Except String Endpoint
  /-- Capabilities, listeners, destinations and the profile, as `checkPath` asks for them. -/
  permitted : Forward→Except String Unit
  /-- The intents of the transit hops, as far as their parser accepts them. -/
  intents : Forward→List HopBinding→Except String (List ι)

/-- The digests of a plan and the names of its assignments. -/
structure PlanDigests (ι : Type) where
  body : PlanBody ι→String
  path : Forward→Nat→List HopBinding→String
  assignment : String→String→Protocol→HopRole→String

abbrev Slots := Table (String×Protocol×Nat) SlotRow

section
variable {ι : Type} (c : Surroundings ι)

def checkPath (f : Forward) : Except String (List Hop) := do
  reject (f.valid=false ∨ f.enabled=false ∨ f.transport=none) "INVALID_CONFIG"
  let route ← compilePathTopology f
  reject (route.length<3) "UNSUPPORTED_CAPABILITY"
  c.permitted f
  pure route

/-- Transit and egress listen on TCP, whatever the Forward carries. -/
def resourceAt (f : Forward) (endpoints : List (String×Endpoint))
    (ports : String→Protocol→Option Nat) (at_ : Hop×Protocol) : Except String TransitResource :=
  if at_.1.index=0 then do
    reject (portOk f.listenPort=false) "RESOURCE_CONFLICT"
    pure ⟨at_.1.nodeId,at_.1.role,at_.2,at_.2,f.listenAddress,f.listenPort⟩
  else
    match endpoints.find? (fun e => e.1=at_.1.nodeId),ports at_.1.nodeId at_.2 with
    | some e,some port => do
      reject (portOk port=false) "RESOURCE_CONFLICT"
      reject (port∉e.2.allowedTcpPorts) "AUTHORIZATION_DENIED"
      pure ⟨at_.1.nodeId,at_.1.role,at_.2,.tcp,e.2.listenAddress,port⟩
    | none,_ => .error "AUTHORIZATION_DENIED"
    | some _,none => .error "RESOURCE_CONFLICT"

/-- Every hop with every protocol, in the order of the path. -/
def places (f : Forward) (route : List Hop) : List (Hop×Protocol) :=
  route.flatMap fun hop => f.protocols.map fun protocol => (hop,protocol)

def compileTransitResources (f : Forward) (endpoints : List (String×Endpoint))
    (ports : String→Protocol→Option Nat) : Except String (List TransitResource) := do
  let route ← checkPath c f
  let out ← (places f route).mapM (resourceAt f endpoints ports)
  reject (¬(out.map TransitResource.socket).Nodup) "RESOURCE_CONFLICT"
  pure out

end

/-- A resource that the path has no place for. -/
def misplaced (f : Forward) (route : List Hop) (r : TransitResource) : Bool :=
  match route.find? (fun hop => hop.nodeId=r.nodeId) with
  | none => true
  | some hop => decide (hop.role≠r.role) || decide (r.forwardProtocol∉f.protocols) ||
    !portOk r.port || decide (r.role=.ingress ∧ (r.physicalProtocol≠r.forwardProtocol ∨
      r.address≠f.listenAddress ∨ r.port≠f.listenPort)) ||
    decide (r.role≠.ingress ∧ r.physicalProtocol≠.tcp)

def validateTransitReservationSet (f : Forward) (resources : List TransitResource)
    (generation : Nat) : Except String Unit := do
  let route ← compilePathTopology f
  reject (f.enabled=false ∨ route.length<3 ∨ counterOk generation=false ∨
    resources.length≠route.length*f.protocols.length ∨
    ¬(resources.map TransitResource.socket).Nodup ∨
    ¬(resources.map fun r => (r.nodeId,r.forwardProtocol)).Nodup ∨
    resources.any (misplaced f route)) "RESOURCE_CONFLICT"

/-- The slot as the insertion of a missing row leaves it. -/
def Slots.at_ (slots : Slots) (socket : String×Protocol×Nat) : SlotRow :=
  (slots.lookup socket).getD ⟨none,0,0⟩

def reserveOne (id : String) (generation : Nat) (slots : Slots) (r : TransitResource) :
    Except String (Slots×ReservedTransitResource) := do
  let row := slots.at_ r.socket
  reject (row.ownerId≠none) "PORT_RESERVED"
  reject (Agent.maxCounter ≤ row.fence) "RESOURCE_LIMIT"
  pure (slots.insert r.socket ⟨some id,row.fence+1,generation⟩,⟨r,id,generation,row.fence+1⟩)

def reserveEach (id : String) (generation : Nat) :
    Slots→List TransitResource→Except String (Slots×List ReservedTransitResource)
  | slots,[] => .ok (slots,[])
  | slots,r::rest => do
    let (next,reserved) ← reserveOne id generation slots r
    let (last,more) ← reserveEach id generation next rest
    pure (last,reserved::more)

def maxAssignmentsPerNode : Nat := 1000

def Slots.owned (slots : Slots) (nodeId : String) : Nat :=
  slots.rows.countP fun row => row.1.1=nodeId ∧ row.2.ownerId.isSome

/-- `before` is the order in which the rows are locked. -/
def reserveTransitResources (before : TransitResource→TransitResource→Bool)
    (sessions : String→Option Nat) (slots : Slots) (f : Forward)
    (resources : List TransitResource) (generation : Nat) :
    Except String (Slots×List ReservedTransitResource) := do
  validateTransitReservationSet f resources generation
  reject (∃r∈resources, sessions r.nodeId=none) "SESSION_SUPERSEDED"
  let (next,reservations) ← reserveEach f.id generation slots (resources.insertionSort fun a b => before a b)
  reject (∃r∈resources, maxAssignmentsPerNode<next.owned r.nodeId) "RESOURCE_LIMIT"
  pure (next,reservations)

/-- The credential that a node shows: the one that is valid longest, by name among equals. -/
def selectPeer (peers : List (String×Int)) : Option (String×Int) :=
  Framework.first (fun a b => decide (b.2 < a.2) || (decide (a.2=b.2) && decide (a.1≤b.1))) peers

/-- A node of the path, as the compiler is told of it. -/
structure KnownNode where
  nodeId : String
  sessionEpoch : Nat
  facts : NodeFacts
  pin : String
  deriving DecidableEq, Repr

section
variable {ι : Type} (digests : PlanDigests ι) (c : Surroundings ι)

/-- The identity of a hop, with the time until which it holds. -/
def identity (nodes : List KnownNode) (used : List String) (hop : Hop) :
    Except String (KnownNode×Int) :=
  match nodes.find? fun n => n.nodeId=hop.nodeId with
  | none => .error "AUTHORIZATION_DENIED"
  | some node =>
    match node.facts.peers.filter fun p => p.1=node.pin ∧ c.now<p.2 with
    | [selected] => do
      reject (digestOk node.pin=false ∨ node.pin∈used ∨ counterOk node.sessionEpoch=false ∨
        safe node.facts.credentialUntil=false ∨ node.facts.credentialUntil ≤ c.now)
        "AUTHORIZATION_DENIED"
      pure (node,min node.facts.credentialUntil selected.2)
    | _ => .error "AUTHORIZATION_DENIED"

/-- Whether a reservation is the one of an expected resource. -/
def ReservedTransitResource.holds (r : ReservedTransitResource) (f : Forward)
    (resource : TransitResource) : Bool :=
  decide (r.toTransitResource=resource) && decide (r.forwardId=f.id)

def bindHop (f : Forward) (expected : List TransitResource)
    (reservations : List ReservedTransitResource) (generation sessionEpoch : Nat) (hop : Hop)
    (protocol : Protocol) : Except String HopBinding :=
  match expected.find? fun r => r.nodeId=hop.nodeId ∧ r.forwardProtocol=protocol with
  | none => .error "RESOURCE_CONFLICT"
  | some resource =>
    match reservations.filter fun r => r.holds f resource with
    | [slot] => do
      reject (counterOk slot.deploymentGeneration=false ∨ counterOk slot.bindingFence=false)
        "RESOURCE_CONFLICT"
      reject (slot.deploymentGeneration≠generation) "INTEGRITY_FAILURE"
      pure ⟨digests.assignment hop.nodeId f.id protocol hop.role,hop.nodeId,hop.role,protocol,
        sessionEpoch,slot.bindingFence,resource,hop.upstreamNodeId,hop.downstreamNodeId⟩
    | _ => .error "RESOURCE_CONFLICT"

def bindHops (f : Forward) (nodes : List KnownNode)
    (expected : List TransitResource) (reservations : List ReservedTransitResource)
    (generation : Nat) : List String→Int→List Hop→Except String (List HopBinding×Int)
  | _,until_,[] => .ok ([],until_)
  | used,until_,hop::rest => do
    let (node,bound) ← identity c nodes used hop
    let own ← f.protocols.mapM
      (bindHop digests f expected reservations generation node.sessionEpoch hop)
    let (more,last) ← bindHops f nodes expected reservations generation (node.pin::used)
      (min until_ bound) rest
    pure (own++more,last)

/-- The ports of the inner hops, as their reservations give them. -/
def portsOf (reservations : List ReservedTransitResource) (nodeId : String) (protocol : Protocol) :
    Option Nat :=
  (reservations.reverse.find? fun r => r.role≠.ingress ∧ r.nodeId=nodeId ∧
    r.forwardProtocol=protocol).map fun r => r.port

/-- The first reservation gives the generation that all must have. -/
def compileTransitPreparation (f : Forward) (profile : String×Nat)
    (nodes : List KnownNode) (endpoints : List (String×Endpoint))
    (reservations : List ReservedTransitResource) :
    Except String (TransitPreparation ι) := do
  reject (safe c.now=false ∨ profile.2<1 ∨ 4096<profile.2) "INVALID_CONFIG"
  let expected ← compileTransitResources c f endpoints (portsOf reservations)
  reject (reservations.length≠expected.length ∨ nodes.length≠f.path.length) "RESOURCE_CONFLICT"
  let generation := (reservations.head?.map fun r => r.deploymentGeneration).getD 0
  let (assignments,until_) ← bindHops digests c f nodes expected reservations generation []
    9007199254740991 (hops f.path)
  reject (generation=0 ∨ until_ ≤ c.now) "LEASE_EXPIRED"
  let intents ← c.intents f assignments
  let body : PlanBody ι := ⟨f.scopeId,f.id,f.revision,generation,profile.1,
    digests.path f generation assignments,until_,f.path.reverse,assignments,intents⟩
  pure ⟨body,digests.body body⟩

/-- The first free port of each protocol among those the endpoint allows. -/
def pickPorts (free : Nat→Bool) (allowed : List Nat) :
    List Nat→List Protocol→Except String (List (Protocol×Nat))
  | _,[] => .ok []
  | seen,protocol::rest =>
    match allowed.find? fun port => decide (port∉seen) && free port with
    | none => .error "PORT_RESERVED"
    | some port => do
      let more ← pickPorts free allowed (port::seen) rest
      pure ((protocol,port)::more)

/-- What the compiler is told of one node: its session, its credentials and its pin. -/
def knownNode (nodeId : String) : Except String KnownNode := do
  let facts ← c.node nodeId
  match selectPeer facts.peers with
  | none => .error "AUTHORIZATION_DENIED"
  | some peer => do
    reject (peer.2 ≤ c.now+10000 ∨ facts.credentialUntil ≤ c.now+10000) "AUTHORIZATION_DENIED"
    pure ⟨nodeId,(c.sessions nodeId).getD 0,facts,peer.1⟩

end

/-- The tables of the staging coordinator, with the journals of the coordination. -/
structure Staging (ι : Type) where
  slots : Slots
  stages : Table String (List (TransitStageRow ι))
  journals : String×Nat→Journal

namespace Staging

variable {ι : Type} (digests : PlanDigests ι) (before : TransitResource→TransitResource→Bool)

def start : Staging ι := ⟨∅,∅,fun _ => Journal.start⟩

def rows (w : Staging ι) (id : String) : List (TransitStageRow ι) := (w.stages.lookup id).getD []

/-- `ORDER BY generation DESC LIMIT 1`. -/
def newest (w : Staging ι) (id : String) : Option (TransitStageRow ι) :=
  Framework.first (fun a b => decide (b.generation≤a.generation)) (w.rows id)

def checkNewest (f : Forward) : Option (TransitStageRow ι)→Except String Unit
  | none => .ok ()
  | some old => do
    reject (f.revision<old.targetRevision) "INTEGRITY_FAILURE"
    reject (old.state=.reserved) "RESOURCE_CONFLICT"

def lockedForward (c : Surroundings ι) (id : String) : Except String Forward :=
  match c.forward id with
  | none => .error "NOT_FOUND"
  | some f => do
    reject (f.id≠id ∨ f.scopeId≠c.scopeId) "NOT_FOUND"
    pure f

def free (w : Staging ι) (socket : String×Protocol×Nat) : Bool := (w.slots.at_ socket).ownerId=none

def stage (w : Staging ι) (c : Surroundings ι) (id : String) (expectedRevision : Nat) :
    Except String (Staging ι×TransitPreparation ι) := do
  reject (counterOk expectedRevision=false) "INVALID_CONFIG"
  let f ← lockedForward c id
  reject (f.revision≠expectedRevision) "REVISION_CONFLICT"
  reject (c.authorizer id≠some c.actor) "AUTHORIZATION_DENIED"
  let route ← compilePathTopology f
  reject (f.enabled=false ∨ route.length<3 ∨ f.transport=none) "UNSUPPORTED_CAPABILITY"
  let old := w.newest id
  checkNewest f old
  let generation := max f.revision ((old.map fun r => r.generation).getD 0+1)
  reject (counterOk generation=false ∨ Agent.maxCounter≤generation) "RESOURCE_LIMIT"
  let ids := f.path.insertionSort fun a b => a≤b
  reject (∃node∈ids, counterOk ((c.sessions node).getD 0)=false) "SESSION_SUPERSEDED"
  let profile ← c.profile f
  let nodes ← ids.mapM (knownNode c)
  let endpoints ← f.via.mapM fun node => (c.endpoint node).map fun e => (node,e)
  let ports ← endpoints.mapM fun e =>
    (pickPorts (fun port => w.free (e.1,.tcp,port)) e.2.allowedTcpPorts [] f.protocols).map
      fun picked => (e.1,picked)
  let resources ← compileTransitResources c f endpoints fun node protocol =>
    (ports.find? fun e => e.1=node).bind fun e => (e.2.find? fun q => q.1=protocol).map Prod.snd
  reject (∃r∈resources, w.free r.socket=false) "PORT_RESERVED"
  let (slots,reservations) ← reserveTransitResources before c.sessions w.slots f resources generation
  let plan ← compileTransitPreparation digests c f (profile.1,min profile.2 4096) nodes
    endpoints reservations
  let expiry := min plan.authorizationUntil (c.now+300000)
  reject (expiry ≤ c.now+10000) "LEASE_EXPIRED"
  let row : TransitStageRow ι := ⟨id,generation,f.revision,c.scopeId,c.actor,.reserved,expiry,
    plan.planDigest,plan,c.now⟩
  pure ({ w with slots := slots, stages := w.stages.insert id (w.rows id++[row]) },plan)

/-- What an abort finds of the other tables. A snapshot lists the Forwards it names, if its body
can be read. -/
structure Remains where
  actor : String
  scopeId : String
  now : Int
  sessions : String→Option Nat
  leases : List (String×Int)
  snapshots : String→List (Option (List String)×Int)

/-- Whether a stored snapshot may still be in force and name the Forward. -/
def threatens (id : String) (now : Int) (snapshot : Option (List String)×Int) : Bool :=
  decide (now-5000 < snapshot.2) &&
    match snapshot.1 with
    | none => true
    | some named => decide (id∈named)

def staged (w : Staging ι) (c : Remains) (id : String) (generation : Nat) :
    Except String (TransitStageRow ι) :=
  match (w.rows id).find? fun r => r.generation=generation ∧ r.scopeId=c.scopeId with
  | none => .error "NOT_FOUND"
  | some row => .ok row

/-- Whether a slot is still the one that was staged. -/
def keeps (w : Staging ι) (id : String) (generation : Nat) (a : HopBinding) : Bool :=
  w.slots.lookup a.socket=some ⟨some id,a.bindingFence,generation⟩

def release (slots : Slots) (sockets : List (String×Protocol×Nat)) : Slots :=
  slots.alter fun socket row => if socket∈sockets then { row with ownerId := none } else row

/-- The rows are locked, so the guards of the updates hold. -/
def abort (w : Staging ι) (c : Remains) (id : String) (generation : Nat) :
    Except String (Staging ι×Bool) := do
  reject (counterOk generation=false) "INVALID_CONFIG"
  let row ← w.staged c id generation
  reject (c.actor≠row.createdBy) "AUTHORIZATION_DENIED"
  let plan ← verifyTransitStage digests.body row
  if row.state=.aborted then pure (w,false)
  else do
    reject ((w.journals (id,generation)).row.isSome) "FENCING_REJECTED"
    reject (∃node∈plan.nodeIds, c.sessions node=none) "INTEGRITY_FAILURE"
    reject (∃lease∈c.leases, lease.1=id ∧ c.now<lease.2+5000) "FENCING_REJECTED"
    reject (∃node∈plan.nodeIds, ∃s∈c.snapshots node, threatens id c.now s) "FENCING_REJECTED"
    reject (∃a∈plan.assignments, w.keeps id generation a=false) "INTEGRITY_FAILURE"
    let rows := (w.rows id).map fun r =>
      if r.generation=generation then { r with state := .aborted } else r
    pure ({ w with
      slots := release w.slots (plan.assignments.map HopBinding.socket)
      stages := w.stages.insert id rows },true)

/-- The call of the coordination sees the stage and the slots as they are stored. -/
def sees (w : Staging ι) (row : TransitStageRow ι) : Call→Prop
  | .begin_ c | .peek c | .confirm c _ _ | .fail c =>
    c.stageState=row.state ∧ c.slots=fun socket => w.slots.lookup socket
  | .quarantineRecovery state _ => state=row.state

def taken (w : Staging ι) (socket : String×Protocol×Nat) (owner : String) (generation : Nat) :
    Staging ι :=
  let row : SlotRow := ⟨some owner,(w.slots.at_ socket).fence+1,generation⟩
  { w with slots := w.slots.insert socket row }

/-- One transaction; a refused one rolls back and is no step. The last two are what the ledger and
the Relay coordinator do, one slot at a time, for any Forward. -/
inductive Step (journal : Digests) (w : Staging ι) : Staging ι→Prop
  | stage {c : Surroundings ι} {id : String} {expected : Nat} {w' : Staging ι}
      {plan : TransitPreparation ι}
      (h : w.stage digests before c id expected=.ok (w',plan)) : Step journal w w'
  | abort {c : Remains} {id : String} {generation : Nat} {w' : Staging ι} {done : Bool}
      (h : w.abort digests c id generation=.ok (w',done)) : Step journal w w'
  | coordinate {row : TransitStageRow ι} {call : Call} {j : Journal}
      {answer : Option OfflineTransitCommand} (hrow : row∈w.rows row.forwardId)
      (hsees : w.sees row call)
      (h : (w.journals (row.forwardId,row.generation)).step digests.body journal row call=
        .ok (j,answer)) :
      Step journal w { w with journals :=
        fun k => if k=(row.forwardId,row.generation) then j else w.journals k }
  | take {socket : String×Protocol×Nat} {owner : String} {generation : Nat}
      (hfree : (w.slots.at_ socket).ownerId=none ∨ (w.slots.at_ socket).ownerId=some owner)
      (hfence : (w.slots.at_ socket).fence < Agent.maxCounter) :
      Step journal w (w.taken socket owner generation)
  | give {sockets : List (String×Protocol×Nat)} :
      Step journal w { w with slots := release w.slots sockets }

end Staging

end TuneX.Control.Transit
