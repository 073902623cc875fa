import TuneX.Contracts.Canonical
import TuneX.Agent.MultihopWire
import Mathlib.Data.List.Sort

namespace TuneX.Contracts

open Agent Framework

/-- `validateHopConfig` of the TypeScript contracts. -/
def validateHopConfig (lib : Library) (h : HopConfig) : Except String Unit := do
  validateProfile h.profile
  reject (h.path.length<3 ∨ 8<h.path.length ∨ h.path.length≤h.hopIndex ∨
    ¬(h.path.map HopNode.nodeId).Nodup ∨ ¬(h.path.map HopNode.assignmentId).Nodup ∨
    ¬(h.path.map HopNode.peerFingerprint).Nodup ∨
    lib.digest (.profile h.profile)≠h.profileDigest ∨ h.protocol∉h.profile.protocols ∨
    hopPathDigest lib h≠h.pathDigest) "INTEGRITY_FAILURE: Multi-hop path/Profile binding differs"
  reject (normalizeTargetHost h.target.host≠some h.target.host ∨
    (∃n∈h.path, normalizeIp n.listenAddress≠some n.listenAddress ∨
      normalizeTargetHost n.host≠some n.host) ∨
    !(h.allowedDestinationCidrs.all validCidr && sortedStrings h.allowedDestinationCidrs))
    "INVALID_CONFIG: Canonical multi-hop endpoints/policy required"

/-- `validateMultihopAssignment` of the TypeScript contracts. -/
def validateMultihopAssignment (lib : Library) (a : Assignment) (s : Snapshot) :
    Except String Unit :=
  match a.driver.config with
  | .multihop h => do
    validateHopConfig lib h
    match h.path[h.hopIndex]? with
    | none => .error "TypeError"
    | some n =>
      reject (s.executionExtension≠some 1 ∨ a.role≠(hopRole h).1 ∨ n.nodeId≠s.nodeId ∨
        n.sessionEpoch≠s.sessionEpoch ∨ n.assignmentId≠a.assignmentId ∨
        n.bindingFence≠a.bindingFence ∨ a.forwardId≠h.forwardId ∨
        a.forwardRevision≠h.forwardRevision ∨ a.deploymentGeneration≠h.deploymentGeneration ∨
        a.protocol≠h.protocol ∨ a.resource.port≠n.port ∨ a.resource.address≠n.listenAddress ∨
        a.resource.protocol≠(if h.hopIndex=0 then h.protocol else .tcp) ∨
        lib.digest (.config a.driver.config)≠a.driver.configDigest)
        "AUTHORIZATION_DENIED: Multi-hop execution binding differs"
  | _ => .error "TypeError"

inductive PathRole
  | direct
  | ingress
  | transit
  | egress
  deriving DecidableEq

def PathRole.multihop : PathRole→Role
  | .ingress => .multihopIngress
  | .egress => .multihopEgress
  | _ => .multihopTransit

structure PathNode where
  nodeId : String
  index : Nat
  role : PathRole
  deriving DecidableEq

structure Forward where
  id : String
  scopeId : String
  revision : Nat
  protocols : List Protocol
  ingressNodeId : String
  listen : Target
  via : List String
  transport : Option (String×Nat)
  target : Target

structure Peer where
  fingerprint : String
  validUntil : Nat
  deriving DecidableEq

structure NodeFacts where
  nodeId : String
  scopeId : String
  capabilities : List String
  allowedListenerAddresses : List String
  allowedPorts : List Nat
  egressPolicyRevision : Nat
  allowedDestinationCidrs : List String
  allowMetadataTargets : Bool
  sessionEpoch : Nat
  credentialUntil : Nat
  peers : List Peer

structure EndpointConfig where
  advertisedHost : String
  listenAddress : String
  allowedTcpPorts : List Nat

structure ResolvedEndpoint where
  nodeId : String
  revision : Nat
  config : EndpointConfig

structure ResolvedProfile where
  profileId : String
  revision : Nat
  configDigest : String
  config : ProfileConfig

structure RelayResource where
  nodeId : String
  role : PathRole
  forwardProtocol : Protocol
  physicalProtocol : Protocol
  address : String
  port : Nat
  deriving DecidableEq

structure Reserved where
  resource : RelayResource
  forwardId : String
  bindingFence : Nat
  deploymentGeneration : Nat

structure PlanInput where
  forward : Forward
  nodes : List NodeFacts
  profile : ResolvedProfile
  endpoints : List ResolvedEndpoint
  ports : List (String×Protocol×Nat)
  reservations : List Reserved
  drainTimeoutSeconds : Nat
  /-- Milliseconds of the issue time, if it is one. -/
  issuedAt : Option Int

/-- What the compiler calls: the Forward and endpoint parsers, the target policy and the name
it derives for an assignment. Nothing below depends on their values. -/
structure Planner where
  parseForward : Forward→Option Forward
  parseRelayEndpoint : EndpointConfig→Bool
  targetAllowed : String→NodeFacts→Bool
  assignmentId : String→String→Protocol→Role→String

structure PlanNode where
  nodeId : String
  sessionEpoch : Nat
  assignments : List Assignment

structure Plan where
  forwardId : String
  forwardRevision : Nat
  deploymentGeneration : Nat
  endpointRevisions : List (String×Nat)
  path : List String
  authorizationUntil : Nat
  nodes : List PlanNode

def pathRole (length index : Nat) : PathRole :=
  if length=1 then .direct else if index=0 then .ingress
  else if index=length-1 then .egress else .transit

def compilePathTopology (P : Planner) (input : Forward) : Except String (List PathNode) :=
  match P.parseForward input with
  | none => .error "INVALID_CONFIG: Invalid Forward path"
  | some f => do
    let sequence := f.ingressNodeId::f.via
    reject (8<sequence.length) "RESOURCE_LIMIT: Forward path exceeds the bounded Node count"
    reject (¬sequence.Nodup) "INVALID_CONFIG: Repeated or cyclic Node in Forward path"
    return sequence.mapIdx fun index nodeId => ⟨nodeId,index,pathRole sequence.length index⟩

namespace PlanInput

def node (i : PlanInput) (nodeId : String) : Option NodeFacts :=
  i.nodes.find? fun n => n.nodeId=nodeId

def endpoint (i : PlanInput) (nodeId : String) : Option ResolvedEndpoint :=
  i.endpoints.find? fun e => e.nodeId=nodeId

def port (i : PlanInput) (nodeId : String) (p : Protocol) : Option Nat :=
  (i.ports.find? fun e => e.1=nodeId ∧ e.2.1=p).map fun e => e.2.2

end PlanInput

/-- The ports of one hop; the first hop listens where the Forward says. -/
def hopPorts (i : PlanInput) (f : Forward) (hop : PathNode) (endpoint : Option ResolvedEndpoint) :
    Except String (List RelayResource) :=
  f.protocols.mapM fun p => do
    let port := if hop.index=0 then some f.listen.port else i.port hop.nodeId p
    match port with
    | none => .error "RESOURCE_CONFLICT: Authorized multi-hop physical port required"
    | some port =>
      reject (port=0 ∨ 0<hop.index ∧ !endpoint.any (fun e => e.config.allowedTcpPorts.contains port))
        "RESOURCE_CONFLICT: Authorized multi-hop physical port required"
      return ⟨hop.nodeId,hop.role,p,if hop.index=0 then p else .tcp,
        if hop.index=0 then f.listen.host else (endpoint.map (·.config.listenAddress)).getD "",port⟩

def hopResources (P : Planner) (i : PlanInput) (f : Forward) (nodes : List PathNode)
    (hop : PathNode) : Except String (List RelayResource) :=
  match i.node hop.nodeId with
  | none => .error "UNSUPPORTED_CAPABILITY: Every Node must explicitly support multi-hop execution"
  | some node => do
    let endpoint := i.endpoint hop.nodeId
    reject (node.scopeId≠f.scopeId ∨ !counterOk node.sessionEpoch ∨
      (["adp.3","adp.execution.1","native.multihop.v1","multihop.wire.1"]++
        f.protocols.map Protocol.text).any fun c => !node.capabilities.contains c)
      "UNSUPPORTED_CAPABILITY: Every Node must explicitly support multi-hop execution"
    reject (hop.index=0 ∧ (!node.allowedListenerAddresses.contains f.listen.host ∨
      !node.allowedPorts.contains f.listen.port))
      "AUTHORIZATION_DENIED: Multi-hop ingress listener denied"
    let allowed : Bool := match nodes[hop.index+1]? with
      | some next => (i.endpoint next.nodeId).any fun e => P.targetAllowed e.config.advertisedHost node
      | none => P.targetAllowed f.target.host node
    reject (!allowed) "AUTHORIZATION_DENIED: Multi-hop destination policy denied"
    reject (0<hop.index ∧ endpoint.isNone) "INVALID_CONFIG: Missing multi-hop endpoint"
    reject (0<hop.index ∧ !endpoint.any fun e => P.parseRelayEndpoint e.config)
      "INVALID_CONFIG: Relay endpoint"
    hopPorts i f hop endpoint

def compileMultihopResources (lib : Library) (P : Planner) (i : PlanInput) :
    Except String (List RelayResource) :=
  match P.parseForward i.forward with
  | none => .error "INVALID_CONFIG: Locked multi-hop Forward required"
  | some f =>
    match f.transport with
    | none => .error "INVALID_CONFIG: Locked multi-hop Forward required"
    | some transport => do
      let nodes ← compilePathTopology P f
      validateProfile i.profile.config
      reject (nodes.length<3 ∨ i.nodes.length≠nodes.length ∨
        i.endpoints.length≠nodes.length-1 ∨ ¬(i.nodes.map NodeFacts.nodeId).Nodup ∨
        ¬(i.endpoints.map ResolvedEndpoint.nodeId).Nodup)
        "AUTHORIZATION_DENIED: Exact multi-hop Node and endpoint facts required"
      reject (i.profile.profileId≠transport.1 ∨ i.profile.revision≠transport.2 ∨
        lib.digest (.profile i.profile.config)≠i.profile.configDigest ∨
        f.protocols.any fun p => !i.profile.config.protocols.contains p)
        "INTEGRITY_FAILURE: Locked multi-hop Profile differs"
      let resources ← nodes.mapM (hopResources P i f nodes)
      reject (¬(resources.flatten.map fun r => (r.nodeId,r.physicalProtocol,r.port)).Nodup)
        "RESOURCE_CONFLICT: Multi-hop physical resource collision"
      return resources.flatten

/-- The pin of a Node: of its current peers the one valid longest, by name among equals. -/
def pinBefore (a b : Peer) : Prop :=
  b.validUntil<a.validUntil ∨ a.validUntil=b.validUntil ∧ a.fingerprint≤b.fingerprint

instance : DecidableRel pinBefore := fun _ _ => inferInstanceAs (Decidable (_ ∨ _))

def nodePin (now : Int) (node : NodeFacts) : Except String Peer :=
  match ((node.peers.filter fun p => now<p.validUntil).insertionSort pinBefore).head? with
  | none => .error "AUTHORIZATION_DENIED: Current bounded multi-hop credentials required"
  | some peer => do
    reject (node.credentialUntil≤now ∨ 2<node.peers.length ∨
      ¬(node.peers.map Peer.fingerprint).Nodup ∨ !node.peers.all fun p => digestOk p.fingerprint)
      "AUTHORIZATION_DENIED: Current bounded multi-hop credentials required"
    return peer

section Path

variable (P : Planner) (i : PlanInput) (pins : List (String×Peer))
  (resources : List RelayResource)

/-- One node of a path, with the generation of the slot reserved for it. -/
def hopNode (p : Protocol) (hop : PathNode) : Except String (Nat×HopNode) :=
  match resources.find? (fun r => r.nodeId=hop.nodeId ∧ r.forwardProtocol=p),
      i.node hop.nodeId,pins.find? (fun x => x.1=hop.nodeId) with
  | some r,some node,some pin =>
    match i.reservations.filter fun s => s.resource=r ∧ s.forwardId=i.forward.id with
    | [slot] => do
      reject (!counterOk slot.bindingFence ∨ !counterOk slot.deploymentGeneration)
        "RESOURCE_CONFLICT: Exact fenced multi-hop resource required"
      return (slot.deploymentGeneration,
        ⟨hop.nodeId,P.assignmentId hop.nodeId i.forward.id p hop.role.multihop,node.sessionEpoch,
          slot.bindingFence,pin.2.fingerprint,r.address,
          match i.endpoint hop.nodeId with
          | some e => e.config.advertisedHost
          | none => (normalizeTargetHost r.address).getD "localhost",
          r.port⟩)
    | _ => .error "RESOURCE_CONFLICT: Exact fenced multi-hop resource required"
  | _,_,_ => .error "TypeError"

/-- The path of one protocol. The first slot sets the deployment generation of the plan. -/
def hopPath (p : Protocol) : Nat→List PathNode→Except String (Nat×List HopNode)
  | generation,[] => .ok (generation,[])
  | generation,hop::l => do
    let found ← hopNode P i pins resources p hop
    let generation := if generation=0 then found.1 else generation
    reject (generation≠found.1) "INTEGRITY_FAILURE: Mixed multi-hop deployment generations"
    let rest ← hopPath p generation l
    return (rest.1,found.2::rest.2)

end Path

def distinctSorted (l : List String) : List String := l.dedup.insertionSort (·≤·)

def hopConfig (lib : Library) (i : PlanInput) (p : Protocol) (generation : Nat)
    (path : List HopNode) (hop : PathNode) (node : NodeFacts) : HopConfig :=
  let base : HopConfig := {
    scopeId := i.forward.scopeId
    forwardId := i.forward.id
    forwardRevision := i.forward.revision
    deploymentGeneration := generation
    profileId := i.profile.profileId
    profileRevision := i.profile.revision
    profileDigest := i.profile.configDigest
    pathDigest := ""
    protocol := p
    hopIndex := hop.index
    path
    profile := i.profile.config
    target := i.forward.target
    egressPolicyRevision := node.egressPolicyRevision
    allowedDestinationCidrs := distinctSorted node.allowedDestinationCidrs
    allowMetadataTargets := node.allowMetadataTargets }
  { base with pathDigest := hopPathDigest lib base }

def hopAssignment (lib : Library) (i : PlanInput) (p : Protocol) (generation : Nat)
    (path : List HopNode) (hop : PathNode) : Except String Assignment :=
  match i.node hop.nodeId,path[hop.index]? with
  | some node,some here => do
    let h := hopConfig lib i p generation path hop node
    validateHopConfig lib h
    return {
      assignmentId := here.assignmentId
      forwardId := i.forward.id
      forwardRevision := i.forward.revision
      deploymentGeneration := generation
      bindingFence := here.bindingFence
      role := hop.role.multihop
      protocol := p
      phase := .prepared
      driver := ⟨.multihop,1,lib.digest (.config (.multihop h)),.multihop h⟩
      drainTimeoutSeconds := i.drainTimeoutSeconds
      resource := ⟨here.listenAddress,here.port,if hop.index=0 then p else .tcp⟩ }
  | _,_ => .error "TypeError"

/-- The assignments of all hops, one row for each protocol. -/
def hopRows (lib : Library) (P : Planner) (i : PlanInput) (pins : List (String×Peer))
    (resources : List RelayResource) (nodes : List PathNode) :
    Nat→List Protocol→Except String (Nat×List (List Assignment))
  | generation,[] => .ok (generation,[])
  | generation,p::l => do
    let path ← hopPath P i pins resources p generation nodes
    let row ← nodes.mapM (hopAssignment lib i p path.1 path.2)
    let rest ← hopRows lib P i pins resources nodes path.1 l
    return (rest.1,row::rest.2)

def planNode (i : PlanInput) (rows : List (List Assignment)) (hop : PathNode) : PlanNode where
  nodeId := hop.nodeId
  sessionEpoch := ((i.node hop.nodeId).map NodeFacts.sessionEpoch).getD 0
  assignments := (rows.filterMap fun row => row[hop.index]?).insertionSort
    fun a b => a.assignmentId≤b.assignmentId

def compileMultihopPlan (lib : Library) (P : Planner) (i : PlanInput) : Except String Plan := do
  let resources ← compileMultihopResources lib P i
  let nodes ← compilePathTopology P i.forward
  validateProfile i.profile.config
  match i.issuedAt with
  | none =>
    .error "INVALID_CONFIG: Complete multi-hop reservations and bounded lifetime required"
  | some now =>
    reject (300 < i.drainTimeoutSeconds ∨ i.reservations.length≠resources.length)
      "INVALID_CONFIG: Complete multi-hop reservations and bounded lifetime required"
    let peers ← i.nodes.mapM (nodePin now)
    let pins := (i.nodes.map NodeFacts.nodeId).zip peers
    let rows ← hopRows lib P i pins resources nodes 0 i.forward.protocols
    let bounds := i.nodes.map NodeFacts.credentialUntil++peers.map Peer.validUntil
    return ⟨i.forward.id,i.forward.revision,rows.1,i.endpoints.map fun e => (e.nodeId,e.revision),
      nodes.map PathNode.nodeId,bounds.foldl min maxCounter,nodes.map (planNode i rows.2)⟩

variable {P : Planner} {nodes : List PathNode} {j g : Nat} {hop : PathNode} {lib : Library}
  {h : HopConfig} {a : Assignment} {s : Snapshot} {i : PlanInput} {pins : List (String×Peer)}
  {resources : List RelayResource} {p : Protocol} {hops : List (Nat×Agent.HopNode)}
  {node : NodeFacts}

theorem compilePathTopology_ok {f : Forward} (h : compilePathTopology P f=.ok nodes)
    (hj : nodes[j]?=some hop) : hop.index=j ∧ hop.role=pathRole nodes.length j := by
  unfold compilePathTopology at h
  split at h
  · simp at h
  · simp only [do_ok] at h
    obtain ⟨-,-,rfl⟩ := h
    rw [List.getElem?_mapIdx,Option.map_eq_some_iff] at hj
    obtain ⟨x,-,rfl⟩ := hj
    simp

section Path

theorem hopNode_ok {x : Nat×Agent.HopNode} (h : hopNode P i pins resources p hop=.ok x) :
    1≤x.1 ∧ x.2.nodeId=hop.nodeId ∧
      (i.node hop.nodeId).map NodeFacts.sessionEpoch=some x.2.sessionEpoch := by
  unfold hopNode at h
  split at h
  · next r node pin hr hnode hpin =>
    split at h
    · next slot _ =>
      simp only [do_ok,not_or,Bool.not_eq_true,Bool.not_eq_false']
        at h
      obtain ⟨⟨-,hgen⟩,rfl⟩ := h
      simp only [counterOk,bool_ok] at hgen
      exact ⟨hgen.1,rfl,by rw [hnode]; rfl⟩
    · simp at h
  · simp at h

/-- A path is the list of its nodes, whatever the generation before it was, and all its slots
are of the generation after it. -/
theorem hopPath_ok {r : Nat×List Agent.HopNode} (h : hopPath P i pins resources p g nodes=.ok r) :
    (g≠0 → r.1=g) ∧ ∃found, nodes.mapM (hopNode P i pins resources p)=.ok found ∧
      r.2=found.map Prod.snd ∧ ∀x∈found, x.1=r.1 := by
  induction nodes generalizing g r with
  | nil =>
    simp only [hopPath,Except.ok.injEq] at h
    subst h
    exact ⟨fun _ => rfl,[],rfl,rfl,by simp⟩
  | cons hop l ih =>
    simp only [hopPath,do_ok,Decidable.not_not] at h
    obtain ⟨x,hx,hgen,rest,hrest,rfl⟩ := h
    obtain ⟨hkeep,found,hfound,hpath,hall⟩ := ih hrest
    have hpos := (hopNode_ok hx).1
    have hsame := hkeep (by omega)
    refine ⟨fun hg => ?_,x::found,?_,?_,?_⟩
    · rw [if_neg hg] at hsame
      exact hsame
    · simp only [List.mapM_cons,do_ok]
      exact ⟨x,hx,found,hfound,rfl⟩
    · rw [hpath,List.map_cons]
    · exact List.forall_mem_cons.mpr ⟨by rw [hsame,hgen],hall⟩

theorem hopRows_ok {l : List Protocol} {r : Nat×List (List Assignment)}
    (h : hopRows lib P i pins resources nodes g l=.ok r) {row : List Assignment} (hrow : row∈r.2) :
    ∃q∈l, ∃g₀ path, hopPath P i pins resources q g₀ nodes=.ok path ∧
      nodes.mapM (hopAssignment lib i q path.1 path.2)=.ok row := by
  induction l generalizing g r with
  | nil =>
    simp only [hopRows,Except.ok.injEq] at h
    simp [← h] at hrow
  | cons q l ih =>
    simp only [hopRows,do_ok] at h
    obtain ⟨path,hpath,row',hrow',rest,hrest,rfl⟩ := h
    rcases List.mem_cons.mp hrow with rfl|hmem
    · exact ⟨q,List.mem_cons_self,g,path,hpath,hrow'⟩
    · obtain ⟨q',hq',hex⟩ := ih hrest hmem
      exact ⟨q',List.mem_cons_of_mem _ hq',hex⟩

/-- An assignment at the position `j` of the path that its protocol gets. -/
structure Hop (lib : Library) (P : Planner) (i : PlanInput) (pins : List (String×Peer))
    (resources : List RelayResource) (nodes : List PathNode) (p : Protocol) (j : Nat)
    (a : Assignment) (hops : List (Nat×Agent.HopNode)) (g : Nat) (hop : PathNode)
    (node : NodeFacts) : Prop where
  found : nodes.mapM (hopNode P i pins resources p)=.ok hops
  generation : ∀x∈hops, x.1=g
  position : nodes[j]?=some hop
  facts : i.node hop.nodeId=some node
  index : hop.index=j
  role : hop.role=pathRole nodes.length j
  built : hopAssignment lib i p g (hops.map Prod.snd) hop=.ok a

namespace Hop

variable {k : Nat} {b : Assignment} {hops' : List (Nat×Agent.HopNode)} {g' : Nat}
  {hop' : PathNode} {node' : NodeFacts}

theorem fields (h : Hop lib P i pins resources nodes p j a hops g hop node) :
    ∃x, hops[j]?=some x ∧ x.2.nodeId=hop.nodeId ∧ x.2.sessionEpoch=node.sessionEpoch ∧
      validateHopConfig lib (hopConfig lib i p g (hops.map Prod.snd) hop node)=.ok () ∧
      a={
        assignmentId := x.2.assignmentId
        forwardId := i.forward.id
        forwardRevision := i.forward.revision
        deploymentGeneration := g
        bindingFence := x.2.bindingFence
        role := hop.role.multihop
        protocol := p
        phase := .prepared
        driver := ⟨.multihop,1,lib.digest (.config (.multihop
          (hopConfig lib i p g (hops.map Prod.snd) hop node))),
          .multihop (hopConfig lib i p g (hops.map Prod.snd) hop node)⟩
        drainTimeoutSeconds := i.drainTimeoutSeconds
        resource := ⟨x.2.listenAddress,x.2.port,if j=0 then p else .tcp⟩ } := by
  have hbuilt := h.built
  rw [hopAssignment,h.facts,h.index,List.getElem?_map] at hbuilt
  cases hx : hops[j]? with
  | none =>
    rw [hx] at hbuilt
    simp at hbuilt
  | some x =>
    rw [hx] at hbuilt
    simp only [Option.map_some,do_ok] at hbuilt
    obtain ⟨hvalid,hbuilt⟩ := hbuilt
    obtain ⟨hop₂,hpos,hnode⟩ := forall₂_at (forall₂_mapM_ok h.found) hx
    rw [h.position,Option.some.injEq] at hpos
    subst hpos
    have hok := hopNode_ok hnode
    rw [h.facts,Option.map_some,Option.some.injEq] at hok
    exact ⟨x,rfl,hok.2.1,hok.2.2.symm,hvalid,hbuilt.symm⟩

theorem length (h : Hop lib P i pins resources nodes p j a hops g hop node) :
    hops.length=nodes.length := (forall₂_mapM_ok h.found).length_eq.symm

theorem same (h : Hop lib P i pins resources nodes p j a hops g hop node)
    (k : Hop lib P i pins resources nodes p k b hops' g' hop' node') : hops'=hops ∧ g'=g := by
  have hhops : hops'=hops := Except.ok.inj (k.found.symm.trans h.found)
  subst hhops
  obtain ⟨x,hx,-⟩ := h.fields
  have hmem := List.mem_of_getElem? hx
  exact ⟨rfl,(k.generation x hmem).symm.trans (h.generation x hmem)⟩

theorem role_eq (h : Hop lib P i pins resources nodes p j a hops g hop node)
    (hlen : 3≤hops.length) :
    hop.role.multihop=(hopRole (hopConfig lib i p g (hops.map Prod.snd) hop node)).1 := by
  have hlength := h.length
  rw [h.role,hopRole]
  simp only [hopConfig,List.length_map,h.index,pathRole,hlength]
  rw [if_neg (by omega)]
  split_ifs <;> rfl

end Hop

end Path

/-- What the TypeScript contract accepts in a hop configuration. -/
structure HopValid (lib : Library) (h : HopConfig) : Prop where
  profile : validateProfile h.profile=.ok ()
  short : 3≤h.path.length
  long : h.path.length≤8
  inside : h.hopIndex<h.path.length
  nodes : (h.path.map Agent.HopNode.nodeId).Nodup
  ids : (h.path.map Agent.HopNode.assignmentId).Nodup
  pins : (h.path.map Agent.HopNode.peerFingerprint).Nodup
  profileDigest : lib.digest (.profile h.profile)=h.profileDigest
  protocol : h.protocol∈h.profile.protocols
  pathDigest : hopPathDigest lib h=h.pathDigest
  target : normalizeTargetHost h.target.host=some h.target.host
  address : ∀n∈h.path, normalizeIp n.listenAddress=some n.listenAddress
  host : ∀n∈h.path, normalizeTargetHost n.host=some n.host
  cidrs : ∀x∈h.allowedDestinationCidrs, validCidr x
  sorted : sortedStrings h.allowedDestinationCidrs

theorem validateHopConfig_ok (hv : validateHopConfig lib h=.ok ()) : HopValid lib h := by
  simp only [validateHopConfig,do_ok,not_or,Decidable.not_not,Bool.not_eq_true,Bool.not_eq_false',
    schema_ok,not_exists,not_and,Nat.not_lt,Nat.not_le] at hv
  obtain ⟨hprofile,⟨h₁,h₂,h₃,h₄,h₅,h₆,h₇,h₈,h₉⟩,ht,hpath,hcidrs,hsorted⟩ := hv
  exact ⟨hprofile,h₁,h₂,h₃,h₄,h₅,h₆,h₇,h₈,h₉,ht,fun n hn => (hpath n hn).1,
    fun n hn => (hpath n hn).2,hcidrs,hsorted⟩

theorem validateHopPath_of {nodes ids pins : List String} {l : List Agent.HopNode}
    (haddress : ∀n∈l, lib.canonicalAddress n.listenAddress) (hhost : ∀n∈l, lib.canonicalHost n.host)
    (hnodes : (l.map Agent.HopNode.nodeId++nodes).Nodup)
    (hids : (l.map Agent.HopNode.assignmentId++ids).Nodup)
    (hpins : (l.map Agent.HopNode.peerFingerprint++pins).Nodup) :
    validateHopPath lib nodes ids pins l=.ok () := by
  induction l generalizing nodes ids pins with
  | nil => rfl
  | cons n l ih =>
    -- the head moves from the rest of the path to the names already seen
    have hmove {β : Type} {f : Agent.HopNode→β} {seen : List β}
        (h : ((n::l).map f++seen).Nodup) : f n∉seen ∧ (l.map f++f n::seen).Nodup := by
      rw [List.map_cons,List.cons_append,List.nodup_cons] at h
      exact ⟨fun hm => h.1 (List.mem_append_right _ hm),
        List.nodup_middle.mpr (List.nodup_cons.mpr h)⟩
    rw [List.forall_mem_cons] at haddress hhost
    have hn := hmove hnodes
    have hi := hmove hids
    have hp := hmove hpins
    rw [validateHopPath,if_neg (by simp [haddress.1,hn.1,hi.1,hp.1]),if_neg (by simp [hhost.1])]
    exact ih haddress.2 hhost.2 hn.2 hi.2 hp.2

theorem HopValid.path (hv : HopValid lib h) (hnet : Netip lib) :
    validateHopPath lib [] [] [] h.path=.ok () :=
  validateHopPath_of (fun n hn => hnet.canonicalAddress (hv.address n hn))
    (fun n hn => hnet.canonicalHost (hv.host n hn)) (by simpa using hv.nodes)
    (by simpa using hv.ids) (by simpa using hv.pins)

theorem validateMultihop_agent (hnet : Netip lib) (hid : a.driver.id=.multihop)
    (hv : validateMultihopAssignment lib a s=.ok ()) :
    Agent.validateMultihopAssignment lib a s.nodeId s.sessionEpoch s.executionExtension=
      .ok () := by
  unfold validateMultihopAssignment at hv
  split at hv
  · next h hc =>
    simp only [do_ok] at hv
    obtain ⟨hhop,hv⟩ := hv
    have hvalid := validateHopConfig_ok hhop
    split at hv
    · simp at hv
    · next n hn =>
      simp only [reject_ok,not_or,Decidable.not_not] at hv
      obtain ⟨hext,hrole,hnode,hepoch,hasg,hfence,hfwd,hrev,hgen,hproto,hport,haddr,hphys,hdig⟩ := hv
      have hphys' : a.resource.protocol=(hopRole h).2 := by
        rw [hphys,hopRole]
        split_ifs <;> rfl
      have hshort := hvalid.short
      have hlong := hvalid.long
      have hcidrs := fun x hx => hnet.validCIDR (hvalid.cidrs x hx)
      unfold Agent.validateMultihopAssignment
      rw [hc]
      simp only [hext,hid,hn]
      rw [if_neg (by simp; omega)]
      simp only [validateHop,do_ok,hvalid.path hnet,hvalid.pathDigest,hvalid.profileDigest,
        hvalid.profile,hnet.canonicalHost hvalid.target,hvalid.protocol,hvalid.sorted,hrole,hnode,
        hepoch,hasg,hfence,hfwd,hrev,hgen,hproto,hport,haddr,hphys']
      simpa using ⟨hcidrs,hdig⟩
  · simp at hv

theorem compileMultihopPlan_ok {plan : Plan} (h : compileMultihopPlan lib P i=.ok plan) :
    ∃resources pins nodes rows, compilePathTopology P i.forward=.ok nodes ∧
      hopRows lib P i pins resources nodes 0 i.forward.protocols=.ok rows ∧
      plan.nodes=nodes.map (planNode i rows.2) := by
  simp only [compileMultihopPlan,bind_ok] at h
  obtain ⟨resources,-,nodes,hnodes,-,-,h⟩ := h
  split at h
  · simp at h
  · simp only [do_ok] at h
    obtain ⟨-,peers,-,rows,hrows,rfl⟩ := h
    exact ⟨resources,_,nodes,rows,hnodes,hrows,rfl⟩

theorem plan_hop {rows : Nat×List (List Assignment)}
    (hnodes : compilePathTopology P i.forward=.ok nodes)
    (hrows : hopRows lib P i pins resources nodes 0 i.forward.protocols=.ok rows) {n : PlanNode}
    (hn : (nodes.map (planNode i rows.2))[j]?=some n) (ha : a∈n.assignments) :
    ∃p hops g hop node, Hop lib P i pins resources nodes p j a hops g hop node ∧
      n.nodeId=hop.nodeId ∧ n.sessionEpoch=node.sessionEpoch := by
  rw [List.getElem?_map,Option.map_eq_some_iff] at hn
  obtain ⟨hop,hhop,rfl⟩ := hn
  have htop := compilePathTopology_ok hnodes hhop
  have hmem := (List.perm_insertionSort _ _).mem_iff.mp ha
  obtain ⟨row,hrow,hat⟩ := List.mem_filterMap.mp hmem
  rw [htop.1] at hat
  obtain ⟨p,-,g₀,path,hpath,hasg⟩ := hopRows_ok hrows hrow
  obtain ⟨-,hops,hfound,hsnd,hgen⟩ := hopPath_ok hpath
  obtain ⟨hop',hpos,hbuilt⟩ := forall₂_at (forall₂_mapM_ok hasg) hat
  rw [hhop,Option.some.injEq] at hpos
  subst hpos
  rw [hsnd] at hbuilt
  cases hfacts : i.node hop.nodeId with
  | none =>
    rw [hopAssignment,hfacts] at hbuilt
    simp at hbuilt
  | some node =>
    refine ⟨p,hops,path.1,hop,node,⟨hfound,hgen,hhop,hfacts,htop.1,htop.2,hbuilt⟩,rfl,?_⟩
    simp [planNode,hfacts]

theorem Hop.valid (h : Hop lib P i pins resources nodes p j a hops g hop node)
    (hnode : s.nodeId=hop.nodeId) (hepoch : s.sessionEpoch=node.sessionEpoch)
    (hext : s.executionExtension=some 1) : validateMultihopAssignment lib a s=.ok () := by
  obtain ⟨x,hx,hid,hse,hvalid,rfl⟩ := h.fields
  have hshort := (validateHopConfig_ok hvalid).short
  have hrole := h.role_eq (by simpa [hopConfig] using hshort)
  have hhere : (hopConfig lib i p g (hops.map Prod.snd) hop node).path[
      (hopConfig lib i p g (hops.map Prod.snd) hop node).hopIndex]?=some x.2 := by
    simp [hopConfig,h.index,hx]
  unfold validateMultihopAssignment
  simp only [do_ok,hvalid,hhere,true_and]
  rw [hrole]
  simp [hopConfig,hnode,hepoch,hext,hid,hse,h.index]

theorem Hop.pair {k : Nat} {b : Assignment} {hops' : List (Nat×Agent.HopNode)} {g' : Nat}
    {hop' : PathNode} {node' : NodeFacts}
    (h : Hop lib P i pins resources nodes p j a hops g hop node)
    (h' : Hop lib P i pins resources nodes p k b hops' g' hop' node') :
    ∃c d, a.driver.config=.multihop c ∧ b.driver.config=.multihop d ∧ HopValid lib c ∧
      HopValid lib d ∧ c.shared=d.shared ∧ c.hopIndex=j ∧ d.hopIndex=k := by
  obtain ⟨rfl,rfl⟩ := h.same h'
  obtain ⟨x,-,-,-,hvalid,hfields⟩ := h.fields
  obtain ⟨x',-,-,-,hvalid',hfields'⟩ := h'.fields
  refine ⟨hopConfig lib i p g' (hops'.map Prod.snd) hop node,
    hopConfig lib i p g' (hops'.map Prod.snd) hop' node',?_,?_,?_⟩
  · rw [hfields]
  · rw [hfields']
  · exact ⟨validateHopConfig_ok hvalid,validateHopConfig_ok hvalid',rfl,h.index,h'.index⟩

namespace HopValid

variable {c d : HopConfig}

/-- Neighbours agree on the edge between them, and the open message of the first is served by
the second. -/
theorem neighbours (hc : HopValid lib c) (hd : HopValid lib d) (hnet : Netip lib)
    (hs : c.shared=d.shared) (hnext : d.hopIndex=c.hopIndex+1) :
    wireBinding c true=wireBinding d false ∧ (wireBinding c true).isSome ∧
      wireDigest lib c=wireDigest lib d ∧
      (hopConfigOk c→∀action∈["probe","tcp","udp"], ∀requestId, idOk requestId→
        ∃o, dialOpen c action requestId=.ok o ∧ multihopOpenSize o ≤ maxControlBytes ∧
          readOpen d o=.ok o.message ∧ serveOpen lib d true (.ok ()) o=.ok ()) := by
  have hlen : c.path.length=d.path.length := congrArg (fun x => x.path.length) hs
  have hinside := hd.inside
  obtain ⟨up,down,-,-,hbinding⟩ := wireBinding_some (h := c) (by omega)
  have hdigest : wireDigest lib c=wireDigest lib d := by
    funext b
    rw [wireDigest,wireDigest,pathDigest_shared hs]
  have hpath := (validateHopPath_ok (hc.path hnet)).1
  refine ⟨wireBinding_neighbour hs hnext,by rw [hbinding]; rfl,hdigest,?_⟩
  intro hok action haction requestId hid
  exact dialOpen_served hok hpath hs hnext hinside haction hid

end HopValid

/-- Multi-hop plans are consistent from the compiler to the wire. -/
theorem multihop_plan_consistent (lib : Library) (hnet : Netip lib) (P : Planner) (i : PlanInput)
    (plan : Plan) (hplan : compileMultihopPlan lib P i=.ok plan) :
    (∀n∈plan.nodes, ∀a∈n.assignments, ∀s : Snapshot, s.nodeId=n.nodeId→
      s.sessionEpoch=n.sessionEpoch→s.executionExtension=some 1→
      validateMultihopAssignment lib a s=.ok () ∧
      Agent.validateMultihopAssignment lib a s.nodeId s.sessionEpoch s.executionExtension=.ok ()) ∧
    ∀j k m n, plan.nodes[j]?=some m→plan.nodes[k]?=some n→
      ∀a∈m.assignments, ∀b∈n.assignments, a.protocol=b.protocol→
      ∃c d, a.driver.config=.multihop c ∧ b.driver.config=.multihop d ∧
        c.pathDigest=d.pathDigest ∧
        (k=j+1→wireBinding c true=wireBinding d false ∧ (wireBinding c true).isSome ∧
          wireDigest lib c=wireDigest lib d ∧
          (hopConfigOk c→∀action∈["probe","tcp","udp"], ∀requestId, idOk requestId→
            ∃o, dialOpen c action requestId=.ok o ∧ multihopOpenSize o ≤ maxControlBytes ∧
              readOpen d o=.ok o.message ∧ serveOpen lib d true (.ok ()) o=.ok ())) ∧
        ∀(e : HopConfig) (edge : Nat) (o : Open), hopPathDigest lib e=e.pathDigest→
          hopBinding e edge=some o.binding→
          (hopPathDigest lib e=hopPathDigest lib d→
            e.deploymentGeneration=d.deploymentGeneration ∧ e.path=d.path)→
          (∀expected, wireBinding d false=some expected→
            lib.digest (.binding o.binding)=lib.digest (.binding expected) → o.binding=expected)→
          (e.deploymentGeneration≠d.deploymentGeneration ∨ e.path≠d.path ∨
            edge+1≠d.hopIndex)→
          ∀active allow, serveOpen lib d active allow ⟨o,e.pathDigest⟩≠.ok () := by
  obtain ⟨resources,pins,nodes,rows,hnodes,hrows,hplan⟩ := compileMultihopPlan_ok hplan
  rw [hplan]
  refine ⟨?_,?_⟩
  · intro n hn a ha s hnode hepoch hext
    obtain ⟨j,hj⟩ := List.getElem?_of_mem hn
    obtain ⟨p,hops,g,hop,node,hhop,hid,hse⟩ := plan_hop hnodes hrows hj ha
    have hvalid := hhop.valid (hnode.trans hid) (hepoch.trans hse) hext
    obtain ⟨x,-,-,-,-,hfields⟩ := hhop.fields
    exact ⟨hvalid,validateMultihop_agent hnet (by rw [hfields]) hvalid⟩
  · intro j k m n hm hn a ha b hb hproto
    obtain ⟨p,hops,g,hop,node,hhop,-,-⟩ := plan_hop hnodes hrows hm ha
    obtain ⟨p',hops',g',hop',node',hhop',-,-⟩ := plan_hop hnodes hrows hn hb
    have hp : p=p' := by
      obtain ⟨x,-,-,-,-,hfields⟩ := hhop.fields
      obtain ⟨x',-,-,-,-,hfields'⟩ := hhop'.fields
      rw [hfields,hfields'] at hproto
      exact hproto
    subst hp
    obtain ⟨c,d,hc,hd,hcv,hdv,hs,hj,hk⟩ := hhop.pair hhop'
    refine ⟨c,d,hc,hd,pathDigest_shared hs,?_,?_⟩
    · intro hnext
      exact hcv.neighbours hdv hnet hs (by omega)
    · intro e edge o hdigest ho hfree hbfree hother active allow
      have hpath := (validateHopPath_ok (hdv.path hnet)).1
      exact foreign_refused hpath hdigest hdv.pathDigest ho hfree hbfree hother active allow

namespace Sample

def hash : String := "sha256:0000000000000000000000000000000000000000000000000000000000000000"

def parsePrefix (text : String) : Option Prefix :=
  match text.toList.splitOn '/' with
  | [address,bits] => do
    let bytes ← ipBytes (String.ofList address)
    if plainDecimal bits ∧ decimal bits≤8*bytes.length then
      some ⟨maskedBytes bytes (decimal bits),""⟩
    else none
  | _ => none

def bindingNumbers (b : Binding) : List Nat :=
  [b.forwardRevision,b.deploymentGeneration,b.ingressSessionEpoch,b.egressSessionEpoch,
    b.ingressFence,b.egressFence,b.profileRevision]

def cidrNumbers (l : List String) : List Nat := l.flatMap fun x => 0::x.toList.map Char.toNat

/-- What tells the documents of the examples apart. -/
def numbers : Document→List Nat
  | .snapshot s => [1,s.snapshotGeneration]
  | .profile p => [2,p.wireVersion,p.protocols.length,p.handshakeTimeoutSeconds,
      p.idleTimeoutSeconds,p.maxFrameBytes,p.maxUdpDatagramBytes,p.maxConnectionsPerNode]
  | .config (.direct c) => 3::c.target.port::cidrNumbers c.allowedDestinationCidrs
  | .config (.relay c) => 4::c.role.ctorIdx::bindingNumbers c.binding++
      cidrNumbers c.allowedDestinationCidrs
  | .config (.multihop h) => 5::h.hopIndex::h.forwardRevision::h.deploymentGeneration::
      h.path.map HopNode.port++cidrNumbers h.allowedDestinationCidrs
  | .hopPath _ _ revision generation _ _ _ _ path target => 6::revision::generation::target.port::
      path.flatMap fun n => [n.sessionEpoch,n.bindingFence,n.port]
  | .binding b => 7::bindingNumbers b
  | .wire b _ => 8::bindingNumbers b

def checksum (l : List Nat) : String :=
  let n := l.foldl (fun n k => (n*65537+k)%16^64) 0
  String.ofList ("sha256:".toList++(List.range 64).map fun i => Nat.digitChar (n/16^i%16))

def library : Library where
  digest d := checksum (numbers d)
  ipFormat _ := true
  dateTime _ := true
  parseAddr text := (ipBytes text).map fun bytes => ⟨"",unspecified bytes,ipText bytes⟩
  parsePrefix := parsePrefix
  utcInstant _ := none

theorem library_netip : Netip library := by
  refine ⟨?_,?_,?_⟩
  · intro text bytes h
    simp [library,h]
  · intro text h _
    simp [library,h]
  · intro text address bits bytes hsplit hbits hb hle
    simp [library,parsePrefix,hsplit,hb,hbits,hle]

def planner : Planner where
  parseForward := some
  parseRelayEndpoint _ := true
  targetAllowed _ _ := true
  assignmentId node _ _ _ := "a:"++node

def forward : Forward :=
  ⟨"f1","s1",1,[.tcp],"n1",⟨"10.0.0.1",9000⟩,["n2","n3"],some ("p1",1),⟨"db.example",5432⟩⟩

def pin (c : Char) : String :=
  String.ofList ("sha256:".toList++List.replicate 64 c)

def facts (name : String) (c : Char) : NodeFacts where
  nodeId := name
  scopeId := "s1"
  capabilities := ["adp.3","adp.execution.1","native.multihop.v1","multihop.wire.1","tcp"]
  allowedListenerAddresses := ["10.0.0.1"]
  allowedPorts := [9000]
  egressPolicyRevision := 1
  allowedDestinationCidrs := ["10.0.0.0/8"]
  allowMetadataTargets := false
  sessionEpoch := 1
  credentialUntil := 1000
  peers := [⟨pin c,1000⟩]

def reserved (name : String) (role : PathRole) (address : String) (port : Nat) : Reserved :=
  ⟨⟨name,role,.tcp,.tcp,address,port⟩,"f1",1,1⟩

def profile : ProfileConfig := ⟨"native.relay.v1",1,"mutual-tls13",[.tcp],5,60,4096,1024,16⟩

/-- A Forward over three Nodes. -/
def input : PlanInput where
  forward := forward
  nodes := [facts "n1" 'a',facts "n2" 'b',facts "n3" 'c']
  profile := ⟨"p1",1,library.digest (.profile profile),profile⟩
  endpoints := [⟨"n2",1,⟨"hop2.example","10.0.0.2",[9100]⟩⟩,
    ⟨"n3",1,⟨"hop3.example","10.0.0.3",[9200]⟩⟩]
  ports := [("n2",.tcp,9100),("n3",.tcp,9200)]
  reservations := [reserved "n1" .ingress "10.0.0.1" 9000,reserved "n2" .transit "10.0.0.2" 9100,
    reserved "n3" .egress "10.0.0.3" 9200]
  drainTimeoutSeconds := 30
  issuedAt := some 0

/-- The assignments of each Node, and how many digests they have. -/
def shape (plan : Plan) : List (String×Nat)×Nat :=
  (plan.nodes.map fun n => (n.nodeId,n.assignments.length),
    ((plan.nodes.flatMap PlanNode.assignments).map fun a => a.driver.configDigest).dedup.length)

theorem input_shape : (compileMultihopPlan library planner input).toOption.map shape=
    some ([("n1",1),("n2",1),("n3",1)],3) := by
  decide +kernel

end Sample

open Sample in
/-- The plan of a path over three Nodes, one assignment for each, with three digests. -/
theorem multihop_plan_consistent_three :
    ∃plan, compileMultihopPlan library planner input=.ok plan ∧
      shape plan=([("n1",1),("n2",1),("n3",1)],3) ∧
      ∀n∈plan.nodes, ∀a∈n.assignments, ∀s : Snapshot, s.nodeId=n.nodeId→
        s.sessionEpoch=n.sessionEpoch→s.executionExtension=some 1→
        validateMultihopAssignment library a s=.ok () := by
  obtain ⟨plan,hplan,hshape⟩ := Option.map_eq_some_iff.mp input_shape
  rw [toOption_ok] at hplan
  have hall := multihop_plan_consistent library library_netip planner input plan hplan
  exact ⟨plan,hplan,hshape,fun n hn a ha s h₁ h₂ h₃ => (hall.1 n hn a ha s h₁ h₂ h₃).1⟩

end TuneX.Contracts
