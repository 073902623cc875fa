import TuneX.Contracts.Forwards
import TuneX.Contracts.RelayContract
import Mathlib.Algebra.Group.Action.Defs
import Mathlib.Data.String.Basic

namespace TuneX.Contracts

open Agent Framework

/-- A stored plan of either compiler; only multi-hop plans have a path and endpoint revisions. -/
structure PreparedPlan where
  path : Option (List String)
  endpointRevisions : Option (List (String×Nat))
  forwardId : String
  forwardRevision : Nat
  deploymentGeneration : Nat
  endpointRevision : Nat
  authorizationUntil : Nat
  nodes : List PlanNode
  planDigest : String

/-- What the digest of a plan covers. -/
def PreparedPlan.body (p : PreparedPlan) : PreparedPlan := {p with planDigest := ""}

structure RelayPlanInput where
  forward : Forward
  /-- `spec.enabled` of the Forward. -/
  enabled : Bool
  nodes : List NodeFacts
  profile : ResolvedProfile
  endpoint : ResolvedEndpoint
  reservations : List Reserved
  /-- Milliseconds of the issue time, if it is one. -/
  issuedAt : Option Int
  drainTimeoutSeconds : Nat

def twoNodesOnly : String :=
  "UNSUPPORTED_CAPABILITY: Current native Relay supports exactly two Nodes; Transit is not executable"

def requireTwoNodeRelayTopology (P : Planner) (input : Forward) :
    Except String (PathNode×PathNode) := do
  let nodes ← compilePathTopology P input
  match nodes with
  | [first,second] =>
    reject (first.role≠.ingress ∨ second.role≠.egress) twoNodesOnly
    return (first,second)
  | _ => .error twoNodesOnly

/-- The listeners of one protocol on both Nodes. -/
def relayResources (f : Forward) (ingress egress : NodeFacts) (endpoint : ResolvedEndpoint)
    (port : Nat) (p : Protocol) : List RelayResource :=
  [⟨ingress.nodeId,.ingress,p,p,f.listen.host,f.listen.port⟩,
    ⟨egress.nodeId,.egress,p,.tcp,endpoint.config.listenAddress,port⟩]

def compileRelayResources (lib : Library) (P : Planner) (forward : Forward)
    (nodes : List NodeFacts) (profile : ResolvedProfile) (endpoint : ResolvedEndpoint)
    (egressPorts : Protocol→Nat) : Except String (List RelayResource) := do
  validateProfile profile.config
  reject (!counterOk profile.revision ∨ lib.digest (.profile profile.config)≠profile.configDigest)
    "INTEGRITY_FAILURE: Locked Profile integrity differs"
  reject (!P.parseRelayEndpoint endpoint.config) "INVALID_CONFIG: Relay endpoint"
  match P.parseForward forward with
  | none => .error "INVALID_CONFIG: Forward is invalid"
  | some f => do
    let topology ← requireTwoNodeRelayTopology P f
    match f.transport with
    | none => .error "UNSUPPORTED_CAPABILITY: Locked Relay Transport required"
    | some transport =>
      match nodes.find? (·.nodeId=topology.1.nodeId),nodes.find? (·.nodeId=topology.2.nodeId) with
      | some ingress,some egress => do
        reject (nodes.length≠2 ∨ ingress.scopeId≠forward.scopeId ∨ egress.scopeId≠forward.scopeId)
          "AUTHORIZATION_DENIED: Exact same-scope Nodes required"
        reject (profile.profileId≠transport.1 ∨ profile.revision≠transport.2 ∨
          endpoint.nodeId≠egress.nodeId ∨ !counterOk endpoint.revision)
          "AUTHORIZATION_DENIED: Locked Profile and egress endpoint required"
        reject (nodes.any fun node => (["native.relay.v1","adp.3","relay.wire.1"]++
          f.protocols.map Protocol.text).any fun c => !node.capabilities.contains c)
          "UNSUPPORTED_CAPABILITY: Exact ADP/Relay wire capability required"
        reject ((f.protocols.any fun p => !profile.config.protocols.contains p) ∨
          !ingress.allowedListenerAddresses.contains f.listen.host ∨
          !ingress.allowedPorts.contains f.listen.port ∨ !P.targetAllowed f.target.host egress ∨
          !P.targetAllowed endpoint.config.advertisedHost ingress)
          "AUTHORIZATION_DENIED: Relay listener or dial policy denied"
        reject (f.protocols.any fun p => !portOk (egressPorts p) ||
          !endpoint.config.allowedTcpPorts.contains (egressPorts p))
          "RESOURCE_CONFLICT: Authorized TLS port required"
        let resources := f.protocols.flatMap fun p =>
          relayResources f ingress egress endpoint (egressPorts p) p
        reject (¬(resources.map fun r => (r.nodeId,r.physicalProtocol,r.port)).Nodup)
          "RESOURCE_CONFLICT: Internal TLS sockets require distinct physical resources"
        return resources
      | _,_ => .error "AUTHORIZATION_DENIED: Exact same-scope Nodes required"

/-- The session and the credentials of one Node, at the issue time. -/
def nodeAuthority (now : Int) (node : NodeFacts) : Except String Unit := do
  reject (!counterOk node.sessionEpoch ∨ maxCounter<node.credentialUntil ∨
    (node.credentialUntil : Int)≤now ∨ node.peers.length<1 ∨ 2<node.peers.length)
    "AUTHORIZATION_DENIED: Current session and bounded peer authority required"
  reject (¬(node.peers.map Peer.fingerprint).Nodup ∨ ∃p∈node.peers, !digestOk p.fingerprint ∨
    maxCounter<p.validUntil ∨ (p.validUntil : Int)≤now)
    "AUTHORIZATION_DENIED: Valid unique peer credentials required"

/-- The internal port of a protocol is the one reserved for its egress. -/
def relayPort (reservations : List Reserved) (p : Protocol) : Except String Nat :=
  match reservations.filter fun s => s.resource.role=.egress ∧ s.resource.forwardProtocol=p with
  | [slot] => .ok slot.resource.port
  | _ => .error "RESOURCE_CONFLICT: Missing or ambiguous internal TLS resource"

/-- The reservations of the resources in turn. The first one sets the deployment generation. -/
def relayReservations (reservations : List Reserved) (forwardId : String) :
    Option Nat→List RelayResource→Except String (List Reserved)
  | _,[] => .ok []
  | generation,resource::l =>
    match reservations.filter fun s => s.resource=resource ∧ s.forwardId=forwardId with
    | [slot] => do
      reject (!counterOk slot.bindingFence ∨ !counterOk slot.deploymentGeneration)
        "RESOURCE_CONFLICT: Valid exclusive Relay reservation required"
      let generation := generation.getD slot.deploymentGeneration
      reject (slot.deploymentGeneration≠generation)
        "INTEGRITY_FAILURE: Relay deployment generation differs across Nodes"
      let rest ← relayReservations reservations forwardId (some generation) l
      return slot::rest
    | _ => .error "RESOURCE_CONFLICT: Valid exclusive Relay reservation required"

section Assignments

variable (lib : Library) (P : Planner) (i : RelayPlanInput) (f : Forward) (generation : Nat)
  (ingress egress : NodeFacts)

def relayBinding (p : Protocol) (ingressSlot egressSlot : Reserved) : Binding where
  scopeId := f.scopeId
  forwardId := f.id
  ingressNodeId := ingress.nodeId
  egressNodeId := egress.nodeId
  ingressAssignmentId := P.assignmentId ingress.nodeId f.id p .relayIngress
  egressAssignmentId := P.assignmentId egress.nodeId f.id p .relayEgress
  profileId := i.profile.profileId
  forwardRevision := f.revision
  deploymentGeneration := generation
  ingressSessionEpoch := ingress.sessionEpoch
  egressSessionEpoch := egress.sessionEpoch
  ingressFence := ingressSlot.bindingFence
  egressFence := egressSlot.bindingFence
  profileRevision := i.profile.revision
  profileDigest := i.profile.configDigest

/-- The assignment of one end, with the peers of the other. -/
def relayAssignment (p : Protocol) (binding : Binding) (egressSlot : Reserved)
    (node peer : NodeFacts) (slot : Reserved) : Assignment :=
  let role : Role := if slot.resource.role=.ingress then .relayIngress else .relayEgress
  let config : RelayConfig := {
    role
    binding
    profile := i.profile.config
    peerFingerprints := (peer.peers.map Peer.fingerprint).insertionSort (·≤·)
    peerEndpoint := if role=.relayIngress then
      some ⟨i.endpoint.config.advertisedHost,egressSlot.resource.port⟩ else none
    target := if role=.relayIngress then none else some f.target
    egressPolicyRevision := node.egressPolicyRevision
    allowMetadataTargets := node.allowMetadataTargets
    allowedDestinationCidrs := distinctSorted node.allowedDestinationCidrs }
  { assignmentId := if role=.relayIngress then binding.ingressAssignmentId
      else binding.egressAssignmentId
    forwardId := f.id
    forwardRevision := f.revision
    deploymentGeneration := generation
    bindingFence := slot.bindingFence
    role
    protocol := p
    phase := .prepared
    driver := ⟨.relay,1,lib.digest (.config (.relay config)),.relay config⟩
    drainTimeoutSeconds := i.drainTimeoutSeconds
    resource := ⟨slot.resource.address,slot.resource.port,slot.resource.physicalProtocol⟩ }

/-- The assignments of one protocol, of the ingress and of the egress. -/
def relayPair (reservations : List Reserved) (p : Protocol) : Except String (Assignment×Assignment) :=
  match reservations.find? (fun s => s.resource.role=.ingress ∧ s.resource.forwardProtocol=p),
      reservations.find? (fun s => s.resource.role=.egress ∧ s.resource.forwardProtocol=p) with
  | some ingressSlot,some egressSlot => do
    let binding := relayBinding P i f generation ingress egress p ingressSlot egressSlot
    let near := relayAssignment lib i f generation p binding egressSlot ingress egress ingressSlot
    parseRelayAssignment lib ingress.nodeId ingress.sessionEpoch near
    let far := relayAssignment lib i f generation p binding egressSlot egress ingress egressSlot
    parseRelayAssignment lib egress.nodeId egress.sessionEpoch far
    return (near,far)
  | _,_ => .error "TypeError"

end Assignments

def planNodeOf (node : NodeFacts) (assignments : List Assignment) : PlanNode :=
  ⟨node.nodeId,node.sessionEpoch,
    assignments.insertionSort fun a b => a.assignmentId≤b.assignmentId⟩

/-- No credential of the two Nodes ends before this. -/
def relayUntil (nodes : List NodeFacts) : Nat :=
  (nodes.flatMap fun n => n.credentialUntil::n.peers.map Peer.validUntil).foldl min maxCounter

def compileRelayPlan (lib : Library) (P : Planner) (digest : PreparedPlan→String)
    (i : RelayPlanInput) : Except String PreparedPlan :=
  match P.parseForward i.forward with
  | none => .error "INVALID_CONFIG: Invalid Forward"
  | some f => do
    let topology ← requireTwoNodeRelayTopology P f
    reject (!i.enabled ∨ f.transport.isNone)
      "UNSUPPORTED_CAPABILITY: Enabled two-Node Relay intent required"
    match i.issuedAt with
    | none => .error "INVALID_CONFIG: Unrepresentable UTC timestamp"
    | some now =>
      reject (300 < i.drainTimeoutSeconds) "INVALID_CONFIG: Bounded drain timeout required"
      -- the two Nodes of a path have different names, so they are two records
      match i.nodes.find? (·.nodeId=topology.1.nodeId),
          i.nodes.find? (·.nodeId=topology.2.nodeId) with
      | some ingress,some egress => do
        reject (i.nodes.length≠2) "AUTHORIZATION_DENIED: Exact two Node facts required"
        nodeAuthority now ingress
        nodeAuthority now egress
        validateProfile i.profile.config
        let ports ← f.protocols.mapM (relayPort i.reservations)
        let egressPorts p := ((f.protocols.zip ports).lookup p).getD 0
        let resources ← compileRelayResources lib P f i.nodes i.profile i.endpoint egressPorts
        reject (i.reservations.length≠resources.length)
          "RESOURCE_CONFLICT: Exact reserved Relay resource set required"
        let reservations ← relayReservations i.reservations f.id none resources
        let generation := (reservations.head?.map Reserved.deploymentGeneration).getD 0
        let pairs ← f.protocols.mapM (relayPair lib P i f generation ingress egress reservations)
        let plan : PreparedPlan := {
          path := none
          endpointRevisions := none
          forwardId := f.id
          forwardRevision := f.revision
          deploymentGeneration := generation
          endpointRevision := i.endpoint.revision
          authorizationUntil := relayUntil [ingress,egress]
          nodes := [planNodeOf ingress (pairs.map Prod.fst),planNodeOf egress (pairs.map Prod.snd)]
            |>.insertionSort fun a b => a.nodeId≤b.nodeId
          planDigest := "" }
        return {plan with planDigest := digest plan}
      | _,_ => .error "AUTHORIZATION_DENIED: Exact two Node facts required"

variable {f : Forward} {x y : String} {lib : Library} {resources : List RelayResource}
  {ingress egress : NodeFacts} {i : RelayPlanInput} {rs : List Reserved} {now : Int}

theorem topology_two {assignmentId : String→String→Protocol→Role→String}
    {topology : PathNode×PathNode}
    (h : requireTwoNodeRelayTopology (planner assignmentId) f=.ok topology) :
    f.ingressNodeId=topology.1.nodeId ∧ f.via=[topology.2.nodeId] ∧
      topology.1.nodeId≠topology.2.nodeId := by
  simp only [requireTwoNodeRelayTopology,bind_ok] at h
  obtain ⟨nodes,hnodes,h⟩ := h
  unfold compilePathTopology at hnodes
  split at hnodes
  · simp at hnodes
  · next g hg =>
    have hparsed := parseForward_some hg
    simp only [do_ok,Decidable.not_not] at hnodes
    obtain ⟨-,hnodup,rfl⟩ := hnodes
    rw [hparsed.ingress,hparsed.via] at h hnodup
    cases hvia : f.via with
    | nil => simp [hvia] at h
    | cons x l =>
      cases l with
      | cons y l => simp [hvia] at h
      | nil =>
        rw [hvia] at h hnodup
        simp only [List.mapIdx_cons,List.mapIdx_nil,do_ok] at h
        obtain ⟨-,rfl⟩ := h
        exact ⟨rfl,rfl,by simpa using hnodup⟩

variable {nodes : List NodeFacts}

theorem perm_pair {a b : NodeFacts} (hxy : x≠y) (hlen : nodes.length=2)
    (ha : nodes.find? (·.nodeId=x)=some a) (hb : nodes.find? (·.nodeId=y)=some b) :
    nodes.Perm [a,b] ∧ a.nodeId=x ∧ b.nodeId=y := by
  have hax : a.nodeId=x := by simpa using List.find?_some ha
  have hby : b.nodeId=y := by simpa using List.find?_some hb
  have hne : a≠b := by
    rintro rfl
    exact hxy (hax.symm.trans hby)
  have hsub : [a,b]⊆nodes := by
    intro n hn
    rcases List.mem_cons.mp hn with rfl|hn
    · exact List.mem_of_find?_eq_some ha
    · rw [List.mem_singleton.mp hn]
      exact List.mem_of_find?_eq_some hb
  have hnodup : [a,b].Nodup := by simp [hne]
  have hperm := (hnodup.subperm hsub).perm_of_length_le (by simp [hlen])
  exact ⟨hperm.symm,hax,hby⟩

theorem compileRelayResources_ok {assignmentId : String→String→Protocol→Role→String}
    {profile : ResolvedProfile} {endpoint : ResolvedEndpoint} {egressPorts : Protocol→Nat}
    (h : compileRelayResources lib (planner assignmentId) f nodes profile endpoint egressPorts=
      .ok resources) (hin : f.ingressNodeId=x) (hvia : f.via=[y])
    (hx : nodes.find? (·.nodeId=x)=some ingress) (hy : nodes.find? (·.nodeId=y)=some egress) :
    ∃g, parseForward f=some g ∧ resources=(g.protocols.flatMap fun p =>
        relayResources g ingress egress endpoint (egressPorts p) p) ∧
      (resources.map fun r => (r.nodeId,r.physicalProtocol,r.port)).Nodup := by
  simp only [compileRelayResources,do_ok] at h
  obtain ⟨-,-,-,h⟩ := h
  split at h
  · simp at h
  · next g hg =>
    simp only [bind_ok] at h
    obtain ⟨topology,htopology,h⟩ := h
    obtain ⟨h₁,h₂,-⟩ := topology_two htopology
    have hparsed := parseForward_some hg
    rw [hparsed.ingress,hin] at h₁
    rw [hparsed.via,hvia,List.cons.injEq] at h₂
    rw [← h₁,← h₂.1,hx,hy] at h
    split at h
    · simp at h
    · simp only [do_ok,Decidable.not_not] at h
      obtain ⟨-,-,-,-,-,hnodup,rfl⟩ := h
      exact ⟨g,hg,rfl,hnodup⟩

structure RelayCompiled (lib : Library) (assignmentId : String→String→Protocol→Role→String)
    (i : RelayPlanInput) (plan : PreparedPlan) (f : Forward) (now : Int)
    (ingress egress : NodeFacts) (resources : List RelayResource) (reservations : List Reserved)
    (pairs : List (Assignment×Assignment)) : Prop where
  parsed : parseForward i.forward=some f
  issued : i.issuedAt=some now
  nodes : i.nodes.Perm [ingress,egress]
  distinct : ingress.nodeId≠egress.nodeId
  first : f.ingressNodeId=ingress.nodeId
  second : f.via=[egress.nodeId]
  near : nodeAuthority now ingress=.ok ()
  far : nodeAuthority now egress=.ok ()
  listeners : ∃g, ∃ports : Protocol→Nat, resources=(f.protocols.flatMap fun p =>
    relayResources g ingress egress i.endpoint (ports p) p)
  sockets : (resources.map fun r => (r.nodeId,r.physicalProtocol,r.port)).Nodup
  length : i.reservations.length=resources.length
  reserved : relayReservations i.reservations f.id none resources=.ok reservations
  generation : plan.deploymentGeneration=
    (reservations.head?.map Reserved.deploymentGeneration).getD 0
  built : f.protocols.mapM (relayPair lib (planner assignmentId) i f plan.deploymentGeneration
    ingress egress reservations)=.ok pairs
  forwardId : plan.forwardId=f.id
  revision : plan.forwardRevision=f.revision
  path : plan.path=none
  bound : plan.authorizationUntil=relayUntil [ingress,egress]
  planned : plan.nodes=([planNodeOf ingress (pairs.map Prod.fst),
    planNodeOf egress (pairs.map Prod.snd)].insertionSort fun a b => a.nodeId≤b.nodeId)

theorem compileRelayPlan_ok {assignmentId : String→String→Protocol→Role→String}
    {digest : PreparedPlan→String} {plan : PreparedPlan}
    (h : compileRelayPlan lib (planner assignmentId) digest i=.ok plan) :
    ∃f now ingress egress resources reservations pairs,
      RelayCompiled lib assignmentId i plan f now ingress egress resources reservations pairs ∧
      plan.planDigest=digest plan.body := by
  unfold compileRelayPlan at h
  split at h
  · simp at h
  · next f hf =>
    simp only [do_ok] at h
    obtain ⟨topology,htopology,-,h⟩ := h
    obtain ⟨hin,hvia,hxy⟩ := topology_two htopology
    split at h
    · simp at h
    · next now hnow =>
      simp only [do_ok] at h
      obtain ⟨-,h⟩ := h
      split at h
      · next ingress egress hx hy =>
        simp only [do_ok,Decidable.not_not] at h
        obtain ⟨hlen,hnear,hfar,-,ports,-,resources,hresources,hcount,reservations,hreserved,pairs,
          hpairs,rfl⟩ := h
        obtain ⟨hperm,hia,heb⟩ := perm_pair hxy hlen hx hy
        obtain ⟨g,hg,hlist,hnodup⟩ := compileRelayResources_ok hresources hin hvia hx hy
        rw [parseForward_twice hf hg] at hlist
        exact ⟨f,now,ingress,egress,resources,reservations,pairs,⟨hf,hnow,hperm,
          by rw [hia,heb]; exact hxy,hin.trans hia.symm,by rw [hvia,heb],hnear,hfar,
          ⟨g,_,hlist⟩,hnodup,hcount,hreserved,rfl,hpairs,rfl,rfl,rfl,rfl,rfl⟩,rfl⟩
      · simp at h

theorem relayReservations_ok {R : List Reserved} {forwardId : String} {generation : Option Nat}
    (h : relayReservations R forwardId generation resources=.ok rs) :
    rs.map Reserved.resource=resources ∧ (∀s∈rs, s∈R ∧ s.forwardId=forwardId) ∧
      ∀s∈rs, s.deploymentGeneration=
        generation.getD ((rs.head?.map Reserved.deploymentGeneration).getD 0) := by
  induction resources generalizing generation rs with
  | nil =>
    simp only [relayReservations,Except.ok.injEq] at h
    simp [← h]
  | cons resource l ih =>
    unfold relayReservations at h
    split at h
    · next slot hslot =>
      simp only [do_ok,Decidable.not_not] at h
      obtain ⟨-,hgen,rest,hrest,rfl⟩ := h
      obtain ⟨hmap,hfrom,hall⟩ := ih hrest
      have hmem : slot∈R.filter fun s => s.resource=resource ∧ s.forwardId=forwardId := by
        rw [hslot]
        exact List.mem_singleton_self slot
      simp only [List.mem_filter,decide_eq_true_eq] at hmem
      refine ⟨by rw [List.map_cons,hmap,hmem.2.1],?_,?_⟩
      · exact List.forall_mem_cons.mpr ⟨⟨hmem.1,hmem.2.2⟩,hfrom⟩
      · simp only [Option.getD_some] at hall
        simp only [List.head?_cons,Option.map_some,Option.getD_some]
        exact List.forall_mem_cons.mpr ⟨hgen,hall⟩
    · simp at h

/-- The two assignments of one protocol, with the reservations of their listeners. -/
structure RelayHop (lib : Library) (assignmentId : String→String→Protocol→Role→String)
    (i : RelayPlanInput) (f : Forward) (generation : Nat) (ingress egress : NodeFacts)
    (rs : List Reserved) (p : Protocol) (s t : Reserved) (near far : Assignment) : Prop where
  inSlot : rs.find? (fun s => s.resource.role=.ingress ∧ s.resource.forwardProtocol=p)=some s
  outSlot : rs.find? (fun s => s.resource.role=.egress ∧ s.resource.forwardProtocol=p)=some t
  nearIs : near=relayAssignment lib i f generation p
    (relayBinding (planner assignmentId) i f generation ingress egress p s t) t ingress egress s
  farIs : far=relayAssignment lib i f generation p
    (relayBinding (planner assignmentId) i f generation ingress egress p s t) t egress ingress t
  nearOk : parseRelayAssignment lib ingress.nodeId ingress.sessionEpoch near=.ok ()
  farOk : parseRelayAssignment lib egress.nodeId egress.sessionEpoch far=.ok ()

theorem relayPair_ok {assignmentId : String→String→Protocol→Role→String} {generation : Nat}
    {p : Protocol} {pair : Assignment×Assignment}
    (h : relayPair lib (planner assignmentId) i f generation ingress egress rs p=.ok pair) :
    ∃s t, RelayHop lib assignmentId i f generation ingress egress rs p s t pair.1 pair.2 := by
  unfold relayPair at h
  split at h
  · next s t hs ht =>
    simp only [do_ok] at h
    obtain ⟨hnear,hfar,rfl⟩ := h
    exact ⟨s,t,hs,ht,rfl,rfl,hnear,hfar⟩
  · simp at h

section Compiled

variable {assignmentId : String→String→Protocol→Role→String} {generation : Nat} {p : Protocol}
  {s t : Reserved} {near far : Assignment} {plan : PreparedPlan}
  {pairs : List (Assignment×Assignment)}

namespace RelayHop

section

variable (h : RelayHop lib assignmentId i f generation ingress egress rs p s t near far)
include h

theorem in_role : s∈rs ∧ s.resource.role=.ingress ∧ s.resource.forwardProtocol=p := by
  refine ⟨List.mem_of_find?_eq_some h.inSlot,?_⟩
  simpa using List.find?_some h.inSlot

theorem out_role : t∈rs ∧ t.resource.role=.egress ∧ t.resource.forwardProtocol=p := by
  refine ⟨List.mem_of_find?_eq_some h.outSlot,?_⟩
  simpa using List.find?_some h.outSlot

theorem near_config : near.role=.relayIngress ∧ ∃c, near.driver.config=.relay c ∧
      c.binding=relayBinding (planner assignmentId) i f generation ingress egress p s t ∧
      c.peerFingerprints=(egress.peers.map Peer.fingerprint).insertionSort (·≤·) := by
  rw [h.nearIs]
  exact ⟨by simp [relayAssignment,h.in_role.2.1],_,rfl,rfl,rfl⟩

theorem far_config : far.role=.relayEgress ∧ ∃c, far.driver.config=.relay c ∧
      c.binding=relayBinding (planner assignmentId) i f generation ingress egress p s t ∧
      c.peerFingerprints=(ingress.peers.map Peer.fingerprint).insertionSort (·≤·) := by
  rw [h.farIs]
  exact ⟨by simp [relayAssignment,h.out_role.2.1],_,rfl,rfl,rfl⟩

end

end RelayHop

/-- The reservation that an assignment of a Node uses. -/
def usedReservation (nodeId : String) (a : Assignment) : Reserved :=
  ⟨⟨nodeId,if a.role=.relayIngress then .ingress else .egress,a.protocol,a.resource.protocol,
    a.resource.address,a.resource.port⟩,a.forwardId,a.bindingFence,a.deploymentGeneration⟩

namespace RelayCompiled

section

variable (h : RelayCompiled lib assignmentId i plan f now ingress egress resources rs pairs)
include h

theorem protocols_nodup : f.protocols.Nodup := by
  rw [(parseForward_some h.parsed).protocols]
  exact List.Nodup.filter _ (by decide)

theorem hop {pair : Assignment×Assignment} (hpair : pair∈pairs) : ∃p∈f.protocols, ∃s t,
      RelayHop lib assignmentId i f plan.deploymentGeneration ingress egress rs p s t pair.1
        pair.2 := by
  obtain ⟨p,hp,hbuilt⟩ := mem_mapM_ok h.built hpair
  exact ⟨p,hp,relayPair_ok hbuilt⟩

theorem listener {r : RelayResource} (hr : r∈resources) :
    r.role=.ingress ∧ r.nodeId=ingress.nodeId ∨ r.role=.egress ∧ r.nodeId=egress.nodeId := by
  obtain ⟨g,ports,hlist⟩ := h.listeners
  rw [hlist] at hr
  obtain ⟨p,-,hr⟩ := List.mem_flatMap.mp hr
  simp only [relayResources,mem_list] at hr
  rcases hr with rfl|rfl
  · exact .inl ⟨rfl,rfl⟩
  · exact .inr ⟨rfl,rfl⟩

theorem slot (hs : s∈rs) : s.resource∈resources ∧ s∈i.reservations ∧ s.forwardId=f.id ∧
      s.deploymentGeneration=plan.deploymentGeneration := by
  obtain ⟨hmap,hfrom,hgen⟩ := relayReservations_ok h.reserved
  have hmem := List.mem_map_of_mem (f := Reserved.resource) hs
  rw [hmap] at hmem
  exact ⟨hmem,(hfrom s hs).1,(hfrom s hs).2,by rw [h.generation]; exact hgen s hs⟩

theorem used_near
    (k : RelayHop lib assignmentId i f plan.deploymentGeneration ingress egress rs p s t near far) :
    usedReservation ingress.nodeId near=s := by
  obtain ⟨hs,hrole,hproto⟩ := k.in_role
  obtain ⟨hr,-,hid,hgen⟩ := h.slot hs
  rcases h.listener hr with ⟨-,hnode⟩|⟨he,-⟩
  · have hnear := k.near_config.1
    unfold usedReservation
    rw [if_pos hnear,k.nearIs]
    simp only [relayAssignment,← hrole,← hproto,← hnode,← hid,← hgen]
  · rw [hrole] at he
    cases he

theorem used_far
    (k : RelayHop lib assignmentId i f plan.deploymentGeneration ingress egress rs p s t near far) :
    usedReservation egress.nodeId far=t := by
  obtain ⟨ht,hrole,hproto⟩ := k.out_role
  obtain ⟨hr,-,hid,hgen⟩ := h.slot ht
  rcases h.listener hr with ⟨he,-⟩|⟨-,hnode⟩
  · rw [hrole] at he
    cases he
  · have hfar := k.far_config.1
    unfold usedReservation
    rw [if_neg (by simp [hfar]),k.farIs]
    simp only [relayAssignment,← hrole,← hproto,← hnode,← hid,← hgen]

theorem reserved_perm : rs.Perm i.reservations ∧ rs.Nodup := by
  have hmap := (relayReservations_ok h.reserved).1
  have hnodup : rs.Nodup := by
    apply List.Nodup.of_map Reserved.resource
    rw [hmap]
    exact h.sockets.of_map _
  have hlen : rs.length=resources.length := by rw [← hmap,List.length_map]
  have hsub : rs⊆i.reservations := fun s hs => (h.slot hs).2.1
  refine ⟨(hnodup.subperm hsub).perm_of_length_le ?_,hnodup⟩
  rw [h.length,hlen]

theorem resources_length : resources.length=pairs.length+pairs.length := by
  obtain ⟨g,ports,hlist⟩ := h.listeners
  have hpairs := (forall₂_mapM_ok h.built).length_eq
  rw [hlist,List.length_flatMap]
  simp only [relayResources,List.length_cons,List.length_nil,List.map_const',List.sum_replicate,
    smul_eq_mul]
  omega

theorem used_keys :
    (pairs.map fun x => (usedReservation ingress.nodeId x.1).resource.forwardProtocol)=f.protocols ∧
    (pairs.map fun x => (usedReservation egress.nodeId x.2).resource.forwardProtocol)=f.protocols := by
  have hbuilt := forall₂_mapM_ok h.built
  constructor
  all_goals
    apply Eq.symm
    rw [← List.forall₂_eq_eq_eq,List.forall₂_map_right_iff]
    apply hbuilt.imp
    intro p x hx
    obtain ⟨s,t,hop⟩ := relayPair_ok hx
  · rw [h.used_near hop,hop.in_role.2.2]
  · rw [h.used_far hop,hop.out_role.2.2]

theorem used_perm : ((pairs.map fun x => usedReservation ingress.nodeId x.1)++
      pairs.map fun x => usedReservation egress.nodeId x.2).Perm rs := by
  obtain ⟨hin,hout⟩ := h.used_keys
  have hnodup : ((pairs.map fun x => usedReservation ingress.nodeId x.1)++
      pairs.map fun x => usedReservation egress.nodeId x.2).Nodup := by
    rw [List.nodup_append]
    refine ⟨?_,?_,?_⟩
    · apply List.Nodup.of_map fun s : Reserved => s.resource.forwardProtocol
      rw [List.map_map]
      exact hin.symm ▸ h.protocols_nodup
    · apply List.Nodup.of_map fun s : Reserved => s.resource.forwardProtocol
      rw [List.map_map]
      exact hout.symm ▸ h.protocols_nodup
    · -- the two ends have different roles
      intro u hu v hv huv
      obtain ⟨x,hx,rfl⟩ := List.mem_map.mp hu
      obtain ⟨y,hy,rfl⟩ := List.mem_map.mp hv
      obtain ⟨p,-,s,t,hop⟩ := h.hop hx
      obtain ⟨q,-,s',t',hop'⟩ := h.hop hy
      have hrole := congrArg (fun s : Reserved => s.resource.role) huv
      simp only [usedReservation,hop.near_config.1,hop'.far_config.1] at hrole
      cases hrole
  have hsub : ((pairs.map fun x => usedReservation ingress.nodeId x.1)++
      pairs.map fun x => usedReservation egress.nodeId x.2)⊆rs := by
    intro u hu
    rcases List.mem_append.mp hu with hu|hu
    · obtain ⟨x,hx,rfl⟩ := List.mem_map.mp hu
      obtain ⟨p,-,s,t,hop⟩ := h.hop hx
      rw [h.used_near hop]
      exact hop.in_role.1
    · obtain ⟨x,hx,rfl⟩ := List.mem_map.mp hu
      obtain ⟨p,-,s,t,hop⟩ := h.hop hx
      rw [h.used_far hop]
      exact hop.out_role.1
  apply (hnodup.subperm hsub).perm_of_length_le
  have hlen : rs.length=resources.length := by
    rw [← (relayReservations_ok h.reserved).1,List.length_map]
  rw [hlen,h.resources_length,List.length_append,List.length_map,List.length_map]

theorem planned_perm : plan.nodes.Perm [planNodeOf ingress (pairs.map Prod.fst),
      planNodeOf egress (pairs.map Prod.snd)] := by
  rw [h.planned]
  exact List.perm_insertionSort _ _

theorem member {n : PlanNode} (hn : n∈plan.nodes) {a : Assignment} (ha : a∈n.assignments) :
    ∃p∈f.protocols, ∃s t near far,
      RelayHop lib assignmentId i f plan.deploymentGeneration ingress egress rs p s t near far ∧
      (n.nodeId=ingress.nodeId ∧ n.sessionEpoch=ingress.sessionEpoch ∧ a=near ∨
        n.nodeId=egress.nodeId ∧ n.sessionEpoch=egress.sessionEpoch ∧ a=far) := by
  have hmem := h.planned_perm.mem_iff.mp hn
  simp only [mem_list] at hmem
  rcases hmem with rfl|rfl
  all_goals
    have hin := (List.perm_insertionSort _ _).mem_iff.mp ha
    obtain ⟨x,hx,rfl⟩ := List.mem_map.mp hin
    obtain ⟨p,hp,s,t,hop⟩ := h.hop hx
  · exact ⟨p,hp,s,t,x.1,x.2,hop,.inl ⟨rfl,rfl,rfl⟩⟩
  · exact ⟨p,hp,s,t,x.1,x.2,hop,.inr ⟨rfl,rfl,rfl⟩⟩

end

end RelayCompiled

theorem nodeAuthority_ok {node : NodeFacts} (h : nodeAuthority now node=.ok ()) :
    node.credentialUntil ≤ maxCounter ∧ now<node.credentialUntil ∧ ∀p∈node.peers, now<p.validUntil := by
  simp only [nodeAuthority,do_ok,not_or,not_exists,not_and] at h
  obtain ⟨⟨-,hmax,huntil,-,-⟩,-,hpeers⟩ := h
  exact ⟨Nat.not_lt.mp hmax,Int.not_le.mp huntil,fun p hp => Int.not_le.mp (hpeers p hp).2.2⟩

theorem relayUntil_le {n : NodeFacts} (hn : n∈nodes) :
    relayUntil nodes≤n.credentialUntil ∧ ∀p∈n.peers, relayUntil nodes≤p.validUntil := by
  have hall := (foldl_min_le (nodes.flatMap fun n => n.credentialUntil::n.peers.map Peer.validUntil)
    maxCounter).2
  refine ⟨hall _ (List.mem_flatMap.mpr ⟨n,hn,List.mem_cons_self⟩),?_⟩
  intro p hp
  exact hall _ (List.mem_flatMap.mpr ⟨n,hn,List.mem_cons_of_mem _ (List.mem_map_of_mem hp)⟩)

theorem lt_relayUntil {first : NodeFacts} (h : ∀n∈first::nodes, nodeAuthority now n=.ok ()) :
    now<relayUntil (first::nodes) := by
  rcases foldl_min_mem ((first::nodes).flatMap fun n =>
    n.credentialUntil::n.peers.map Peer.validUntil) maxCounter with hm|hm
  · have hfirst := nodeAuthority_ok (h first List.mem_cons_self)
    have hle : (first.credentialUntil : Int) ≤ maxCounter := by exact_mod_cast hfirst.1
    unfold relayUntil
    rw [hm]
    omega
  · obtain ⟨n,hn,hx⟩ := List.mem_flatMap.mp hm
    have hnode := nodeAuthority_ok (h n hn)
    rw [relayUntil]
    rcases List.mem_cons.mp hx with hx|hx
    · rw [hx]
      exact hnode.2.1
    · obtain ⟨p,hp,hx⟩ := List.mem_map.mp hx
      rw [← hx]
      exact hnode.2.2 p hp

theorem sortedStrings_pairwise {l : List String} (h : sortedStrings l) : l.Pairwise (·<·) := by
  induction l with
  | nil => exact List.Pairwise.nil
  | cons a l ih =>
    cases l with
    | nil => exact List.pairwise_singleton _ a
    | cons b l =>
      simp only [sortedStrings,bool_ok] at h
      have htail := ih h.2
      rw [List.pairwise_cons]
      refine ⟨?_,htail⟩
      intro x hx
      rcases List.mem_cons.mp hx with rfl|hx
      · exact h.1
      · exact lt_trans h.1 (List.rel_of_pairwise_cons htail hx)

/-- The Node at the other end of a Relay assignment. -/
def peerNodeId (a : Assignment) (c : RelayConfig) : String :=
  if a.role=.relayIngress then c.binding.egressNodeId else c.binding.ingressNodeId

/-- A two-Node plan whose parts fit together. -/
structure RelayConsistent (lib : Library) (i : RelayPlanInput) (f : Forward) (now : Int)
    (plan : PreparedPlan) : Prop where
  nodes : (plan.nodes.map PlanNode.nodeId).Perm (i.nodes.map NodeFacts.nodeId)
  protocols : ∀n∈plan.nodes, (n.assignments.map Assignment.protocol).Perm f.protocols
  binding : ∀m∈plan.nodes, ∀n∈plan.nodes, ∀a∈m.assignments, ∀b∈n.assignments,
    a.protocol=b.protocol→∃c d, a.driver.config=.relay c ∧ b.driver.config=.relay d ∧
      c.binding=d.binding
  side : ∀n∈plan.nodes, ∀a∈n.assignments, ∃c, a.driver.config=.relay c ∧
    (relayEnd a c).node=n.nodeId ∧ (relayEnd a c).epoch=n.sessionEpoch ∧
    (relayEnd a c).fence=a.bindingFence ∧ (relayEnd a c).assignment=a.assignmentId
  pins : ∀n∈plan.nodes, ∀a∈n.assignments, ∃c, a.driver.config=.relay c ∧
    c.peerFingerprints.Pairwise (·<·) ∧ ∃peer∈i.nodes, peer.nodeId=peerNodeId a c ∧
      peer.nodeId≠n.nodeId ∧ ∀x, x∈c.peerFingerprints ↔ ∃p∈peer.peers, p.fingerprint=x
  generation : ∀n∈plan.nodes, ∀a∈n.assignments, a.deploymentGeneration=plan.deploymentGeneration
  reservations : i.reservations.Nodup ∧ (plan.nodes.flatMap fun n =>
    n.assignments.map (usedReservation n.nodeId)).Perm i.reservations
  bounded : ∀n∈i.nodes, plan.authorizationUntil≤n.credentialUntil ∧
    ∀p∈n.peers, plan.authorizationUntil≤p.validUntil
  issued : now<plan.authorizationUntil
  agent : ∀n∈plan.nodes, ∀a∈n.assignments, parseRelay lib n.nodeId n.sessionEpoch a=.ok ()

namespace RelayCompiled

variable {n : PlanNode} {a : Assignment}

section

variable (h : RelayCompiled lib assignmentId i plan f now ingress egress resources rs pairs)
include h

theorem accepted (hn : n∈plan.nodes) (ha : a∈n.assignments) :
    ∃c, RelayAccepted lib n.nodeId n.sessionEpoch a c := by
  obtain ⟨p,-,s,t,near,far,hop,⟨hid,hep,rfl⟩|⟨hid,hep,rfl⟩⟩ := h.member hn ha
  · rw [hid,hep]
    exact parseRelayAssignment_ok hop.nearOk
  · rw [hid,hep]
    exact parseRelayAssignment_ok hop.farOk

theorem member_config (hn : n∈plan.nodes) (ha : a∈n.assignments) :
    ∃s t c peer, rs.find? (fun s => s.resource.role=.ingress ∧
        s.resource.forwardProtocol=a.protocol)=some s ∧
      rs.find? (fun s => s.resource.role=.egress ∧ s.resource.forwardProtocol=a.protocol)=some t ∧
      a.driver.config=.relay c ∧ c.binding=relayBinding (planner assignmentId) i f
        plan.deploymentGeneration ingress egress a.protocol s t ∧ peer∈i.nodes ∧
      peer.nodeId=peerNodeId a c ∧ peer.nodeId≠n.nodeId ∧
      c.peerFingerprints=(peer.peers.map Peer.fingerprint).insertionSort (·≤·) ∧
      a.deploymentGeneration=plan.deploymentGeneration := by
  obtain ⟨p,-,s,t,near,far,hop,⟨hid,hep,rfl⟩|⟨hid,hep,rfl⟩⟩ := h.member hn ha
  · obtain ⟨hrole,c,hc,hb,hpins⟩ := hop.near_config
    have hp : a.protocol=p := by rw [hop.nearIs]; rfl
    have hg : a.deploymentGeneration=plan.deploymentGeneration := by rw [hop.nearIs]; rfl
    rw [hp]
    refine ⟨s,t,c,egress,hop.inSlot,hop.outSlot,hc,hb,h.nodes.mem_iff.mpr (by simp),?_,?_,hpins,hg⟩
    · rw [peerNodeId,if_pos hrole,hb]
      rfl
    · rw [hid]
      exact h.distinct.symm
  · obtain ⟨hrole,c,hc,hb,hpins⟩ := hop.far_config
    have hp : a.protocol=p := by rw [hop.farIs]; rfl
    have hg : a.deploymentGeneration=plan.deploymentGeneration := by rw [hop.farIs]; rfl
    rw [hp]
    refine ⟨s,t,c,ingress,hop.inSlot,hop.outSlot,hc,hb,h.nodes.mem_iff.mpr (by simp),?_,?_,hpins,hg⟩
    · rw [peerNodeId,if_neg (by simp [hrole]),hb]
      rfl
    · rw [hid]
      exact h.distinct

theorem used_plan :
    (plan.nodes.flatMap fun n => n.assignments.map (usedReservation n.nodeId)).Perm rs := by
  apply (h.planned_perm.flatMap_right _).trans
  apply List.Perm.trans _ h.used_perm
  simp only [planNodeOf,List.flatMap_cons,List.flatMap_nil,List.append_nil]
  apply List.Perm.append
  · have hperm := (List.perm_insertionSort (fun a b : Assignment => a.assignmentId≤b.assignmentId)
      (pairs.map Prod.fst)).map (usedReservation ingress.nodeId)
    rwa [List.map_map] at hperm
  · have hperm := (List.perm_insertionSort (fun a b : Assignment => a.assignmentId≤b.assignmentId)
      (pairs.map Prod.snd)).map (usedReservation egress.nodeId)
    rwa [List.map_map] at hperm

theorem planned_protocols (hn : n∈plan.nodes) :
    (n.assignments.map Assignment.protocol).Perm f.protocols := by
  obtain ⟨hin,hout⟩ := h.used_keys
  have hmem := h.planned_perm.mem_iff.mp hn
  simp only [mem_list] at hmem
  rcases hmem with rfl|rfl
  · have hperm := (List.perm_insertionSort (fun a b : Assignment => a.assignmentId≤b.assignmentId)
      (pairs.map Prod.fst)).map Assignment.protocol
    rw [List.map_map] at hperm
    exact hin ▸ hperm
  · have hperm := (List.perm_insertionSort (fun a b : Assignment => a.assignmentId≤b.assignmentId)
      (pairs.map Prod.snd)).map Assignment.protocol
    rw [List.map_map] at hperm
    exact hout ▸ hperm

end

end RelayCompiled

/-- Two-Node plans are consistent. -/
theorem relay_plan_consistent (lib : Library) (hnet : Netip lib)
    (assignmentId : String→String→Protocol→Role→String) (digest : PreparedPlan→String)
    (i : RelayPlanInput) (plan : PreparedPlan)
    (hplan : compileRelayPlan lib (planner assignmentId) digest i=.ok plan) :
    ∃f now, parseForward i.forward=some f ∧ i.issuedAt=some now ∧
      RelayConsistent lib i f now plan := by
  obtain ⟨f,now,ingress,egress,resources,rs,pairs,h,-⟩ := compileRelayPlan_ok hplan
  refine ⟨f,now,h.parsed,h.issued,?_⟩
  constructor
  · apply (h.planned_perm.map PlanNode.nodeId).trans
    exact (h.nodes.map NodeFacts.nodeId).symm
  · exact fun n hn => h.planned_protocols hn
  · intro m hm n hn a ha b hb hproto
    obtain ⟨s,t,c,-,hs,ht,hc,hbind,-⟩ := h.member_config hm ha
    obtain ⟨s',t',d,-,hs',ht',hd,hbind',-⟩ := h.member_config hn hb
    rw [hproto,hs'] at hs
    rw [hproto,ht'] at ht
    obtain rfl := Option.some.inj hs
    obtain rfl := Option.some.inj ht
    exact ⟨c,d,hc,hd,by rw [hbind,hbind',hproto]⟩
  · intro n hn a ha
    obtain ⟨c,hok⟩ := h.accepted hn ha
    exact ⟨c,hok.config,hok.node.symm,hok.epoch.symm,hok.fence.symm,hok.assignment.symm⟩
  · intro n hn a ha
    obtain ⟨c,hok⟩ := h.accepted hn ha
    obtain ⟨s,t,c',peer,-,-,hc,-,hpeer,hid,hne,hpins,-⟩ := h.member_config hn ha
    obtain rfl : c=c' := RuntimeConfig.relay.inj (hok.config.symm.trans hc)
    refine ⟨c,hc,sortedStrings_pairwise hok.pins,peer,hpeer,hid,hne,?_⟩
    intro x
    rw [hpins,(List.perm_insertionSort _ _).mem_iff,List.mem_map]
  · intro n hn a ha
    obtain ⟨-,-,-,-,-,-,-,-,-,-,-,-,hgen⟩ := h.member_config hn ha
    exact hgen
  · obtain ⟨hperm,hnodup⟩ := h.reserved_perm
    exact ⟨hperm.nodup_iff.mp hnodup,h.used_plan.trans hperm⟩
  · intro n hn
    rw [h.bound]
    exact relayUntil_le (h.nodes.mem_iff.mp hn)
  · rw [h.bound]
    apply lt_relayUntil
    exact List.forall_mem_cons.mpr ⟨h.near,by simpa using h.far⟩
  · intro n hn a ha
    obtain ⟨c,hok⟩ := h.accepted hn ha
    exact hok.agent hnet

end Compiled

namespace RelaySample

def assignmentId (node _forward : String) (p : Protocol) (_role : Role) : String :=
  "a:"++node++"."++p.text

def facts (name : String) (c : Char) : NodeFacts :=
  {Sample.facts name c with
    capabilities := ["adp.3","native.relay.v1","relay.wire.1","tcp","udp"]
    allowedPorts := [9000]}

def reserved (name : String) (role : PathRole) (p physical : Protocol) (address : String)
    (port : Nat) : Reserved := ⟨⟨name,role,p,physical,address,port⟩,"f1",1,4⟩

def profile : ProfileConfig := { Sample.profile with protocols := [.tcp,.udp] }

/-- A Forward of both protocols over two Nodes. -/
def input : RelayPlanInput where
  forward := ⟨"f1","s1",1,[.udp,.tcp],"n2",⟨"10.0.0.1",9000⟩,["n1"],some ("p1",1),
    ⟨"db.example",5432⟩⟩
  enabled := true
  nodes := [facts "n1" 'a',facts "n2" 'b']
  profile := ⟨"p1",1,Sample.library.digest (.profile profile),profile⟩
  endpoint := ⟨"n1",1,⟨"hop.example","10.0.0.2",[9100,9200]⟩⟩
  reservations := [reserved "n2" .ingress .tcp .tcp "10.0.0.1" 9000,
    reserved "n1" .egress .tcp .tcp "10.0.0.2" 9100,reserved "n2" .ingress .udp .udp "10.0.0.1" 9000,
    reserved "n1" .egress .udp .tcp "10.0.0.2" 9200]
  issuedAt := some 0
  drainTimeoutSeconds := 30

def shape (r : Except String PreparedPlan) : Option (List (String×List String)) :=
  r.toOption.map fun plan => plan.nodes.map fun n =>
    (n.nodeId,n.assignments.map Assignment.assignmentId)

theorem input_shape :
    shape (compileRelayPlan Sample.library (planner assignmentId) (fun _ => Sample.hash) input)=
      some [("n1",["a:n1.tcp","a:n1.udp"]),("n2",["a:n2.tcp","a:n2.udp"])] := by
  decide +kernel

end RelaySample

open RelaySample in
/-- The plan of a Forward over two Nodes, with both protocols on each. -/
theorem relay_plan_consistent_two :
    ∃plan, compileRelayPlan Sample.library (planner assignmentId) (fun _ => Sample.hash) input=
        .ok plan ∧
      plan.nodes.map (fun n => (n.nodeId,n.assignments.map Assignment.assignmentId))=
        [("n1",["a:n1.tcp","a:n1.udp"]),("n2",["a:n2.tcp","a:n2.udp"])] ∧
      ∃f now, parseForward input.forward=some f ∧ input.issuedAt=some now ∧
        RelayConsistent Sample.library input f now plan := by
  have hshape := input_shape
  unfold shape at hshape
  obtain ⟨plan,hplan,hnodes⟩ := Option.map_eq_some_iff.mp hshape
  rw [toOption_ok] at hplan
  exact ⟨plan,hplan,hnodes,relay_plan_consistent Sample.library Sample.library_netip assignmentId _
    input plan hplan⟩

end TuneX.Contracts
