import TuneX.Agent.RelayMessage
import TuneX.Framework.Result
import Mathlib.Tactic.ByContra

namespace TuneX.Agent

open Framework

namespace Library

variable (lib : Library)

def hostLabel (label : List Char) : Bool :=
  label.all (fun c => c.isLower || c.isDigit || c == '-') && label.head? != none &&
    label.head? != some '-' && label.getLast? != some '-'

def hostLabels (host : List Char) : Bool :=
  (host.splitOn '.').all fun label => decide (label.length≤63) && hostLabel label

def numericHost (host : List Char) : Bool := host.all fun c => c.isDigit || c == '.'

/-- `normalizedHost` of the contracts package. -/
def normalizedHost (host : String) : Option String :=
  if host.toList.any (fun c => 127<c.toNat) then none
  else
    match lib.parseAddr host with
    | some addr => if addr.zone≠"" ∨ addr.unspecified then none else some addr.text
    | none =>
      let lower := host.toList.map Char.toLower
      let normalized := if lower.getLast?=some '.' then lower.dropLast else lower
      if 253<normalized.length ∨ numericHost normalized ∨ ¬hostLabels normalized then none
      else some (String.ofList normalized)

def canonicalHost (host : String) : Bool := lib.normalizedHost host=some host

/-- `canonicalHost` of the Relay package, which has its own copy of the rules. -/
def relayHost (host : String) : Bool :=
  match lib.parseAddr host with
  | some addr => addr.zone == "" && !addr.unspecified && addr.text==host
  | none =>
    host.toList.all (fun c => c.toLower==c) && host.toList.getLast? != some '.' &&
      !numericHost host.toList && decide (host.length≤253) && hostLabels host.toList

def canonicalAddress (address : String) : Bool :=
  match lib.parseAddr address with
  | some addr => addr.zone == "" && addr.text==address
  | none => false

def validCIDR (value : String) : Bool :=
  match value.toList.splitOn '/' with
  | [_,bits] =>
    !bits.isEmpty && !(decide (1<bits.length) && bits.head?==some '0') && bits.all Char.isDigit &&
      match lib.parsePrefix value with
      | some net => net.masked && net.zone == ""
      | none => false
  | _ => false

/-- `compareTimes`: seconds first, then the fractions padded to one length. -/
def compareTimes (left right : String) : Option Ordering :=
  match lib.utcInstant left,lib.utcInstant right with
  | some (a,af),some (b,bf) =>
    if a<b then some .lt
    else if b<a then some .gt
    else
      let length := max af.length bf.length
      some (compareOfLessAndEq (af++List.replicate (length-af.length) '0')
        (bf++List.replicate (length-bf.length) '0'))
  | _,_ => none

end Library

def counterOk (n : Nat) : Bool := decide (1≤n) && decide (n ≤ maxCounter)

def portOk (n : Nat) : Bool := decide (1≤n) && decide (n≤65535)

def idOk (s : String) : Bool :=
  decide (s.length≤128) &&
    match s.toList with
    | [] => false
    | c::cs => c.isAlphanum &&
        cs.all fun c => c.isAlphanum || c == '.' || c == '_' || c == ':' || c == '-'

def hexLower (c : Char) : Bool := c.isDigit || (decide ('a' ≤ c) && decide (c ≤ 'f'))

def digestOk (s : String) : Bool :=
  s.toList.take 7 == "sha256:".toList && decide ((s.toList.drop 7).length=64) &&
    (s.toList.drop 7).all hexLower

def targetOk (t : Target) : Bool :=
  decide (1≤t.host.length) && decide (t.host.length≤253) && portOk t.port &&
    t.host.toList.all fun c => c.isAlphanum || c == '.' || c == ':' || c == '-'

def cidrsOk (l : List String) : Bool :=
  decide (1≤l.length) && decide (l.length≤256) && decide l.Nodup &&
    l.all fun s => decide (3 ≤ s.length) && decide (s.length≤64)

def directConfigOk (c : DirectConfig) : Bool :=
  targetOk c.target && counterOk c.egressPolicyRevision && cidrsOk c.allowedDestinationCidrs

def bindingOk (b : Binding) : Bool :=
  [b.scopeId,b.forwardId,b.ingressNodeId,b.egressNodeId,b.ingressAssignmentId,
    b.egressAssignmentId,b.profileId].all idOk &&
  [b.forwardRevision,b.deploymentGeneration,b.ingressSessionEpoch,b.egressSessionEpoch,
    b.ingressFence,b.egressFence,b.profileRevision].all counterOk && digestOk b.profileDigest

def profileOk (p : ProfileConfig) : Bool :=
  p.driver == "native.relay.v1" && p.wireVersion==1 && p.security == "mutual-tls13" &&
  decide (1≤p.protocols.length) && decide p.protocols.Nodup &&
  decide (1≤p.handshakeTimeoutSeconds) && decide (p.handshakeTimeoutSeconds≤10) &&
  decide (1≤p.idleTimeoutSeconds) && decide (p.idleTimeoutSeconds≤300) &&
  decide (64≤p.maxFrameBytes) && decide (p.maxFrameBytes≤65536) &&
  decide (1≤p.maxUdpDatagramBytes) && decide (p.maxUdpDatagramBytes≤16384) &&
  decide (1≤p.maxConnectionsPerNode) && decide (p.maxConnectionsPerNode≤4096)

def relayConfigOk (c : RelayConfig) : Bool :=
  (c.role==.relayIngress || c.role==.relayEgress) && bindingOk c.binding && profileOk c.profile &&
  decide (1 ≤ c.peerFingerprints.length) && decide (c.peerFingerprints.length≤2) &&
  decide c.peerFingerprints.Nodup && c.peerFingerprints.all digestOk &&
  c.peerEndpoint.all targetOk && c.target.all targetOk &&
  counterOk c.egressPolicyRevision && cidrsOk c.allowedDestinationCidrs

def hopNodeOk (n : HopNode) : Bool :=
  idOk n.nodeId && idOk n.assignmentId && counterOk n.sessionEpoch && counterOk n.bindingFence &&
  digestOk n.peerFingerprint && decide (2≤n.listenAddress.length) &&
  decide (n.listenAddress.length≤128) && decide (1≤n.host.length) && decide (n.host.length≤253) &&
  portOk n.port

def hopConfigOk (h : HopConfig) : Bool :=
  [h.scopeId,h.forwardId,h.profileId].all idOk &&
  [h.forwardRevision,h.deploymentGeneration,h.profileRevision,h.egressPolicyRevision].all
    counterOk &&
  digestOk h.profileDigest && digestOk h.pathDigest && decide (h.hopIndex≤7) &&
  decide (3≤h.path.length) && decide (h.path.length≤8) && h.path.all hopNodeOk &&
  profileOk h.profile && targetOk h.target && cidrsOk h.allowedDestinationCidrs

/-- The identifier of a driver decides the shape of its configuration; the multi-hop
driver exists only in the schema of the execution extension. -/
def driverOk (extended : Bool) (d : Driver) : Bool :=
  d.schemaVersion==1 && digestOk d.configDigest &&
    match d.id,d.config with
    | .direct,.direct c => directConfigOk c
    | .relay,.relay c => relayConfigOk c
    | .multihop,.multihop h => extended && hopConfigOk h
    | _,_ => false

def roleOk (extended : Bool) : Role→Bool
  | .direct | .relayIngress | .relayEgress => true
  | .multihopIngress | .multihopTransit | .multihopEgress => extended

def resourceOk (lib : Library) (r : Resource) : Bool := lib.ipFormat r.address && portOk r.port

def assignmentOk (lib : Library) (extended : Bool) (a : Assignment) : Bool :=
  idOk a.assignmentId && idOk a.forwardId && counterOk a.forwardRevision &&
  counterOk a.deploymentGeneration && counterOk a.bindingFence && roleOk extended a.role &&
  driverOk extended a.driver && decide (a.drainTimeoutSeconds≤300) && resourceOk lib a.resource

def tombstoneOk (extended : Bool) (t : Tombstone) : Bool :=
  idOk t.assignmentId && idOk t.forwardId && portOk t.port && counterOk t.bindingFence &&
  counterOk t.retirementGeneration && roleOk extended t.role

def timeOk (lib : Library) (s : String) : Bool :=
  lib.dateTime s && s.toList.getLast?==some 'Z'

def snapshotOk (lib : Library) (s : Snapshot) : Bool :=
  let extended := s.executionExtension.isSome
  s.protocolVersion==3 && idOk s.nodeId && counterOk s.sessionEpoch &&
  counterOk s.snapshotGeneration && s.complete && timeOk lib s.issuedAt &&
  timeOk lib s.validUntil && digestOk s.snapshotDigest && decide (s.assignments.length≤1000) &&
  decide (s.tombstones.length≤100000) && s.assignments.all (assignmentOk lib extended) &&
  s.tombstones.all (tombstoneOk extended) && s.executionExtension.all (·==1)

/-- The ADP/2 revalidation of one Direct assignment. -/
def validateDirect (lib : Library) (s : Snapshot) (a : Assignment) : Except String Unit :=
  if a.driver.id≠.direct ∨ a.resource.protocol≠a.protocol then
    .error "RESOURCE_CONFLICT: Direct resource differs"
  else if !lib.canonicalAddress a.resource.address then
    .error "INVALID_CONFIG: Canonical resource address required"
  else
    match a.driver.config with
    | .direct config =>
      if lib.compareTimes s.issuedAt s.validUntil≠some .lt then
        .error "INVALID_CONFIG: Invalid snapshot time range"
      else if !lib.canonicalHost config.target.host then
        .error "INVALID_CONFIG: Noncanonical target host"
      else if !config.allowedDestinationCidrs.all lib.validCIDR then
        .error "INVALID_CONFIG: Invalid CIDR network"
      else if lib.digest (.config a.driver.config)≠a.driver.configDigest then
        .error "INTEGRITY_FAILURE: Driver config digest mismatch"
      else .ok ()
    | _ => .error "INVALID_CONFIG: Invalid Snapshot structure"

def sortedStrings : List String→Bool
  | a::b::l => decide (a<b) && sortedStrings (b::l)
  | _ => true

def sortedProtocols : List Protocol→Bool
  | [.tcp,.udp] | [_] | [] => true
  | _ => false

/-- `relaycontracts.Parse` of a Profile. -/
def validateProfile (p : ProfileConfig) : Except String Unit :=
  if 4096<profileSize p then .error "RESOURCE_LIMIT: JSON body too large"
  else if !profileOk p then .error "INVALID_CONFIG: Relay contract rejected"
  else if p.maxFrameBytes<p.maxUdpDatagramBytes then
    .error "INVALID_CONFIG: UDP bound exceeds frame"
  else if !sortedProtocols p.protocols then .error "INVALID_CONFIG: Canonical protocols required"
  else .ok ()

def openOk (o : Open) : Bool :=
  o.wireVersion==1 && o.type == "open" && ["probe","tcp","udp"].contains o.action &&
    idOk o.requestId && bindingOk o.binding

/-- `relaycontracts.Parse` of an open message. -/
def parseOpen (o : Open) : Except String Unit :=
  if 4096<openSize o then .error "RESOURCE_LIMIT: JSON body too large"
  else if !openOk o then .error "INVALID_CONFIG: Relay contract rejected"
  else if o.binding.ingressNodeId=o.binding.egressNodeId ∨
      o.binding.ingressAssignmentId=o.binding.egressAssignmentId then
    .error "INVALID_CONFIG: Distinct Relay Nodes and Assignments required"
  else .ok ()

/-- The identity a Relay binding gives to one of its two ends. -/
structure RelayEnd where
  node : String
  assignment : String
  epoch : Nat
  fence : Nat
  physical : Protocol
  endpoint : Option Target
  deriving DecidableEq

def relayEnd (a : Assignment) (c : RelayConfig) : RelayEnd :=
  if a.role=.relayIngress then
    ⟨c.binding.ingressNodeId,c.binding.ingressAssignmentId,c.binding.ingressSessionEpoch,
      c.binding.ingressFence,a.protocol,c.peerEndpoint⟩
  else
    ⟨c.binding.egressNodeId,c.binding.egressAssignmentId,c.binding.egressSessionEpoch,
      c.binding.egressFence,.tcp,c.target⟩

/-- The `Assignment` definition of the Relay schema. -/
def relaySchemaOk (lib : Library) (node : String) (epoch : Nat) (a : Assignment) : Bool :=
  idOk node && counterOk epoch && assignmentOk lib false a && a.driver.id==.relay &&
    (a.role==.relayIngress || a.role==.relayEgress)

/-- `validateSemantic` of the Relay package. -/
def relaySemantic (lib : Library) (node : String) (epoch : Nat) (a : Assignment)
    (c : RelayConfig) : Except String Unit := do
  let b := c.binding
  let side := relayEnd a c
  let ingress := a.role=.relayIngress
  validateProfile c.profile
  parseOpen ⟨1,"open","probe","contract-validation",b⟩
  reject (a.role≠c.role ∨ node≠side.node ∨ a.assignmentId≠side.assignment ∨
    epoch≠side.epoch ∨ a.bindingFence≠side.fence ∨ a.forwardId≠b.forwardId ∨
    a.forwardRevision≠b.forwardRevision ∨ a.deploymentGeneration≠b.deploymentGeneration)
    "AUTHORIZATION_DENIED: Relay deployment binding differs"
  reject ((lib.parseAddr a.resource.address).map Addr.text≠some a.resource.address ∨
    a.resource.protocol≠side.physical) "RESOURCE_CONFLICT: Relay physical resource differs"
  reject (ingress ∧ (c.target.isSome ∨ c.peerEndpoint.isNone) ∨
    ¬ingress ∧ (c.target.isNone ∨ c.peerEndpoint.isSome))
    "INVALID_CONFIG: Exactly one role endpoint required"
  reject (lib.digest (.profile c.profile)≠b.profileDigest ∨
    lib.digest (.config a.driver.config)≠a.driver.configDigest ∨
    a.protocol∉c.profile.protocols) "INTEGRITY_FAILURE: Relay Profile/config differs"
  reject (!side.endpoint.all (fun t => lib.relayHost t.host))
    "INVALID_CONFIG: Canonical endpoint required"
  reject (!(c.allowedDestinationCidrs.all lib.validCIDR &&
    sortedStrings c.allowedDestinationCidrs)) "INVALID_CONFIG: Canonical CIDR policy required"
  reject (!sortedStrings c.peerFingerprints)
    "INVALID_CONFIG: Canonical peer fingerprints required"

/-- `adp3relay.Parse` of an assignment for one Node and session. -/
def parseRelay (lib : Library) (node : String) (epoch : Nat) (a : Assignment) :
    Except String Unit :=
  match a.driver.config with
  | .relay c =>
    if 16384 < relaySize node epoch a c then .error "RESOURCE_LIMIT: JSON body too large"
    else if !relaySchemaOk lib node epoch a then .error "INVALID_CONFIG: ADP/3 contract rejected"
    else relaySemantic lib node epoch a c
  | _ => .error "INVALID_CONFIG: ADP/3 contract rejected"

/-- A Relay assignment is parsed again under its snapshot's Node and session. -/
def validateRelay (lib : Library) (s : Snapshot) (a : Assignment) : Except String Unit :=
  parseRelay lib s.nodeId s.sessionEpoch a

/-- The role and the physical protocol of one position of a multi-hop path. -/
def hopRole (h : HopConfig) : Role×Protocol :=
  if h.hopIndex=0 then (.multihopIngress,h.protocol)
  else if h.hopIndex=h.path.length-1 then (.multihopEgress,.tcp)
  else (.multihopTransit,.tcp)

/-- The path loop: every Node, assignment and peer fingerprint occurs once. -/
def validateHopPath (lib : Library) :
    List String→List String→List String→List HopNode→Except String Unit
  | _,_,_,[] => .ok ()
  | nodes,ids,pins,n::l =>
    if !lib.canonicalAddress n.listenAddress ∨ n.nodeId∈nodes ∨ n.assignmentId∈ids ∨
        n.peerFingerprint∈pins then
      .error "INVALID_CONFIG: Canonical distinct multi-hop path required"
    else if !lib.canonicalHost n.host then .error "INVALID_CONFIG: Multi-hop host"
    else
      validateHopPath lib (n.nodeId::nodes) (n.assignmentId::ids) (n.peerFingerprint::pins) l

def hopPathDigest (lib : Library) (h : HopConfig) : String :=
  lib.digest (.hopPath h.scopeId h.forwardId h.forwardRevision h.deploymentGeneration h.profileId
    h.profileRevision h.profileDigest h.protocol h.path h.target)

/-- The checks of a multi-hop configuration at the position of its own Node. -/
def validateHop (lib : Library) (a : Assignment) (h : HopConfig) (n : HopNode) (node : String)
    (epoch : Nat) : Except String Unit := do
  validateHopPath lib [] [] [] h.path
  reject (hopPathDigest lib h≠h.pathDigest) "INTEGRITY_FAILURE: Multi-hop path digest differs"
  reject (lib.digest (.profile h.profile)≠h.profileDigest)
    "INTEGRITY_FAILURE: Multi-hop Profile digest differs"
  validateProfile h.profile
  reject (!lib.canonicalHost h.target.host ∨ h.protocol∉h.profile.protocols)
    "INVALID_CONFIG: Multi-hop target or Profile protocol differs"
  reject (!(h.allowedDestinationCidrs.all lib.validCIDR &&
    sortedStrings h.allowedDestinationCidrs))
    "INVALID_CONFIG: Canonical multi-hop CIDR policy required"
  reject (lib.digest (.config a.driver.config)≠a.driver.configDigest ∨ a.role≠(hopRole h).1 ∨
    n.nodeId≠node ∨ n.sessionEpoch≠epoch ∨ n.assignmentId≠a.assignmentId ∨
    n.bindingFence≠a.bindingFence ∨ a.forwardId≠h.forwardId ∨
    a.forwardRevision≠h.forwardRevision ∨ a.deploymentGeneration≠h.deploymentGeneration ∨
    a.protocol≠h.protocol ∨ a.resource.protocol≠(hopRole h).2 ∨ a.resource.port≠n.port ∨
    a.resource.address≠n.listenAddress) "AUTHORIZATION_DENIED: Multi-hop execution binding differs"

def validateMultihopAssignment (lib : Library) (a : Assignment) (node : String) (epoch : Nat)
    (extension : Option Nat) : Except String Unit :=
  match a.driver.config with
  | .multihop h =>
    if extension≠some 1 ∨ a.driver.id≠.multihop ∨ h.path.length<3 ∨ 8<h.path.length then
      .error "UNSUPPORTED_CAPABILITY: Explicit complete multi-hop extension required"
    else
      match h.path[h.hopIndex]? with
      | none => .error "UNSUPPORTED_CAPABILITY: Explicit complete multi-hop extension required"
      | some n => validateHop lib a h n node epoch
  | _ => .error "UNSUPPORTED_CAPABILITY: Explicit complete multi-hop extension required"

def validateAssignment (lib : Library) (s : Snapshot) (a : Assignment) : Except String Unit :=
  if a.role=.direct then validateDirect lib s a
  else if a.driver.id=.multihop then
    validateMultihopAssignment lib a s.nodeId s.sessionEpoch s.executionExtension
  else if a.driver.id≠.relay then .error "UNSUPPORTED_CAPABILITY"
  else validateRelay lib s a

/-- The assignment loop, with the identifiers, logical keys and sockets seen so far. -/
def validateAssignments (lib : Library) (s : Snapshot) :
    String→List (String×Protocol×Role)→List Slot→List Assignment→Except String Unit
  | _,_,_,[] => .ok ()
  | previous,logical,physical,a::l =>
    if ¬previous<a.assignmentId ∨ (a.forwardId,a.protocol,a.role)∈logical ∨
        a.slot∈physical then
      .error "RESOURCE_CONFLICT: Duplicate assignment/resource"
    else
      match validateAssignment lib s a with
      | .error e => .error e
      | .ok _ =>
        validateAssignments lib s a.assignmentId ((a.forwardId,a.protocol,a.role)::logical)
          (a.slot::physical) l

/-- `tombstoneOrder` is negative. -/
def tombstoneBefore (a b : Tombstone) : Bool :=
  if a.physicalProtocol≠b.physicalProtocol then
    decide (a.physicalProtocol.text<b.physicalProtocol.text)
  else if a.port≠b.port then decide (a.port<b.port)
  else if a.retirementGeneration≠b.retirementGeneration then
    decide (a.retirementGeneration<b.retirementGeneration)
  else decide (a.assignmentId<b.assignmentId)

/-- The socket protocol a retired role held: inner hops always listen on TCP. -/
def Tombstone.physical (t : Tombstone) : Protocol :=
  match t.role with
  | .relayEgress | .multihopEgress | .multihopTransit => .tcp
  | _ => t.protocol

def validateTombstones (s : Snapshot) :
    List (Slot×Nat)→Option Tombstone→List Tombstone→Except String Unit
  | _,_,[] => .ok ()
  | retired,prior,t::l =>
    if t.physicalProtocol≠t.physical then
      .error "RESOURCE_CONFLICT: Retirement protocol differs"
    else if (t.slot,t.bindingFence)∈retired ∨ s.snapshotGeneration<t.retirementGeneration then
      .error "INVALID_CONFIG: Retirement high-water differs"
    else if prior.any (fun p => !tombstoneBefore p t) then
      .error "INVALID_CONFIG: Retirements must be sorted"
    else if s.assignments.any (fun a => a.slot=t.slot && decide (a.bindingFence≤t.bindingFence)) then
      .error "FENCING_REJECTED: Retired resource resurrected"
    else validateTombstones s ((t.slot,t.bindingFence)::retired) (some t) l

def validateSnapshot (lib : Library) (s : Snapshot) : Except String Unit :=
  if lib.digest (.snapshot s.body)≠s.snapshotDigest then
    .error "INTEGRITY_FAILURE: Snapshot digest differs"
  else
    match validateAssignments lib s "" [] [] s.assignments with
    | .error e => .error e
    | .ok _ =>
      if lib.compareTimes s.issuedAt s.validUntil≠some .lt then
        .error "INVALID_CONFIG: Invalid snapshot time range"
      else validateTombstones s [] none s.tombstones

/-- `adp3.Parse` of a snapshot; the decoded message is the snapshot itself. -/
def parse (lib : Library) (s : Snapshot) : Except String Snapshot :=
  if !snapshotOk lib s then .error "INVALID_CONFIG: ADP/3 structure rejected"
  else
    match validateSnapshot lib s with
    | .error e => .error e
    | .ok _ => .ok s

/-- What the journal relies on in an accepted snapshot. -/
structure ValidSnapshot (lib : Library) (s : Snapshot) : Prop where
  parses : parse lib s=.ok s
  schema : snapshotOk lib s
  digest : lib.digest (.snapshot s.body)=s.snapshotDigest
  slots : (s.assignments.map Assignment.slot).Nodup
  retired : ∀t∈s.tombstones, ∀a∈s.assignments, a.slot=t.slot→t.bindingFence<a.bindingFence

theorem validateAssignments_slots (lib : Library) (s : Snapshot) (previous : String)
    (logical : List (String×Protocol×Role)) (physical : List Slot) (l : List Assignment)
    (h : validateAssignments lib s previous logical physical l=.ok ()) :
    (l.map Assignment.slot).Nodup ∧ ∀a∈l, a.slot∉physical := by
  induction l generalizing previous logical physical with
  | nil => simp
  | cons a l ih =>
    simp only [validateAssignments] at h
    split_ifs at h with hc
    split at h
    · simp at h
    · have hrest := ih _ _ _ h
      have ha : a.slot∉physical := fun hm => hc (.inr (.inr hm))
      refine ⟨?_,?_⟩
      · rw [List.map_cons,List.nodup_cons]
        refine ⟨?_,hrest.1⟩
        intro hm
        rw [List.mem_map] at hm
        obtain ⟨b,hb,hs⟩ := hm
        exact hrest.2 b hb (hs ▸ List.mem_cons_self)
      · intro b hb
        rcases List.mem_cons.mp hb with rfl|hb
        · exact ha
        · exact fun hm => hrest.2 b hb (List.mem_cons_of_mem _ hm)

theorem validateTombstones_fences (s : Snapshot) (retired : List (Slot×Nat))
    (prior : Option Tombstone) (l : List Tombstone)
    (h : validateTombstones s retired prior l=.ok ()) :
    ∀t∈l, ∀a∈s.assignments, a.slot=t.slot→t.bindingFence<a.bindingFence := by
  induction l generalizing retired prior with
  | nil => simp
  | cons u l ih =>
    simp only [validateTombstones] at h
    split_ifs at h with h₁ h₂ h₃ h₄
    intro t ht a ha hs
    rcases List.mem_cons.mp ht with rfl|ht
    · by_contra hle
      apply h₄
      rw [List.any_eq_true]
      exact ⟨a,ha,by simpa [hs] using hle⟩
    · exact ih _ _ h t ht a ha hs

theorem parse_valid (lib : Library) (s t : Snapshot) (h : parse lib s=.ok t) :
    t=s ∧ ValidSnapshot lib s := by
  have hparse := h
  unfold parse at h
  split_ifs at h with hok
  split at h
  · simp at h
  · next hv =>
    have hst : s=t := Except.ok.inj h
    unfold validateSnapshot at hv
    cases ha : validateAssignments lib s "" [] [] s.assignments with
    | error e =>
      rw [ha] at hv
      split_ifs at hv
    | ok =>
      rw [ha] at hv
      split_ifs at hv with hd
      have hslots := (validateAssignments_slots lib s "" [] [] s.assignments ha).1
      have hret := validateTombstones_fences s [] none s.tombstones hv
      exact ⟨hst.symm,hst ▸ hparse,by simpa using hok,Decidable.not_not.mp hd,hslots,hret⟩

end TuneX.Agent
