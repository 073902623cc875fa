import TuneX.Agent.RelayLimits

namespace TuneX.Agent

open Framework

/-- The certificate an Agent presents: its parsed leaf, if that is kept, and the chain, whose
entries may not parse. A certificate is known by its fingerprint. -/
structure Identity where
  leaf : Option String
  chain : List (Option String)

def Identity.fingerprint (identity : Identity) : Except String (Option String) :=
  match identity.leaf,identity.chain with
  | some print,_ => .ok (some print)
  | none,some print::_ => .ok (some print)
  | none,none::_ => .error "x509: malformed certificate"
  | none,[] => .ok none

/-- The two-node binding of two neighbours on a path. -/
def edgeBinding (h : HopConfig) (up down : HopNode) : Binding where
  scopeId := h.scopeId
  forwardId := h.forwardId
  ingressNodeId := up.nodeId
  egressNodeId := down.nodeId
  ingressAssignmentId := up.assignmentId
  egressAssignmentId := down.assignmentId
  profileId := h.profileId
  forwardRevision := h.forwardRevision
  deploymentGeneration := h.deploymentGeneration
  ingressSessionEpoch := up.sessionEpoch
  egressSessionEpoch := down.sessionEpoch
  ingressFence := up.bindingFence
  egressFence := down.bindingFence
  profileRevision := h.profileRevision
  profileDigest := h.profileDigest

def hopBinding (h : HopConfig) (edge : Nat) : Option Binding := do
  let up ← h.path[edge]?
  let down ← h.path[edge+1]?
  return edgeBinding h up down

def hopConfigWith (h : HopConfig) (role : Role) (binding : Binding) (peer : HopNode)
    (peerEndpoint target : Option Target) : RelayConfig where
  role := role
  binding := binding
  profile := h.profile
  peerFingerprints := [peer.peerFingerprint]
  peerEndpoint := peerEndpoint
  target := target
  egressPolicyRevision := h.egressPolicyRevision
  allowMetadataTargets := h.allowMetadataTargets
  allowedDestinationCidrs := h.allowedDestinationCidrs

/-- The Relay configuration a hop runs under: the first hop dials the second one, every other
hop listens for the hop before it. -/
def hopRelayConfig (h : HopConfig) : Option RelayConfig :=
  if h.hopIndex=0 then do
    let binding ← hopBinding h 0
    let peer ← h.path[1]?
    return hopConfigWith h .relayIngress binding peer (some ⟨peer.host,peer.port⟩) none
  else do
    let edge := h.hopIndex-1
    let binding ← hopBinding h edge
    let peer ← h.path[edge]?
    return hopConfigWith h .relayEgress binding peer none (some ⟨h.target.host,h.target.port⟩)

/-- The Relay assignment in whose terms a multi-hop assignment is run. -/
def syntheticRelay (lib : Library) (a : Assignment) (c : RelayConfig) : Assignment where
  assignmentId := a.assignmentId
  forwardId := a.forwardId
  forwardRevision := a.forwardRevision
  deploymentGeneration := a.deploymentGeneration
  bindingFence := a.bindingFence
  role := c.role
  protocol := a.protocol
  phase := .prepared
  driver := ⟨.relay,1,lib.digest (.config (.relay c)),.relay c⟩
  drainTimeoutSeconds := a.drainTimeoutSeconds
  resource := a.resource

/-- `PrepareMultihop` up to the assignment it hands to `prepare`, with its Node and session. -/
def prepareMultihop (lib : Library) (a : Assignment) (identity : Identity) :
    Except String (String×Nat×Assignment) :=
  match a.driver.config with
  | .multihop h =>
    match h.path[h.hopIndex]? with
    | none => .error "INVALID_CONFIG: Multi-hop configuration required"
    | some n => do
      reject (h.path.length<3) "INVALID_CONFIG: Multi-hop configuration required"
      validateMultihopAssignment lib a n.nodeId n.sessionEpoch (some 1)
      let leaf ← identity.fingerprint
      reject (leaf≠some n.peerFingerprint)
        "AUTHENTICATION_FAILED: Local multi-hop credential differs"
      match hopRelayConfig h with
      | none => .error "runtime error: index out of range"
      | some c => return (n.nodeId,n.sessionEpoch,syntheticRelay lib a c)
  | _ => .error "INVALID_CONFIG: Multi-hop configuration required"

/-- What the path loop checks: canonical nodes, none of them twice. -/
structure PathChecked (lib : Library) (l : List HopNode) : Prop where
  address : ∀n∈l, lib.canonicalAddress n.listenAddress
  host : ∀n∈l, lib.canonicalHost n.host
  nodes : (l.map HopNode.nodeId).Nodup
  ids : (l.map HopNode.assignmentId).Nodup

variable {lib : Library} {l : List HopNode} {a : Assignment} {h : HopConfig} {n : HopNode}
  {epoch : Nat} {s : Snapshot}

theorem validateHopPath_ok {nodes ids pins : List String}
    (h : validateHopPath lib nodes ids pins l=.ok ()) :
    PathChecked lib l ∧ (∀n∈l, n.nodeId∉nodes) ∧ ∀n∈l, n.assignmentId∉ids := by
  induction l generalizing nodes ids pins with
  | nil => exact ⟨⟨by simp,by simp,by simp,by simp⟩,by simp,by simp⟩
  | cons n l ih =>
    simp only [validateHopPath] at h
    split_ifs at h with hbad hhost
    obtain ⟨hl,hnodes,hids⟩ := ih h
    simp only [not_or] at hbad
    have hn : n.nodeId∉l.map HopNode.nodeId := by
      intro hm
      obtain ⟨m,hm,he⟩ := List.mem_map.mp hm
      exact hnodes m hm (he ▸ List.mem_cons_self)
    have hi : n.assignmentId∉l.map HopNode.assignmentId := by
      intro hm
      obtain ⟨m,hm,he⟩ := List.mem_map.mp hm
      exact hids m hm (he ▸ List.mem_cons_self)
    refine ⟨⟨?_,?_,?_,?_⟩,?_,?_⟩
    · exact List.forall_mem_cons.mpr ⟨by simpa using hbad.1,hl.address⟩
    · exact List.forall_mem_cons.mpr ⟨by simpa using hhost,hl.host⟩
    · exact List.nodup_cons.mpr ⟨hn,hl.nodes⟩
    · exact List.nodup_cons.mpr ⟨hi,hl.ids⟩
    · exact List.forall_mem_cons.mpr ⟨hbad.2.1,fun m hm hmem => hnodes m hm (List.mem_cons_of_mem _ hmem)⟩
    · exact List.forall_mem_cons.mpr ⟨hbad.2.2.1,fun m hm hmem => hids m hm (List.mem_cons_of_mem _ hmem)⟩

/-- An accepted multi-hop assignment at the position `n` of its path. -/
structure HopChecked (lib : Library) (a : Assignment) (h : HopConfig) (n : HopNode)
    (node : String) (epoch : Nat) : Prop where
  path : PathChecked lib h.path
  profileDigest : lib.digest (.profile h.profile)=h.profileDigest
  profile : validateProfile h.profile=.ok ()
  target : lib.canonicalHost h.target.host
  protocol : h.protocol∈h.profile.protocols
  cidrs : ∀x∈h.allowedDestinationCidrs, lib.validCIDR x
  sorted : sortedStrings h.allowedDestinationCidrs
  role : a.role=(hopRole h).1
  node : n.nodeId=node
  epoch : n.sessionEpoch=epoch
  assignment : n.assignmentId=a.assignmentId
  fence : n.bindingFence=a.bindingFence
  forward : a.forwardId=h.forwardId
  revision : a.forwardRevision=h.forwardRevision
  generation : a.deploymentGeneration=h.deploymentGeneration
  traffic : a.protocol=h.protocol
  physical : a.resource.protocol=(hopRole h).2
  port : a.resource.port=n.port
  address : a.resource.address=n.listenAddress

theorem validateHop_ok {node : String} (hv : validateHop lib a h n node epoch=.ok ()) :
    HopChecked lib a h n node epoch := by
  simp only [validateHop,do_ok,not_or,Decidable.not_not,Bool.not_eq_true,Bool.not_eq_false',
    schema_ok] at hv
  obtain ⟨hpath,-,hpd,hprofile,⟨ht,hproto⟩,⟨hcidrs,hsorted⟩,-,h₁,h₂,h₃,h₄,h₅,h₆,h₇,h₈,h₉,h₁₀,
    h₁₁,h₁₂⟩ := hv
  exact ⟨(validateHopPath_ok hpath).1,hpd,hprofile,ht,hproto,hcidrs,hsorted,h₁,h₂,h₃,h₄,h₅,h₆,
    h₇,h₈,h₉,h₁₀,h₁₁,h₁₂⟩

theorem validateMultihopAssignment_ok {node : String} {extension : Option Nat}
    (hv : validateMultihopAssignment lib a node epoch extension=.ok ()) :
    ∃h n, a.driver.config=.multihop h ∧ a.driver.id=.multihop ∧ extension=some 1 ∧
      3≤h.path.length ∧ h.path.length≤8 ∧ h.path[h.hopIndex]?=some n ∧
      validateHop lib a h n node epoch=.ok () := by
  unfold validateMultihopAssignment at hv
  split at hv
  · next h hh =>
    split_ifs at hv with hbad
    split at hv
    · simp at hv
    · next n hn =>
      simp only [not_or,Decidable.not_not,Nat.not_lt] at hbad
      exact ⟨h,n,hh,hbad.2.1,hbad.1,hbad.2.2.1,hbad.2.2.2,hn,hv⟩
  · simp at hv

theorem PathChecked.distinct (h : PathChecked lib l) {i j : Nat} {m : HopNode} (hij : i≠j)
    (hm : l[i]?=some m) (hn : l[j]?=some n) :
    m.nodeId≠n.nodeId ∧ m.assignmentId≠n.assignmentId := by
  have hkey {β : Type} {f : HopNode→β} (hf : (l.map f).Nodup) : f m≠f n := by
    intro heq
    have hi : (l.map f)[i]?=some (f m) := by rw [List.getElem?_map,hm]; rfl
    have hj : (l.map f)[j]?=some (f n) := by rw [List.getElem?_map,hn]; rfl
    have hlen : i<(l.map f).length := (List.getElem?_eq_some_iff.mp hi).1
    exact hij ((List.getElem?_inj hlen hf).mp (hi.trans (heq ▸ hj.symm)))
  exact ⟨hkey h.nodes,hkey h.ids⟩

/-- The role of a hop in its synthetic assignment: `m` is its neighbour. -/
inductive HopSide (h : HopConfig) (n m : HopNode) : RelayConfig→Prop
  | first (hi : h.hopIndex=0) (hm : h.path[1]?=some m) :
    HopSide h n m
      (hopConfigWith h .relayIngress (edgeBinding h n m) m (some ⟨m.host,m.port⟩) none)
  | later {i : Nat} (hi : h.hopIndex=i+1) (hm : h.path[i]?=some m) :
    HopSide h n m
      (hopConfigWith h .relayEgress (edgeBinding h m n) m none (some ⟨h.target.host,h.target.port⟩))

theorem hopRelayConfig_some (hlen : 3≤h.path.length) (hn : h.path[h.hopIndex]?=some n) :
    ∃m c, hopRelayConfig h=some c ∧ HopSide h n m c := by
  cases hi : h.hopIndex with
  | zero =>
    rw [hi] at hn
    have hm : h.path[1]?=some h.path[1] := List.getElem?_eq_getElem (by omega)
    refine ⟨_,_,?_,.first hi hm⟩
    simp [hopRelayConfig,hopBinding,hi,hn,hm]
  | succ i =>
    rw [hi] at hn
    have hlt : i<h.path.length := by
      have := (List.getElem?_eq_some_iff.mp hn).1
      omega
    have hm : h.path[i]?=some h.path[i] := List.getElem?_eq_getElem hlt
    refine ⟨_,_,?_,.later hi hm⟩
    simp [hopRelayConfig,hopBinding,hi,hn,hm]

theorem edgeBinding_ok {up down : HopNode} (hh : hopConfigOk h) (hup : up∈h.path)
    (hdown : down∈h.path) : bindingOk (edgeBinding h up down) := by
  simp only [hopConfigOk,schema_ok,List.all_cons,List.all_nil] at hh
  have hu := hh.1.1.1.2 up hup
  have hd := hh.1.1.1.2 down hdown
  simp only [hopNodeOk,Bool.and_eq_true] at hu hd
  simp only [bindingOk,edgeBinding,Bool.and_eq_true,List.all_cons,List.all_nil]
  simp_all

/-- The parts of an accepted multi-hop assignment that its synthetic Relay assignment takes
over, with the schema of the message they came in. -/
structure HopSource (lib : Library) (a : Assignment) (h : HopConfig) (n : HopNode) : Prop where
  formats : lib.Formats
  schema : assignmentOk lib true a
  config : a.driver.config=.multihop h
  hop : hopConfigOk h
  here : h.path[h.hopIndex]?=some n
  checked : HopChecked lib a h n n.nodeId n.sessionEpoch

namespace HopSource

variable {m : HopNode} {c : RelayConfig}

theorem nodeOk (hs : HopSource lib a h n) {k : HopNode} (hk : k∈h.path) : hopNodeOk k := by
  have hh := hs.hop
  simp only [hopConfigOk,schema_ok] at hh
  exact hh.1.1.1.2 k hk

theorem endpointOk (hs : HopSource lib a h n) (hm : m∈h.path) :
    targetOk ⟨m.host,m.port⟩ := by
  have hok := hs.nodeOk hm
  have hchars := hs.formats.host_chars (hs.checked.path.host m hm)
  simp only [hopNodeOk,bool_ok] at hok
  simp only [targetOk,schema_ok]
  exact ⟨⟨⟨hok.1.1.2,hok.1.2⟩,hok.2⟩,hchars⟩

theorem peer_mem (hside : HopSide h n m c) : m∈h.path := by
  cases hside with
  | first _ hm | later _ hm => exact List.mem_of_getElem? hm

section

variable (hs : HopSource lib a h n)
include hs

theorem bindingOk (hside : HopSide h n m c) : bindingOk c.binding := by
  have hn := List.mem_of_getElem? hs.here
  have hm := peer_mem hside
  cases hside with
  | first => exact edgeBinding_ok hs.hop hn hm
  | later => exact edgeBinding_ok hs.hop hm hn

theorem parseOpen (hside : HopSide h n m c) :
    parseOpen ⟨1,"open","probe","contract-validation",c.binding⟩=.ok () := by
  have hok : openOk ⟨1,"open","probe","contract-validation",c.binding⟩ := by
    have hid : idOk "contract-validation" := by decide
    simp [openOk,hid,hs.bindingOk hside]
  apply parseOpen_ok hok
  cases hside with
  | first hi hm => exact hs.checked.path.distinct (by omega) hs.here hm
  | later hi hm => exact hs.checked.path.distinct (by omega) hm hs.here

theorem relayConfigOk (hside : HopSide h n m c) : relayConfigOk c := by
  have hb := hs.bindingOk hside
  have hm := peer_mem hside
  have hpin := hs.nodeOk hm
  have hend := hs.endpointOk hm
  have hh := hs.hop
  simp only [hopConfigOk,hopNodeOk,Bool.and_eq_true,List.all_cons] at hh hpin
  cases hside with
  | first | later => simp_all [TuneX.Agent.relayConfigOk,hopConfigWith]

theorem schemaOk (hside : HopSide h n m c) :
    relaySchemaOk lib n.nodeId n.sessionEpoch (syntheticRelay lib a c) := by
  have hn := hs.nodeOk (List.mem_of_getElem? hs.here)
  have hc := hs.relayConfigOk hside
  have hd := hs.formats.digest (.config (.relay c))
  have ha := hs.schema
  simp only [assignmentOk,hopNodeOk,Bool.and_eq_true] at ha hn
  have hrole : c.role=.relayIngress ∨ c.role=.relayEgress := by
    cases hside with
    | first => exact .inl rfl
    | later => exact .inr rfl
  have hroleOk : roleOk false c.role := by
    rcases hrole with hr|hr <;> rw [hr] <;> rfl
  simp only [relaySchemaOk,assignmentOk,syntheticRelay,driverOk,schema_ok,Bool.or_eq_true]
  simp_all

theorem address : lib.canonicalAddress a.resource.address := by
  rw [hs.checked.address]
  exact hs.checked.path.address n (List.mem_of_getElem? hs.here)

theorem size (hside : HopSide h n m c) :
    relaySize n.nodeId n.sessionEpoch (syntheticRelay lib a c) c≤16364 := by
  have hm := peer_mem hside
  have hpin := hs.nodeOk hm
  have hend := hs.endpointOk hm
  have hbinding := hs.bindingOk hside
  have hprofile := hs.checked.profile
  have hcidrs := fun x hx => hs.formats.cidr_size (hs.checked.cidrs x hx)
  have hh := hs.hop
  simp only [hopConfigOk,hopNodeOk,Bool.and_eq_true,List.all_cons] at hh hpin
  have hsorted : sortedProtocols h.profile.protocols := by
    unfold validateProfile at hprofile
    split_ifs at hprofile with _ _ _ hs
    simpa using hs
  apply relay_size (hs.schemaOk hside) (hs.formats.address_size hs.address)
  cases hside with
  | first =>
    exact relayConfig_size (.inl ⟨rfl,rfl,rfl⟩) rfl hpin.1.1.1.1.1.2 hend hbinding hh.1.1.2
      hsorted hh.1.1.1.1.1.1.1.1.1.2.2.2.2.1 hh.2 hcidrs
  | later =>
    exact relayConfig_size (.inr ⟨rfl,rfl,rfl⟩) rfl hpin.1.1.1.1.1.2 hh.1.2 hbinding hh.1.1.2
      hsorted hh.1.1.1.1.1.1.1.1.1.2.2.2.2.1 hh.2 hcidrs

theorem semantic (hside : HopSide h n m c) :
    relaySemantic lib n.nodeId n.sessionEpoch (syntheticRelay lib a c) c=.ok () := by
  have hk := hs.checked
  have haddress : (lib.parseAddr a.resource.address).map Addr.text=some a.resource.address := by
    have haddr := hs.address
    unfold Library.canonicalAddress at haddr
    split at haddr
    · next x hx =>
      simp only [schema_ok] at haddr
      rw [hx,Option.map_some,haddr.2]
    · simp at haddr
  have hpeer := canonicalHost_relay (hk.path.host m (peer_mem hside))
  have htarget := canonicalHost_relay hk.target
  have hphysical := hk.physical
  simp only [relaySemantic,do_ok]
  refine ⟨?_,hs.parseOpen hside,?_,?_,?_,?_,?_,?_,?_⟩
  · cases hside <;> exact hk.profile
  · cases hside with
    | first => simp [relayEnd,syntheticRelay,hopConfigWith,edgeBinding,hk.assignment,hk.fence,hk.forward,hk.revision,hk.generation]
    | later => simp [relayEnd,syntheticRelay,hopConfigWith,edgeBinding,hk.assignment,hk.fence,hk.forward,hk.revision,hk.generation]
  · cases hside with
    | first hi => simp [relayEnd,syntheticRelay,hopConfigWith,haddress,hphysical,hopRole,hi,hk.traffic]
    | later hi =>
      have htcp : (hopRole h).2=.tcp := by
        unfold hopRole
        rw [if_neg (by omega)]
        split <;> rfl
      simp [relayEnd,syntheticRelay,hopConfigWith,haddress,hphysical,htcp]
  · cases hside <;> simp [syntheticRelay,hopConfigWith]
  · cases hside <;>
      simp [syntheticRelay,hopConfigWith,edgeBinding,hk.profileDigest,hk.traffic,hk.protocol]
  · cases hside <;> simp [relayEnd,syntheticRelay,hopConfigWith,hpeer,htarget]
  · have hcidrs : c.allowedDestinationCidrs=h.allowedDestinationCidrs := by
      cases hside <;> rfl
    rw [hcidrs]
    simpa [hk.sorted] using hk.cidrs
  · cases hside <;> simp [hopConfigWith,sortedStrings]

end

end HopSource

theorem parseRelay_ok {node : String} {c : RelayConfig} (hc : a.driver.config=.relay c)
    (hsize : relaySize node epoch a c≤16384) (hok : relaySchemaOk lib node epoch a)
    (hsem : relaySemantic lib node epoch a c=.ok ()) : parseRelay lib node epoch a=.ok () := by
  unfold parseRelay
  rw [hc]
  simp only [hok,hsem,Nat.not_lt.mpr hsize,Bool.not_true,if_false,Bool.false_eq_true]

theorem validateAssignments_each {previous : String} {logical : List (String×Protocol×Role)}
    {physical : List Slot} {l : List Assignment}
    (h : validateAssignments lib s previous logical physical l=.ok ()) :
    ∀a∈l, validateAssignment lib s a=.ok () := by
  induction l generalizing previous logical physical with
  | nil => simp
  | cons b l ih =>
    simp only [validateAssignments] at h
    split_ifs at h
    split at h
    · simp at h
    · next hb =>
      exact List.forall_mem_cons.mpr ⟨hb,ih h⟩

theorem parse_each {t : Snapshot} (h : parse lib s=.ok t) :
    ∀a∈s.assignments, assignmentOk lib s.executionExtension.isSome a ∧
      validateAssignment lib s a=.ok () := by
  have hschema := (parse_valid lib s t h).2.schema
  unfold parse at h
  split_ifs at h with hok
  split at h
  · simp at h
  · next hv =>
    cases ha : validateAssignments lib s "" [] [] s.assignments with
    | error e =>
      rw [validateSnapshot,ha] at hv
      split_ifs at hv
    | ok =>
      simp only [snapshotOk,schema_ok] at hschema
      exact fun a hmem => ⟨hschema.1.1.2 a hmem,validateAssignments_each ha a hmem⟩

theorem validateAssignment_multihop (hid : a.driver.id=.multihop)
    (hv : validateAssignment lib s a=.ok ()) :
    validateMultihopAssignment lib a s.nodeId s.sessionEpoch s.executionExtension=.ok () := by
  unfold validateAssignment at hv
  split_ifs at hv with hrole
  · rw [validateDirect,if_pos (.inl (by simp [hid]))] at hv
    simp at hv
  · exact hv

/-- Every multi-hop assignment of an accepted snapshot can be prepared under the pinned
credential: the Relay assignment derived from it is accepted by the Relay contract. -/
theorem multihop_preparable (lib : Library) (hlib : lib.Formats) (s t : Snapshot)
    (hs : parse lib s=.ok t) (a : Assignment) (ha : a∈s.assignments)
    (hid : a.driver.id=.multihop) :
    ∃h n, a.driver.config=.multihop h ∧ h.path[h.hopIndex]?=some n ∧
      ∀identity : Identity, identity.fingerprint=.ok (some n.peerFingerprint)→
        ∃r, prepareMultihop lib a identity=.ok (s.nodeId,s.sessionEpoch,r) ∧
          parseRelay lib s.nodeId s.sessionEpoch r=.ok () := by
  obtain ⟨hschema,hv⟩ := parse_each hs a ha
  have hmulti := validateAssignment_multihop hid hv
  obtain ⟨h,n,hconfig,-,hext,hlen,-,hn,hhop⟩ := validateMultihopAssignment_ok hmulti
  have hchecked := validateHop_ok hhop
  rw [hext,← hchecked.node,← hchecked.epoch] at hmulti
  have hnode := hchecked.node
  have hepoch := hchecked.epoch
  rw [← hnode,← hepoch] at hchecked
  have hsource : HopSource lib a h n := by
    rw [hext,Option.isSome_some] at hschema
    have hdriver := hschema
    simp only [assignmentOk,driverOk,hid,hconfig,Bool.and_eq_true] at hdriver
    exact ⟨hlib,hschema,hconfig,hdriver.1.1.2.2.2,hn,hchecked⟩
  obtain ⟨m,c,hc,hside⟩ := hopRelayConfig_some hlen hn
  refine ⟨h,n,hconfig,hn,?_⟩
  intro identity hleaf
  refine ⟨syntheticRelay lib a c,?_,?_⟩
  · rw [prepareMultihop]
    simp only [hconfig,hn,hc,do_ok]
    exact ⟨by omega,hmulti,_,hleaf,by simp,by rw [hnode,hepoch]⟩
  · rw [← hnode,← hepoch]
    have hsize := hsource.size hside
    exact parseRelay_ok rfl (by omega) (hsource.schemaOk hside) (hsource.semantic hside)

namespace HopSample

def digest (n : Nat) : String :=
  "sha256:000000000000000000000000000000000000000000000000000000000000000"++
    String.ofList [Nat.digitChar (n%16)]

def addresses : List String := ["10.0.0.1","10.0.0.2","10.0.0.3"]

/-- Libraries that know the three addresses and the one network of the snapshot below. -/
def library : Library where
  digest _ := digest 0
  ipFormat _ := true
  dateTime _ := true
  parseAddr text := if text∈addresses then some ⟨"",false,text⟩ else none
  parsePrefix text := if text="10.0.0.0/8" then some ⟨true,""⟩ else none
  utcInstant text := some (if text="2026-01-01T00:00:00Z" then 0 else 60,[])

theorem library_formats : library.Formats := by
  have hdigest : digestOk (digest 0) := by decide
  refine ⟨fun _ => hdigest,?_,?_⟩
  · intro text x hx _
    have hmem : text∈addresses := by
      by_contra hn
      simp [library,hn] at hx
    have hall : ∀text∈addresses, text.length≤45 ∧ text.toList.all addressChar := by decide
    obtain ⟨hlength,hchars⟩ := hall text hmem
    exact ⟨hlength,List.all_eq_true.mp hchars⟩
  · intro text x hx
    have heq : text="10.0.0.0/8" := by
      by_contra hn
      simp [library,hn] at hx
    have hchars : "10.0.0.0/8".toList.all fun c => addressChar c || c == '/' := by decide
    rw [heq]
    refine ⟨by decide,fun c hc => ?_⟩
    simpa using List.all_eq_true.mp hchars c hc

def node (i : Nat) (name address : String) : HopNode :=
  ⟨name,"a"++name,1,1,digest i,address,address,9000+i⟩

def config : HopConfig where
  scopeId := "s1"
  forwardId := "f1"
  forwardRevision := 1
  deploymentGeneration := 1
  profileId := "p1"
  profileRevision := 1
  profileDigest := digest 0
  pathDigest := digest 0
  protocol := .tcp
  hopIndex := 1
  path := [node 1 "n1" "10.0.0.1",node 2 "n2" "10.0.0.2",node 3 "n3" "10.0.0.3"]
  profile := ⟨"native.relay.v1",1,"mutual-tls13",[.tcp],5,60,4096,1024,16⟩
  target := ⟨"10.0.0.3",80⟩
  egressPolicyRevision := 1
  allowedDestinationCidrs := ["10.0.0.0/8"]
  allowMetadataTargets := false

/-- The second Node of a path of three. -/
def transit : Assignment :=
  ⟨"an2","f1",1,1,1,.multihopTransit,.tcp,.prepared,⟨.multihop,1,digest 0,.multihop config⟩,30,
    ⟨"10.0.0.2",9002,.tcp⟩⟩

def snapshot : Snapshot :=
  ⟨3,"n2",1,1,true,"2026-01-01T00:00:00Z","2026-01-01T00:01:00Z",digest 0,[transit],[],some 1⟩

theorem parse_snapshot : parse library snapshot=.ok snapshot := by
  rfl

end HopSample

open HopSample in
theorem multihop_preparable_transit :
    ∃r, prepareMultihop library transit ⟨none,[some (digest 2)]⟩=.ok ("n2",1,r) ∧
      parseRelay library "n2" 1 r=.ok () := by
  obtain ⟨h,n,hc,hn,hall⟩ := multihop_preparable library library_formats snapshot snapshot
    parse_snapshot transit List.mem_cons_self rfl
  obtain rfl : config=h := RuntimeConfig.multihop.inj hc
  obtain rfl : node 2 "n2" "10.0.0.2"=n := Option.some.inj hn
  exact hall ⟨none,[some (digest 2)]⟩ rfl

end TuneX.Agent
