import TuneX.Contracts.Canonical
import TuneX.Framework.JsonTree

namespace TuneX.Contracts

open Agent Framework Framework.Json

def targetTree (t : Target) : Tree := .object [("host",.text t.host),("port",.number t.port)]

def resourceTree (r : Resource) : Tree :=
  .object [("address",.text r.address),("port",.number r.port),("protocol",.text r.protocol.text)]

def bindingTree (b : Binding) : Tree :=
  .object [("scopeId",.text b.scopeId),("forwardId",.text b.forwardId),
    ("ingressNodeId",.text b.ingressNodeId),("egressNodeId",.text b.egressNodeId),
    ("ingressAssignmentId",.text b.ingressAssignmentId),
    ("egressAssignmentId",.text b.egressAssignmentId),("profileId",.text b.profileId),
    ("forwardRevision",.number b.forwardRevision),
    ("deploymentGeneration",.number b.deploymentGeneration),
    ("ingressSessionEpoch",.number b.ingressSessionEpoch),
    ("egressSessionEpoch",.number b.egressSessionEpoch),
    ("ingressFence",.number b.ingressFence),("egressFence",.number b.egressFence),
    ("profileRevision",.number b.profileRevision),("profileDigest",.text b.profileDigest)]

def profileTree (p : ProfileConfig) : Tree :=
  .object [("driver",.text p.driver),("wireVersion",.number p.wireVersion),
    ("security",.text p.security),
    ("protocols",.list ((p.protocols.map Protocol.text).map .text)),
    ("handshakeTimeoutSeconds",.number p.handshakeTimeoutSeconds),
    ("idleTimeoutSeconds",.number p.idleTimeoutSeconds),
    ("maxFrameBytes",.number p.maxFrameBytes),
    ("maxUdpDatagramBytes",.number p.maxUdpDatagramBytes),
    ("maxConnectionsPerNode",.number p.maxConnectionsPerNode)]

def endpointTree (key : String) (t : Option Target) : List (String×Tree) :=
  (t.map fun x => (key,targetTree x)).toList

def relayConfigTree (c : RelayConfig) : Tree :=
  .object ([("role",.text c.role.text),("binding",bindingTree c.binding),
    ("profile",profileTree c.profile),
    ("peerFingerprints",.list (c.peerFingerprints.map .text))]++
    endpointTree "peerEndpoint" c.peerEndpoint++endpointTree "target" c.target++
    [("egressPolicyRevision",.number c.egressPolicyRevision),
    ("allowMetadataTargets",.bool c.allowMetadataTargets),
    ("allowedDestinationCidrs",.list (c.allowedDestinationCidrs.map .text))])

/-- An assignment together with the Node and the session it is for. -/
def relayTree (node : String) (epoch : Nat) (a : Assignment) (c : RelayConfig) : Tree :=
  .object [("protocolVersion",.number 3),("nodeId",.text node),("sessionEpoch",.number epoch),
    ("assignmentId",.text a.assignmentId),("forwardId",.text a.forwardId),
    ("forwardRevision",.number a.forwardRevision),
    ("deploymentGeneration",.number a.deploymentGeneration),
    ("bindingFence",.number a.bindingFence),("role",.text a.role.text),
    ("protocol",.text a.protocol.text),("phase",.text a.phase.text),
    ("resource",resourceTree a.resource),
    ("driver",.object [("id",.text a.driver.id.text),
      ("schemaVersion",.number a.driver.schemaVersion),
      ("configDigest",.text a.driver.configDigest),("config",relayConfigTree c)]),
    ("drainTimeoutSeconds",.number a.drainTimeoutSeconds)]

/-- The checks of `parseRelayAssignment` after the schema. -/
def relayContract (lib : Library) (node : String) (epoch : Nat) (a : Assignment)
    (c : RelayConfig) : Except String Unit := do
  let b := c.binding
  let side := relayEnd a c
  validateProfile c.profile
  parseOpen ⟨1,"open","probe","contract-validation",b⟩
  reject (a.role≠c.role ∨ node≠side.node ∨ epoch≠side.epoch ∨ a.assignmentId≠side.assignment ∨
    a.bindingFence≠side.fence ∨ a.forwardId≠b.forwardId ∨ a.forwardRevision≠b.forwardRevision ∨
    a.deploymentGeneration≠b.deploymentGeneration)
    "AUTHORIZATION_DENIED: Relay deployment binding differs"
  reject (a.resource.protocol≠side.physical ∨
    normalizeIp a.resource.address≠some a.resource.address)
    "RESOURCE_CONFLICT: Relay physical resource differs"
  reject (a.protocol∉c.profile.protocols ∨ lib.digest (.profile c.profile)≠b.profileDigest ∨
    lib.digest (.config a.driver.config)≠a.driver.configDigest)
    "INTEGRITY_FAILURE: Relay config/Profile digest differs"
  reject (if a.role=.relayIngress then c.peerEndpoint.isNone ∨ c.target.isSome
    else c.target.isNone ∨ c.peerEndpoint.isSome)
    "INVALID_CONFIG: Exactly the endpoint for this Relay role is required"
  reject ((∃t∈side.endpoint, normalizeTargetHost t.host≠some t.host) ∨
    !c.allowedDestinationCidrs.all validCidr ∨ ¬c.allowedDestinationCidrs.Nodup ∨
    !sortedStrings c.allowedDestinationCidrs ∨ !sortedStrings c.peerFingerprints)
    "INVALID_CONFIG: Canonical Relay endpoint/policy required"

def parseRelayAssignment (lib : Library) (node : String) (epoch : Nat) (a : Assignment) :
    Except String Unit :=
  match a.driver.config with
  | .relay c =>
    if 16384 < (relayTree node epoch a c).size scriptChar then
      .error "RESOURCE_LIMIT: JSON body too large"
    else if !relaySchemaOk lib node epoch a then
      .error "INVALID_CONFIG: ADP/3 Relay resource contract rejected"
    else relayContract lib node epoch a c
  | _ => .error "INVALID_CONFIG: ADP/3 Relay resource contract rejected"

theorem profileTree_size (p : ProfileConfig) : (profileTree p).size charSize=profileSize p := by
  simp only [profileTree,profileSize,Tree.size,memberSizes,itemSizes_texts]
  rw [List.map_map]
  rfl

theorem endpointTree_size (key : String) (t : Option Target) :
    memberSizes charSize (endpointTree key t)=endpointMember key t := by
  cases t with
  | none | some t => rfl

theorem relayConfigTree_size (c : RelayConfig) :
    (relayConfigTree c).size charSize=relayConfigSize c := by
  simp only [relayConfigTree,relayConfigSize,Tree.size,memberSizes,memberSizes_append,
    endpointTree_size,itemSizes_texts,profileTree_size]
  rfl

theorem relayTree_size (node : String) (epoch : Nat) (a : Assignment) (c : RelayConfig) :
    (relayTree node epoch a c).size charSize=relaySize node epoch a c := by
  simp only [relayTree,relaySize,relayDriverSize,Tree.size,memberSizes,relayConfigTree_size]
  rfl

theorem hostChar_word {c : Char} (h : hostChar c) : wordChar c := by
  simp only [hostChar,wordChar,Bool.or_eq_true] at h ⊢
  tauto

variable {value node : String} {c : RelayConfig} {lib : Library} {epoch : Nat} {a : Assignment}

theorem ipBytes_plain {bytes : List Nat} (h : ipBytes value=some bytes) : Plain value :=
  word_plain fun c hc => hostChar_word (ipBytes_chars h c hc)

theorem normalizeIp_plain (h : normalizeIp value=some value) : Plain value := by
  unfold normalizeIp at h
  obtain ⟨bytes,hb,-⟩ := Option.map_eq_some_iff.mp h
  exact ipBytes_plain hb

theorem validCidr_plain (h : validCidr value) : Plain value := by
  apply word_plain
  intro c hc
  unfold validCidr at h
  split at h
  · next address bits hsplit =>
    rw [Bool.and_eq_true] at h
    split at h
    · next bytes hb =>
      have hjoin : ['/'].intercalate (value.toList.splitOn '/')=value.toList :=
        List.intercalate_splitOn '/'
      rw [← hjoin,hsplit] at hc
      rcases mem_intercalate hc with rfl|⟨part,hpart,hchar⟩
      · rfl
      · simp only [mem_list] at hpart
        rcases hpart with rfl|rfl
        · exact hostChar_word (ipBytes_chars hb c (by simpa using hchar))
        · have hbits := h.1
          simp only [plainDecimal,schema_ok] at hbits
          simp [wordChar,Char.isAlphanum,hbits.1.2 c hchar]
    · simp at h
  · simp at h

theorem word_text {s : String} (h : s.toList.all wordChar) : Plain s :=
  word_plain (List.all_eq_true.mp h)

theorem role_plain (r : Role) : Plain r.text := by
  cases r <;> exact word_text (by decide)

theorem protocol_plain (p : Protocol) : Plain p.text := by
  cases p <;> exact word_text (by decide)

theorem phase_plain (p : Phase) : Plain p.text := by
  cases p <;> exact word_text (by decide)

theorem driver_plain (d : DriverId) : Plain d.text := by
  cases d <;> exact word_text (by decide)

theorem bindingTree_plain {b : Binding} (h : bindingOk b) : ∀s∈(bindingTree b).texts, Plain s := by
  simp only [bindingOk,Bool.and_eq_true,List.all_cons,List.all_nil,Bool.and_true] at h
  obtain ⟨⟨⟨i₁,i₂,i₃,i₄,i₅,i₆,i₇⟩,-⟩,hd⟩ := h
  simp only [bindingTree,Tree.texts,memberTexts,List.nil_append,List.append_nil,
    List.cons_append,List.forall_mem_cons]
  exact ⟨idOk_plain i₁,idOk_plain i₂,idOk_plain i₃,idOk_plain i₄,idOk_plain i₅,idOk_plain i₆,
    idOk_plain i₇,digestOk_plain hd,by simp⟩

theorem profileTree_plain {p : ProfileConfig} (h : profileOk p) :
    ∀s∈(profileTree p).texts, Plain s := by
  simp only [profileOk,schema_ok] at h
  obtain ⟨⟨⟨⟨⟨⟨⟨⟨⟨⟨⟨⟨⟨⟨hd,-⟩,hsec⟩,-⟩,-⟩,-⟩,-⟩,-⟩,-⟩,-⟩,-⟩,-⟩,-⟩,-⟩,-⟩ := h
  simp only [profileTree,Tree.texts,memberTexts,itemTexts_texts,List.nil_append,List.append_nil,
    List.cons_append,List.forall_mem_cons]
  rw [hd,hsec]
  refine ⟨word_text (by decide),word_text (by decide),?_⟩
  intro s hs
  obtain ⟨p,-,rfl⟩ := List.mem_map.mp hs
  exact protocol_plain p

theorem endpointTree_plain {key : String} {t : Option Target} (h : t.all targetOk) :
    ∀s∈memberTexts (endpointTree key t), Plain s := by
  cases t with
  | none => simp [endpointTree,memberTexts]
  | some t =>
    simp only [endpointTree,targetTree,Option.map_some,Option.toList_some,memberTexts,Tree.texts,
      List.append_nil,List.forall_mem_cons]
    exact ⟨targetOk_plain h,by simp⟩

theorem relayConfigTree_plain (h : relayConfigOk c)
    (hcidrs : ∀x∈c.allowedDestinationCidrs, validCidr x) :
    ∀s∈(relayConfigTree c).texts, Plain s := by
  simp only [relayConfigOk,schema_ok] at h
  obtain ⟨⟨⟨⟨⟨⟨⟨⟨⟨⟨-,hb⟩,hp⟩,-⟩,-⟩,-⟩,hpins⟩,hend⟩,htarget⟩,-⟩,-⟩ := h
  simp only [relayConfigTree,Tree.texts,memberTexts,memberTexts_append,itemTexts_texts,
    List.nil_append,List.append_nil,List.cons_append,List.forall_mem_cons,List.forall_mem_append]
  exact ⟨role_plain _,bindingTree_plain hb,profileTree_plain hp,
    fun s hs => digestOk_plain (hpins s hs),⟨endpointTree_plain hend,endpointTree_plain htarget⟩,
    fun s hs => validCidr_plain (hcidrs s hs)⟩

theorem relayTree_plain (h : relaySchemaOk lib node epoch a) (hc : a.driver.config=.relay c)
    (haddress : normalizeIp a.resource.address=some a.resource.address)
    (hcidrs : ∀x∈c.allowedDestinationCidrs, validCidr x) :
    ∀s∈(relayTree node epoch a c).texts, Plain s := by
  simp only [relaySchemaOk,assignmentOk,driverOk,schema_ok] at h
  obtain ⟨⟨⟨⟨hnode,-⟩,⟨⟨⟨⟨⟨⟨⟨⟨hid,hforward⟩,-⟩,-⟩,-⟩,-⟩,⟨⟨-,hdig⟩,hconfig⟩⟩,-⟩,-⟩⟩,hdriver⟩,-⟩ := h
  rw [hdriver,hc] at hconfig
  simp only [relayTree,resourceTree,Tree.texts,memberTexts,List.nil_append,List.append_nil,
    List.cons_append,List.forall_mem_cons]
  exact ⟨idOk_plain hnode,idOk_plain hid,idOk_plain hforward,role_plain _,protocol_plain _,
    phase_plain _,normalizeIp_plain haddress,protocol_plain _,driver_plain _,digestOk_plain hdig,
    relayConfigTree_plain hconfig hcidrs⟩

/-- What the contract accepts in an assignment of one end. -/
structure RelayAccepted (lib : Library) (node : String) (epoch : Nat) (a : Assignment)
    (c : RelayConfig) : Prop where
  config : a.driver.config=.relay c
  size : (relayTree node epoch a c).size scriptChar≤16384
  schema : relaySchemaOk lib node epoch a
  profile : validateProfile c.profile=.ok ()
  binding : parseOpen ⟨1,"open","probe","contract-validation",c.binding⟩=.ok ()
  role : a.role=c.role
  node : node=(relayEnd a c).node
  epoch : epoch=(relayEnd a c).epoch
  assignment : a.assignmentId=(relayEnd a c).assignment
  fence : a.bindingFence=(relayEnd a c).fence
  forward : a.forwardId=c.binding.forwardId
  revision : a.forwardRevision=c.binding.forwardRevision
  generation : a.deploymentGeneration=c.binding.deploymentGeneration
  physical : a.resource.protocol=(relayEnd a c).physical
  address : normalizeIp a.resource.address=some a.resource.address
  protocol : a.protocol∈c.profile.protocols
  profileDigest : lib.digest (.profile c.profile)=c.binding.profileDigest
  configDigest : lib.digest (.config a.driver.config)=a.driver.configDigest
  endpoint : if a.role=.relayIngress then c.peerEndpoint.isSome ∧ c.target.isNone
    else c.target.isSome ∧ c.peerEndpoint.isNone
  host : ∀t∈(relayEnd a c).endpoint, normalizeTargetHost t.host=some t.host
  cidrs : ∀x∈c.allowedDestinationCidrs, validCidr x
  sorted : sortedStrings c.allowedDestinationCidrs
  pins : sortedStrings c.peerFingerprints

theorem parseRelayAssignment_ok (h : parseRelayAssignment lib node epoch a=.ok ()) :
    ∃c, RelayAccepted lib node epoch a c := by
  unfold parseRelayAssignment at h
  split at h
  · next c hc =>
    split_ifs at h with hsize hschema
    simp only [relayContract,do_ok,not_or,Decidable.not_not,Bool.not_eq_true,Bool.not_eq_false',
      not_exists,not_and] at h
    obtain ⟨hprofile,hopen,⟨h₁,h₂,h₃,h₄,h₅,h₆,h₇,h₈⟩,⟨hphys,haddr⟩,⟨hproto,hpd,hcd⟩,hend,hhost,
      hcidrs,-,hsorted,hpins⟩ := h
    refine ⟨c,hc,by omega,by simpa using hschema,hprofile,hopen,h₁,h₂,h₃,h₄,h₅,h₆,h₇,h₈,hphys,
      haddr,hproto,hpd,hcd,?_,hhost,List.all_eq_true.mp hcidrs,hsorted,hpins⟩
    split_ifs at hend ⊢ <;> simpa [Option.isSome_iff_ne_none] using hend
  · simp at h

theorem RelayAccepted.agent (hnet : Netip lib) (h : RelayAccepted lib node epoch a c) :
    parseRelay lib node epoch a=.ok () := by
  have hplain := relayTree_plain h.schema h.config h.address h.cidrs
  have hsize := h.size
  rw [Tree.script_size hplain,relayTree_size] at hsize
  have hparsed : (lib.parseAddr a.resource.address).map Addr.text=some a.resource.address := by
    have hcanonical := hnet.canonicalAddress h.address
    unfold Library.canonicalAddress at hcanonical
    split at hcanonical
    · next x hx =>
      simp only [schema_ok] at hcanonical
      rw [hx,Option.map_some,hcanonical.2]
    · simp at hcanonical
  have hhost : (relayEnd a c).endpoint.all fun t => lib.relayHost t.host := by
    rw [Option.all_eq_true]
    exact fun t ht => canonicalHost_relay (hnet.canonicalHost (h.host t ht))
  have hcidrs : c.allowedDestinationCidrs.all lib.validCIDR :=
    List.all_eq_true.mpr fun x hx => hnet.validCIDR (h.cidrs x hx)
  have hend := h.endpoint
  unfold parseRelay
  rw [h.config]
  simp only
  rw [if_neg (by omega),if_neg (by simp [h.schema])]
  simp only [relaySemantic,do_ok,h.profile,h.binding,true_and]
  refine ⟨?_,?_,?_,?_,?_,?_,?_⟩
  · simp [← h.role,← h.node,← h.assignment,← h.epoch,← h.fence,h.forward,h.revision,h.generation]
  · simp [hparsed,h.physical]
  · split_ifs at hend with hrole <;> simp [hrole,hend,Option.isSome_iff_ne_none.mp hend.1]
  · simp [h.profileDigest,h.configDigest,h.protocol]
  · simp [hhost]
  · simp [hcidrs,h.sorted]
  · simp [h.pins]

end TuneX.Contracts
