import TuneX.Agent.Validate

namespace TuneX.Agent

open Framework Framework.Json

/-- The characters of identifiers, hosts, addresses and networks. -/
def wordChar (c : Char) : Bool :=
  c.isAlphanum || c == '.' || c == '_' || c == ':' || c == '-' || c == '/'

variable {c : Char} {n : Nat} {t : Target} {o : Open} {host : String}

theorem alphanum_range (h : c.isAlphanum) :
    48 ≤ c.toNat ∧ c.toNat≤122 ∧ c.toNat≠60 ∧ c.toNat≠62 ∧ c.toNat≠92 := by
  have hval : c.toNat=c.val.toNat := rfl
  delta Char.isAlphanum Char.isAlpha Char.isUpper Char.isLower Char.isDigit at h
  simp only [Bool.or_eq_true,bool_ok,ge_iff_le,UInt32.le_iff_toNat_le] at h
  simp at h
  omega

theorem alphanum_size (h : c.isAlphanum) : charSize c=1 := by
  have hrange := alphanum_range h
  have hne (d : Char) (hd : d.toNat<48 ∨ d.toNat=60 ∨ d.toNat=62 ∨ d.toNat=92) : c≠d := by
    rintro rfl
    omega
  exact charSize_ascii (by omega) (by omega) ⟨hne _ (by decide),hne _ (by decide),
    hne _ (by decide),hne _ (by decide),hne _ (by decide)⟩

theorem wordChar_size (h : wordChar c) : charSize c=1 := by
  simp only [wordChar,Bool.or_eq_true,beq_iff_eq] at h
  rcases h with ((((h|rfl)|rfl)|rfl)|rfl)|rfl
  · exact alphanum_size h
  all_goals decide

variable {s : String}

theorem word_plain (h : ∀c∈s.toList, wordChar c) : Plain s :=
  fun c hc => wordChar_size (h c hc)

theorem idOk_plain (h : idOk s) : Plain s := by
  unfold idOk at h
  rw [Bool.and_eq_true,decide_eq_true_eq] at h
  apply word_plain
  have hs := h.2
  generalize s.toList=l at hs
  cases l with
  | nil => simp
  | cons c l =>
    simp only [Bool.and_eq_true,List.all_eq_true,Bool.or_eq_true] at hs
    intro d hd
    simp only [wordChar,Bool.or_eq_true]
    rcases List.mem_cons.mp hd with rfl|hd
    · simp [hs.1]
    · have hword := hs.2 d hd
      tauto

theorem idOk_size (h : idOk s) : textSize s≤130 := by
  rw [(idOk_plain h).size]
  unfold idOk at h
  rw [Bool.and_eq_true,decide_eq_true_eq] at h
  omega

theorem digestOk_plain (h : digestOk s) : Plain s := by
  simp only [digestOk,schema_ok] at h
  apply word_plain
  intro c hc
  rw [← List.take_append_drop 7 s.toList,List.mem_append] at hc
  rcases hc with hc|hc
  · rw [h.1.1] at hc
    have hall : "sha256:".toList.all wordChar := by decide
    exact List.all_eq_true.mp hall c hc
  · have hhex := h.2 c hc
    simp only [hexLower,Bool.or_eq_true,bool_ok] at hhex
    delta wordChar Char.isAlphanum Char.isAlpha Char.isLower
    simp only [Bool.or_eq_true,bool_ok]
    rcases hhex with hd|⟨hlow,hhigh⟩
    · simp [hd]
    · have hle : c ≤ 'z' := Char.le_trans hhigh (by decide)
      exact .inl (.inl (.inl (.inl (.inl (.inl (.inr ⟨hlow,hle⟩))))))

theorem digestOk_size (h : digestOk s) : textSize s≤73 := by
  rw [(digestOk_plain h).size]
  simp only [digestOk,schema_ok] at h
  have hlen : s.length=71 := by
    have htake : (s.toList.take 7).length=7 := by rw [h.1.1]; decide
    rw [← String.length_toList,← List.take_append_drop 7 s.toList,List.length_append,htake,h.1.2]
  omega

theorem counterOk_size (h : counterOk n) : numberSize n≤16 := by
  simp only [counterOk,bool_ok] at h
  have hlt : n<10^(15+1) := lt_of_le_of_lt h.2 (by decide)
  exact numberSize_le hlt

theorem portOk_size (h : portOk n) : numberSize n≤5 := by
  simp only [portOk,bool_ok] at h
  have hlt : n<10^(4+1) := by omega
  exact numberSize_le hlt

theorem targetOk_plain (h : targetOk t) : Plain t.host := by
  simp only [targetOk,bool_ok,List.all_eq_true,Bool.or_eq_true] at h
  apply word_plain
  intro c hc
  have hc' := h.2 c hc
  simp only [wordChar,Bool.or_eq_true]
  tauto

theorem targetOk_size (h : targetOk t) : targetSize t≤277 := by
  have hhost := (targetOk_plain h).size
  simp only [targetOk,bool_ok] at h
  have hport := portOk_size h.1.2
  apply objectSize_le [("host",255),("port",5)] _ (by simp) (by decide)
  simp only [List.forall₂_cons,List.forall₂_nil_right_iff,true_and,and_true]
  omega

theorem bindingOk_size {b : Binding} (h : bindingOk b) : bindingSize b≤1366 := by
  simp only [bindingOk,Bool.and_eq_true,List.all_cons,List.all_nil,Bool.and_true] at h
  obtain ⟨⟨⟨i₁,i₂,i₃,i₄,i₅,i₆,i₇⟩,c₁,c₂,c₃,c₄,c₅,c₆,c₇⟩,hd⟩ := h
  apply objectSize_le [("scopeId",130),("forwardId",130),("ingressNodeId",130),
    ("egressNodeId",130),("ingressAssignmentId",130),("egressAssignmentId",130),
    ("profileId",130),("forwardRevision",16),("deploymentGeneration",16),
    ("ingressSessionEpoch",16),("egressSessionEpoch",16),("ingressFence",16),
    ("egressFence",16),("profileRevision",16),("profileDigest",73)] _ (by simp) (by decide)
  simp only [List.forall₂_cons,List.forall₂_nil_right_iff,true_and,and_true]
  exact ⟨idOk_size i₁,idOk_size i₂,idOk_size i₃,idOk_size i₄,idOk_size i₅,idOk_size i₆,
    idOk_size i₇,counterOk_size c₁,counterOk_size c₂,counterOk_size c₃,counterOk_size c₄,
    counterOk_size c₅,counterOk_size c₆,counterOk_size c₇,digestOk_size hd⟩

theorem openOk_size (h : openOk o) : openSize o≤1568 := by
  simp only [openOk,schema_ok,List.contains_eq_mem] at h
  obtain ⟨⟨⟨⟨hv,ht⟩,ha⟩,hid⟩,hb⟩ := h
  have haction : textSize o.action≤7 := by
    have hall : ∀x∈["probe","tcp","udp"], textSize x≤7 := by decide
    exact hall _ ha
  apply objectSize_le [("wireVersion",1),("type",6),("action",7),("requestId",130),
    ("binding",1366)] _ (by simp) (by decide)
  simp only [List.forall₂_cons,List.forall₂_nil_right_iff,true_and,and_true]
  rw [hv,ht]
  exact ⟨by decide,by decide,haction,idOk_size hid,bindingOk_size hb⟩

theorem parseOpen_ok (h : openOk o) (hdistinct : o.binding.ingressNodeId≠o.binding.egressNodeId ∧
      o.binding.ingressAssignmentId≠o.binding.egressAssignmentId) : parseOpen o=.ok () := by
  have hsize := openOk_size h
  unfold parseOpen
  rw [if_neg (by omega),if_neg (by simp [h]),if_neg (by simp [hdistinct])]

theorem sortedProtocols_length {l : List Protocol} (h : sortedProtocols l) : l.length≤2 := by
  unfold sortedProtocols at h
  split at h <;> simp_all

theorem protocol_size (p : Protocol) : textSize p.text≤5 := by
  cases p <;> decide

theorem profileOk_size {p : ProfileConfig} (h : profileOk p) (hs : sortedProtocols p.protocols) :
    profileSize p≤229 := by
  simp only [profileOk,schema_ok] at h
  obtain ⟨⟨⟨⟨⟨⟨⟨⟨⟨⟨⟨⟨⟨⟨hd,hw⟩,hsec⟩,hne⟩,-⟩,-⟩,h₁⟩,-⟩,h₂⟩,-⟩,h₃⟩,-⟩,h₄⟩,-⟩,h₅⟩ := h
  have hlist : listSize (p.protocols.map fun x => textSize x.text)≤1+2*(5+1) := by
    apply listSize_le
    · rw [List.length_map]
      exact hne
    · rw [List.length_map]
      exact sortedProtocols_length hs
    · intro i hi
      obtain ⟨x,-,rfl⟩ := List.mem_map.mp hi
      exact protocol_size x
  have hsmall (k : Nat) {n m : Nat} (hn : n ≤ m) (hm : m<10^(k+1)) : numberSize n≤k+1 :=
    numberSize_le (Nat.lt_of_le_of_lt hn hm)
  apply objectSize_le [("driver",17),("wireVersion",1),("security",14),("protocols",13),
    ("handshakeTimeoutSeconds",2),("idleTimeoutSeconds",3),("maxFrameBytes",5),
    ("maxUdpDatagramBytes",5),("maxConnectionsPerNode",4)] _ (by simp) (by decide)
  simp only [List.forall₂_cons,List.forall₂_nil_right_iff,true_and,and_true]
  rw [hd,hw,hsec]
  exact ⟨by decide,by decide,by decide,hlist,hsmall 1 h₁ (by decide),hsmall 2 h₂ (by decide),
    hsmall 4 h₃ (by decide),hsmall 4 h₄ (by decide),hsmall 3 h₅ (by decide)⟩

/-- The text of an address holds no other characters. -/
def addressChar (c : Char) : Bool := c.isAlphanum || c == '.' || c == ':'

/-- What the libraries guarantee of texts: a digest is `sha256:` and 64 hexadecimal digits, an
address without a zone is at most 45 characters long and a network at most four more. -/
structure Library.Formats (lib : Library) : Prop where
  digest : ∀d, digestOk (lib.digest d)
  addr : ∀text x, lib.parseAddr text=some x→x.zone=""→
    text.length≤45 ∧ ∀c∈text.toList, addressChar c
  net : ∀text x, lib.parsePrefix text=some x→
    text.length≤49 ∧ ∀c∈text.toList, addressChar c ∨ c = '/'

theorem addressChar_word (h : addressChar c) : wordChar c := by
  simp only [addressChar,wordChar,Bool.or_eq_true] at h ⊢
  tauto

variable {lib : Library}

theorem Library.Formats.address_size (hlib : lib.Formats)
    {address : String} (h : lib.canonicalAddress address) : textSize address≤47 := by
  unfold canonicalAddress at h
  split at h
  · next x hx =>
    simp only [schema_ok] at h
    have htext := hlib.addr address x hx h.1
    rw [(word_plain fun c hc => addressChar_word (htext.2 c hc)).size]
    omega
  · simp at h

theorem Library.Formats.cidr_size (hlib : lib.Formats)
    {value : String} (h : lib.validCIDR value) : textSize value≤51 := by
  have hparsed : ∃x, lib.parsePrefix value=some x := by
    cases hx : lib.parsePrefix value with
    | some x => exact ⟨x,rfl⟩
    | none =>
      unfold validCIDR at h
      rw [hx] at h
      split at h <;> simp at h
  obtain ⟨x,hx⟩ := hparsed
  have htext := hlib.net value x hx
  have hword : ∀c∈value.toList, wordChar c := by
    intro c hc
    rcases htext.2 c hc with hchar|rfl
    · exact addressChar_word hchar
    · rfl
  rw [(word_plain hword).size]
  omega

theorem relayConfig_size {c : RelayConfig} {print : String}
    (hrole : c.role=.relayIngress ∧ c.peerEndpoint=some t ∧ c.target=none ∨
      c.role=.relayEgress ∧ c.peerEndpoint=none ∧ c.target=some t)
    (hprint : c.peerFingerprints=[print]) (hpin : digestOk print) (ht : targetOk t)
    (hb : bindingOk c.binding) (hp : profileOk c.profile) (hs : sortedProtocols c.profile.protocols)
    (hrev : counterOk c.egressPolicyRevision) (hcidrs : cidrsOk c.allowedDestinationCidrs)
    (htexts : ∀x∈c.allowedDestinationCidrs, textSize x≤51) : relayConfigSize c≤15438 := by
  have hpins : listSize (c.peerFingerprints.map textSize)≤1+1*(73+1) := by
    rw [hprint]
    apply listSize_le (by simp) (by simp)
    simpa using digestOk_size hpin
  have hlist : listSize (c.allowedDestinationCidrs.map textSize)≤1+256*(51+1) := by
    simp only [cidrsOk,bool_ok] at hcidrs
    apply listSize_le
    · rw [List.length_map]
      exact hcidrs.1.1.1
    · rw [List.length_map]
      exact hcidrs.1.1.2
    · intro i hi
      obtain ⟨x,hx,rfl⟩ := List.mem_map.mp hi
      exact htexts x hx
  have hbool : boolSize c.allowMetadataTargets≤5 := by
    unfold boolSize
    split <;> omega
  have hb := bindingOk_size hb
  have hp := profileOk_size hp hs
  have ht := targetOk_size ht
  have hrev := counterOk_size hrev
  unfold relayConfigSize
  rcases hrole with ⟨hr,he,hn⟩|⟨hr,hn,he⟩
  · rw [he,hn,hr]
    apply objectSize_le [("role",15),("binding",1366),("profile",229),("peerFingerprints",75),
      ("peerEndpoint",277),("egressPolicyRevision",16),("allowMetadataTargets",5),
      ("allowedDestinationCidrs",13313)] _ (by simp) (by decide)
    simp only [endpointMember,Option.map,Option.toList,List.cons_append,List.nil_append,
      List.append_nil,List.forall₂_cons,List.forall₂_nil_right_iff,true_and,and_true]
    exact ⟨by decide,hb,hp,hpins,ht,hrev,hbool,hlist⟩
  · rw [he,hn,hr]
    apply Nat.le_trans (m := 15431) _ (by decide)
    apply objectSize_le [("role",14),("binding",1366),("profile",229),("peerFingerprints",75),
      ("target",277),("egressPolicyRevision",16),("allowMetadataTargets",5),
      ("allowedDestinationCidrs",13313)] _ (by simp) (by decide)
    simp only [endpointMember,Option.map,Option.toList,List.cons_append,List.nil_append,
      List.append_nil,List.forall₂_cons,List.forall₂_nil_right_iff,true_and,and_true]
    exact ⟨by decide,hb,hp,hpins,ht,hrev,hbool,hlist⟩

theorem relay_size {node : String} {epoch : Nat} {a : Assignment} {c : RelayConfig}
    (h : relaySchemaOk lib node epoch a) (haddress : textSize a.resource.address≤47)
    (hc : relayConfigSize c≤15438) : relaySize node epoch a c≤16364 := by
  simp only [relaySchemaOk,assignmentOk,driverOk,resourceOk,schema_ok] at h
  obtain ⟨⟨⟨⟨hnode,hepoch⟩,⟨⟨⟨⟨⟨⟨⟨⟨hid,hforward⟩,hrev⟩,hgen⟩,hfence⟩,-⟩,⟨⟨hv,hdig⟩,-⟩⟩,hdrain⟩,-,hport⟩⟩,hdriver⟩,hrole⟩ := h
  have hphase : textSize a.phase.text≤10 := by
    cases a.phase <;> decide
  have hroleSize : textSize a.role.text≤15 := by
    rcases Bool.or_eq_true_iff.mp hrole with hr|hr <;>
    · rw [beq_iff_eq.mp hr]
      decide
  have hresource : resourceSize a.resource≤89 := by
    apply objectSize_le [("address",47),("port",5),("protocol",5)] _ (by simp) (by decide)
    simp only [List.forall₂_cons,List.forall₂_nil_right_iff,true_and,and_true]
    exact ⟨haddress,portOk_size hport,protocol_size _⟩
  have hdriverSize : relayDriverSize a.driver c≤15579 := by
    apply objectSize_le [("id",17),("schemaVersion",1),("configDigest",73),("config",15438)]
      _ (by simp) (by decide)
    simp only [List.forall₂_cons,List.forall₂_nil_right_iff,true_and,and_true]
    rw [hdriver,hv]
    exact ⟨by decide,by decide,digestOk_size hdig,hc⟩
  have hdrain' : numberSize a.drainTimeoutSeconds≤2+1 :=
    numberSize_le (Nat.lt_of_le_of_lt hdrain (by decide))
  apply objectSize_le [("protocolVersion",1),("nodeId",130),("sessionEpoch",16),
    ("assignmentId",130),("forwardId",130),("forwardRevision",16),("deploymentGeneration",16),
    ("bindingFence",16),("role",15),("protocol",5),("phase",10),("resource",89),
    ("driver",15579),("drainTimeoutSeconds",3)] _ (by simp) (by decide)
  simp only [List.forall₂_cons,List.forall₂_nil_right_iff,true_and,and_true]
  exact ⟨by decide,idOk_size hnode,counterOk_size hepoch,idOk_size hid,idOk_size hforward,
    counterOk_size hrev,counterOk_size hgen,counterOk_size hfence,hroleSize,protocol_size _,
    hphase,hresource,hdriverSize,hdrain'⟩

theorem mem_intercalate {α : Type} {x c : α} {l : List (List α)} (h : c∈[x].intercalate l) :
    c=x ∨ ∃m∈l, c∈m := by
  induction l with
  | nil => simp [List.intercalate] at h
  | cons m l ih =>
    cases l with
    | nil => exact .inr ⟨m,List.mem_cons_self,by simpa [List.intercalate] using h⟩
    | cons k l =>
      have hparts : c∈m ∨ c=x ∨ c∈[x].intercalate (k::l) := by
        simpa [List.intercalate,or_assoc] using h
      rcases hparts with hm|hx|hrest
      · exact .inr ⟨m,List.mem_cons_self,hm⟩
      · exact .inl hx
      · rcases ih hrest with hx|⟨r,hr,hc⟩
        · exact .inl hx
        · exact .inr ⟨r,List.mem_cons_of_mem _ hr,hc⟩

/-- The schema pattern of a target host. -/
def hostChar (c : Char) : Bool := c.isAlphanum || c == '.' || c == ':' || c == '-'

theorem hostLabels_char {host : List Char} (h : Library.hostLabels host) :
    ∀c∈host, c= '.' ∨ c.isLower ∨ c.isDigit ∨ c= '-' := by
  intro c hc
  have hsplit : ['.'].intercalate (host.splitOn '.')=host := List.intercalate_splitOn '.'
  rw [← hsplit] at hc
  rcases mem_intercalate hc with rfl|⟨label,hlabel,hc⟩
  · exact .inl rfl
  · have hl := List.all_eq_true.mp h label hlabel
    simp only [Library.hostLabel,schema_ok,Bool.or_eq_true] at hl
    exact .inr (or_assoc.mp (hl.2.1.1.1 c hc))

theorem hostLabels_chars {host : List Char} (h : Library.hostLabels host) :
    ∀c∈host, hostChar c := by
  intro c hc
  have hchar := hostLabels_char h c hc
  delta hostChar Char.isAlphanum Char.isAlpha
  simp only [Bool.or_eq_true,beq_iff_eq]
  tauto

theorem canonicalHost_cases (h : lib.canonicalHost host) :
    (∃x, lib.parseAddr host=some x ∧ x.zone="" ∧ x.unspecified=false ∧ x.text=host) ∨
    lib.parseAddr host=none ∧ (∀c∈host.toList, c.toLower=c) ∧ host.toList.getLast?≠some '.' ∧
      ¬Library.numericHost host.toList ∧ host.length≤253 ∧ Library.hostLabels host.toList := by
  unfold Library.canonicalHost Library.normalizedHost at h
  rw [decide_eq_true_eq] at h
  split_ifs at h with hascii
  split at h
  · next x hx =>
    split_ifs at h with hbad
    rw [not_or] at hbad
    exact .inl ⟨x,hx,Decidable.not_not.mp hbad.1,by simpa using hbad.2,Option.some.inj h⟩
  · next hx =>
    dsimp only at h
    rw [Option.ite_none_left_eq_some] at h
    obtain ⟨hbad,heq⟩ := h
    have hlower := congrArg String.toList (Option.some.inj heq)
    rw [String.toList_ofList] at hlower
    have hdot : (host.toList.map Char.toLower).getLast?≠some '.' := by
      intro hlast
      have hne : host.toList≠[] := by
        rintro hnil
        simp [hnil] at hlast
      rw [if_pos hlast] at hlower
      have hlen := congrArg List.length hlower
      rw [List.length_dropLast,List.length_map] at hlen
      have hpos := List.length_pos_iff.mpr hne
      omega
    rw [if_neg hdot] at hbad hlower
    rw [hlower] at hbad hdot
    simp only [not_or,Decidable.not_not] at hbad
    refine .inr ⟨hx,?_,hdot,hbad.2.1,?_,hbad.2.2⟩
    · have hid : host.toList.map Char.toLower=host.toList.map id := by simpa using hlower
      exact List.map_inj_left.mp hid
    · rw [← String.length_toList]
      exact Nat.le_of_not_lt hbad.1

theorem canonicalHost_relay (h : lib.canonicalHost host) : lib.relayHost host := by
  unfold Library.relayHost
  rcases canonicalHost_cases h with ⟨x,hx,hz,hu,ht⟩|⟨hx,hlow,hdot,hnum,hlen,hlabels⟩
  · rw [hx]
    simp [hz,hu,ht]
  · rw [hx]
    simp only [schema_ok]
    exact ⟨⟨⟨⟨hlow,by simpa using hdot⟩,by simpa using hnum⟩,by simpa using hlen⟩,hlabels⟩

theorem Library.Formats.host_chars (hlib : lib.Formats) (h : lib.canonicalHost host) :
    ∀c∈host.toList, hostChar c := by
  rcases canonicalHost_cases h with ⟨x,hx,hz,-,-⟩|⟨-,-,-,-,-,hlabels⟩
  · intro c hc
    have hchar := (hlib.addr host x hx hz).2 c hc
    simp only [addressChar,hostChar,Bool.or_eq_true] at hchar ⊢
    tauto
  · exact hostLabels_chars hlabels

end TuneX.Agent
