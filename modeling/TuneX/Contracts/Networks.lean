import TuneX.Contracts.Addresses
import TuneX.Contracts.RelayPlan

namespace TuneX.Contracts

open Agent Framework

/-- An address without a zone, a slash and a plain decimal length, with no bit of the address set
beyond the length. -/
def Network (text : List Char) (bytes : List Nat) (length : Nat) : Prop :=
  ∃address bits, text=address++ '/'::bits ∧ Literal address bytes ∧ plainDecimal bits ∧
    decimal bits=length ∧ length≤8*bytes.length ∧
    ∀i<8*bytes.length-length, (value bytes).testBit i=false

/-- `Prefix.Masked`: the address without the bits beyond the length. -/
def maskedPrefix (p : Egress.Prefix) : Egress.Prefix :=
  let host := p.addr.bitLen-p.bits
  { p with addr := { p.addr with value := p.addr.value>>>host<<<host } }

/-- `net/netip` reads a network where RFC 4291 writes one, and `ValidCIDR` compares it with its
masked form. -/
structure Rfc4291 (netip : Egress.Netip) (lib : Library) : Prop where
  net : ∀text p, netip.parsePrefix text=some p ↔ ∃network bits bytes,
    text.toList=network++ '/'::bits ∧ Literal network bytes ∧ plainDecimal bits ∧
    decimal bits≤8*bytes.length ∧ p=⟨address bytes,decimal bits⟩
  masked : ∀text, lib.parsePrefix text=
    (netip.parsePrefix text).map fun p => ⟨decide (p=maskedPrefix p),p.addr.zone⟩

theorem mod_two_pow_iff (n k : Nat) : n%2^k=0 ↔ ∀i<k, n.testBit i=false := by
  constructor
  · intro h i hi
    have hbit := Nat.testBit_mod_two_pow n k i
    rw [h,Nat.zero_testBit] at hbit
    simpa [hi] using hbit.symm
  · intro h
    apply Nat.eq_of_testBit_eq
    intro i
    rw [Nat.testBit_mod_two_pow,Nat.zero_testBit]
    by_cases hi : i<k
    · simp [h i hi]
    · simp [hi]

theorem maskedBytes_cons (b : Nat) (bytes : List Nat) (bits : Nat) :
    maskedBytes (b::bytes) bits=(b%2^(8-min 8 bits)==0 && maskedBytes bytes (bits-8)) := by
  unfold maskedBytes
  rw [List.zipIdx_cons,List.all_cons,List.zipIdx_succ,List.all_map]
  congr 1
  apply List.all_congr rfl
  intro e
  have hsub : bits-8*(e.2+1)=bits-8-8*e.2 := by omega
  simp [hsub]

variable {bytes : List Nat}

/-- The mask test of each byte is one test of the whole number. -/
theorem maskedBytes_value (hs : Small bytes) {bits : Nat} (hb : bits≤8*bytes.length) :
    maskedBytes bytes bits ↔ value bytes%2^(8*bytes.length-bits)=0 := by
  induction bytes generalizing bits with
  | nil => simp [maskedBytes,value,Nat.mod_one]
  | cons b bytes ih =>
    have hsmall : Small bytes := fun x hx => hs x (List.mem_cons_of_mem _ hx)
    have hlt := value_lt hsmall
    have hpow : 256^bytes.length=2^(8*bytes.length) := by
      rw [show (256 : Nat)=2^8 from rfl,← pow_mul]
    rw [hpow] at hlt
    have hbit := Nat.testBit_two_pow_mul_add b hlt
    rw [List.length_cons] at hb ⊢
    rw [maskedBytes_cons,Bool.and_eq_true,beq_iff_eq,ih hsmall (by omega),value_cons,hpow,
      Nat.mul_comm b,mod_two_pow_iff,mod_two_pow_iff,mod_two_pow_iff]
    simp only [hbit]
    constructor
    · rintro ⟨hhead,htail⟩ i hi
      split_ifs with hlow
      · exact htail i (by omega)
      · exact hhead _ (by omega)
    · intro h
      refine ⟨?_,?_⟩
      · intro i hi
        have hhead := h (8*bytes.length+i) (by omega)
        simpa using hhead
      · intro i hi
        have htail := h i (by omega)
        rwa [if_pos (by omega)] at htail

theorem maskedPrefix_iff (bytes : List Nat) (length : Nat) :
    (⟨address bytes,length⟩ : Egress.Prefix)=maskedPrefix ⟨address bytes,length⟩ ↔
      value bytes%2^(8*bytes.length-length)=0 := by
  simp only [maskedPrefix,address,Egress.Prefix.mk.injEq,Egress.Addr.mk.injEq,and_true,true_and,
    Nat.shiftRight_eq_div_pow,Nat.shiftLeft_eq]
  rw [eq_comm,← Nat.dvd_iff_div_mul_eq,Nat.dvd_iff_mod_eq_zero]

theorem Literal.read {text : List Char} (h : Literal text bytes) :
    ipBytes (String.ofList text)=some bytes :=
  ipBytes_iff.mpr (by simpa using h)

theorem Literal.no_slash {text : List Char} (h : Literal text bytes) : '/'∉text := by
  intro hc
  have hchar := ipBytes_chars h.read '/' (by simpa using hc)
  exact absurd hchar (by decide)

variable {bits network l : List Char} {s : String} {length : Nat}

theorem plainDecimal_digits (h : plainDecimal bits) : ∀c∈bits, c.isDigit := by
  simp only [plainDecimal,schema_ok] at h
  exact h.1.2

theorem splitOn_network (hn : Literal network bytes) (hb : plainDecimal bits) :
    (network++ '/'::bits).splitOn '/'=[network,bits] := by
  have hparts : ∀part∈[network,bits], '/'∉part := by
    intro part hpart hc
    simp only [mem_list] at hpart
    rcases hpart with rfl|rfl
    · exact hn.no_slash hc
    · exact absurd (plainDecimal_digits hb '/' hc) (by decide)
  simpa [List.intercalate] using List.splitOn_intercalate '/' hparts (by simp)

theorem append_of_splitOn {text : List Char} (h : text.splitOn '/'=[network,bits]) :
    text=network++ '/'::bits := by
  have hjoin : ['/'].intercalate (text.splitOn '/')=text := List.intercalate_splitOn '/'
  rw [h] at hjoin
  simpa [List.intercalate] using hjoin.symm

theorem validCidr_iff (s : String) : validCidr s ↔ ∃bytes length, Network s.toList bytes length := by
  unfold validCidr
  constructor
  · intro h
    split at h
    · next network bits hsplit =>
      rw [Bool.and_eq_true] at h
      obtain ⟨hbits,h⟩ := h
      split at h
      · next bytes hb =>
        simp only [bool_ok] at h
        have hliteral : Literal network bytes := by simpa using ipBytes_iff.mp hb
        exact ⟨bytes,decimal bits,network,bits,append_of_splitOn hsplit,hliteral,hbits,rfl,h.1,
          (mod_two_pow_iff _ _).mp ((maskedBytes_value hliteral.small h.1).mp h.2)⟩
      · cases h
    · cases h
  · rintro ⟨bytes,length,network,bits,htext,hliteral,hbits,rfl,hlen,hzero⟩
    have hmask := (maskedBytes_value hliteral.small hlen).mpr ((mod_two_pow_iff _ _).mpr hzero)
    rw [htext,splitOn_network hliteral hbits]
    simp [hbits,hliteral.read,hlen,hmask]

theorem Rfc4291.validCIDR_iff {netip : Egress.Netip} {lib : Library} (h : Rfc4291 netip lib)
    (s : String) : lib.validCIDR s ↔ ∃bytes length, Network s.toList bytes length := by
  unfold Library.validCIDR
  rw [h.masked]
  constructor
  · intro hv
    split at hv
    · rw [Bool.and_eq_true] at hv
      split at hv
      · next net hnet =>
        obtain ⟨p,hp,rfl⟩ := Option.map_eq_some_iff.mp hnet
        obtain ⟨network,bits,bytes,htext,hliteral,hbits,hlen,rfl⟩ := (h.net s p).mp hp
        simp only [bool_ok,maskedPrefix_iff] at hv
        exact ⟨bytes,decimal bits,network,bits,htext,hliteral,hbits,rfl,hlen,
          (mod_two_pow_iff _ _).mp hv.2.1⟩
      · simp at hv
    · cases hv
  · rintro ⟨bytes,length,network,bits,htext,hliteral,hbits,rfl,hlen,hzero⟩
    have hread := (h.net s _).mpr ⟨network,bits,bytes,htext,hliteral,hbits,hlen,rfl⟩
    have hmask := (maskedPrefix_iff bytes _).mpr ((mod_two_pow_iff _ _).mpr hzero)
    rw [hread,htext,splitOn_network hliteral hbits]
    simp only [plainDecimal,Bool.and_eq_true] at hbits
    simp only [Option.map_some,← hmask,Bool.and_eq_true]
    exact ⟨⟨⟨hbits.1.1,hbits.2⟩,hbits.1.2⟩,by simp [address]⟩

/-- Both validators accept a text exactly when it writes a network. -/
theorem cidr_exact (netip : Egress.Netip) (lib : Library) (h : Rfc4291 netip lib) (s : String) :
    validCidr s=lib.validCIDR s ∧ (validCidr s ↔ ∃bytes length, Network s.toList bytes length) := by
  refine ⟨?_,validCidr_iff s⟩
  rw [Bool.eq_iff_iff,validCidr_iff,h.validCIDR_iff]

namespace NetworkSample

def library : Library := { Sample.library with
  parsePrefix := fun text =>
    (reader.parsePrefix text).map fun p => ⟨decide (p=maskedPrefix p),p.addr.zone⟩ }

theorem reader_rfc4291 : Rfc4291 reader library := by
  refine ⟨?_,fun _ => rfl⟩
  intro text p
  constructor
  · intro h
    unfold reader at h
    dsimp only at h
    split at h
    · next network bits hsplit =>
      split at h
      · next bytes hb =>
        rw [Option.ite_none_right_eq_some] at h
        obtain ⟨⟨hbits,hlen⟩,h⟩ := h
        cases h
        have hliteral : Literal network bytes := by simpa using ipBytes_iff.mp hb
        exact ⟨network,bits,bytes,append_of_splitOn hsplit,hliteral,hbits,hlen,rfl⟩
      · cases h
    · cases h
  · rintro ⟨network,bits,bytes,htext,hliteral,hbits,hlen,rfl⟩
    exact reader_standard.net text network bits bytes
      (htext ▸ splitOn_network hliteral hbits) hliteral hbits hlen

end NetworkSample

open NetworkSample in
/-- An IPv4-mapped network, whose length counts all 128 bits. -/
theorem cidr_exact_mapped : validCidr "::ffff:10.0.0.0/104" ∧
    validCidr "::ffff:10.0.0.0/104"=library.validCIDR "::ffff:10.0.0.0/104" ∧
    (validCidr "::ffff:10.0.0.0/104" ↔
      ∃bytes length, Network "::ffff:10.0.0.0/104".toList bytes length) :=
  ⟨by decide +kernel,cidr_exact reader library reader_rfc4291 _⟩

structure ReservedSlot where
  nodeId : String
  forwardId : String
  protocol : Protocol
  port : Nat
  bindingFence : Nat
  deploymentGeneration : Nat

section Direct

variable (lib : Library) (assignmentId : String→String→Protocol→Role→String)

def directAssignment (f : Forward) (facts : NodeFacts) (reservations : List ReservedSlot)
    (phase : Phase) (drainTimeoutSeconds : Nat) (config : DirectConfig) (p : Protocol) :
    Except String Assignment :=
  match reservations.filter fun slot => slot.nodeId=facts.nodeId ∧ slot.forwardId=f.id ∧
      slot.protocol=p ∧ slot.port=f.listen.port with
  | [slot] => do
    reject (!counterOk slot.bindingFence ∨ !counterOk slot.deploymentGeneration ∨ !portOk slot.port)
      "RESOURCE_CONFLICT: Missing or ambiguous reservation"
    return {
      assignmentId := assignmentId facts.nodeId f.id p .direct
      forwardId := f.id
      forwardRevision := f.revision
      deploymentGeneration := slot.deploymentGeneration
      bindingFence := slot.bindingFence
      role := .direct
      protocol := p
      phase
      driver := ⟨.direct,1,lib.digest (.config (.direct config)),.direct config⟩
      drainTimeoutSeconds
      resource := ⟨f.listen.host,f.listen.port,p⟩ }
  | _ => .error "RESOURCE_CONFLICT: Missing or ambiguous reservation"

/-- `compileDirect`. A Forward and whether it is enabled come apart, as in the Relay planner. -/
def compileDirect (forward : Forward) (enabled : Bool) (facts : NodeFacts)
    (reservations : List ReservedSlot) (phase : Phase) (drainTimeoutSeconds : Nat) :
    Except String (List Assignment) := do
  reject (300<drainTimeoutSeconds) "INVALID_CONFIG: Invalid execution phase/drain timeout"
  match parseForward forward with
  | none => .error "INVALID_CONFIG: Invalid Forward"
  | some f => do
    reject (f.via≠[] ∨ f.transport.isSome) "UNSUPPORTED_CAPABILITY: Relay is not implemented"
    reject (facts.nodeId≠f.ingressNodeId ∨ facts.scopeId≠f.scopeId)
      "AUTHORIZATION_DENIED: Node scope mismatch"
    reject (f.listen.host∉facts.allowedListenerAddresses ∨ f.listen.port∉facts.allowedPorts)
      "AUTHORIZATION_DENIED: Listener is not allowed"
    reject ("adp.3"∉facts.capabilities ∨ "native.direct.v1"∉facts.capabilities ∨
      ∃p∈f.protocols, p.text∉facts.capabilities)
      "UNSUPPORTED_CAPABILITY: Unsupported driver or protocol"
    reject (!counterOk facts.egressPolicyRevision ∨ facts.allowedDestinationCidrs=[] ∨
      !facts.allowedDestinationCidrs.all validCidr)
      "AUTHORIZATION_DENIED: Invalid destination policy"
    reject (!enabled) "INVALID_CONFIG: Disabled intent has no new active deployment"
    let config : DirectConfig := ⟨f.target,facts.egressPolicyRevision,facts.allowMetadataTargets,
      distinctSorted facts.allowedDestinationCidrs⟩
    let assignments ← f.protocols.mapM
      (directAssignment lib assignmentId f facts reservations phase drainTimeoutSeconds config)
    return assignments.insertionSort fun a b => a.assignmentId≤b.assignmentId

end Direct

/-- The address of a network is written in its normal form, which `validCidr` does not ask. -/
def normalCidr (cidr : String) : Bool :=
  match cidr.toList.splitOn '/' with
  | address::_ => normalizeIp (String.ofList address)=some (String.ofList address)
  | [] => false

def cidrText (bytes : List Nat) (length : Nat) : String :=
  String.ofList ((ipText bytes).toList++ '/'::Nat.toDigits 10 length)

theorem plainDecimal_le (h : plainDecimal l) (hlen : 1<l.length) : 10^(l.length-1)≤decimal l := by
  cases l with
  | nil => simp at hlen
  | cons c l =>
    simp only [plainDecimal,schema_ok,Bool.not_eq_true',Bool.and_eq_false_iff,
      decide_eq_false_iff_not] at h
    obtain ⟨⟨-,hdigits⟩,hzero⟩ := h
    have hc := digit_range (hdigits c List.mem_cons_self)
    have hne : c.toNat≠48 := by
      intro he
      obtain rfl : c= '0' := Char.toNat_inj.mp he
      simp_all
    rw [decimal_cons,List.length_cons,Nat.add_sub_cancel]
    have hone : 1*10^l.length≤(c.toNat-48)*10^l.length := Nat.mul_le_mul_right _ (by omega)
    omega

theorem plainDecimal_inj {x y : List Char} (hx : plainDecimal x) (hy : plainDecimal y)
    (h : decimal x=decimal y) : x=y := by
  -- a longer plain decimal is a larger number
  have hle {x y : List Char} (hx : plainDecimal x) (hy : plainDecimal y)
      (h : decimal x=decimal y) : y.length≤x.length := by
    by_contra hlt
    have hpos : 1≤x.length := by
      cases x with
      | nil => simp [plainDecimal] at hx
      | cons c x => simp
    have hlow := plainDecimal_le hy (by omega)
    have hhigh := decimal_lt (plainDecimal_digits hx)
    have hpow : 10^x.length≤10^(y.length-1) := Nat.pow_le_pow_right (by decide) (by omega)
    omega
  have hlen : x.length=y.length := le_antisymm (hle hy hx h.symm) (hle hx hy h)
  exact (eq_iff_decimal hlen (plainDecimal_digits hx) (plainDecimal_digits hy)).mpr h

theorem toDigits_decimal (h : plainDecimal l) (hl : decimal l<256) :
    Nat.toDigits 10 (decimal l)=l := by
  have hplain : ∀n<256, plainDecimal (Nat.toDigits 10 n) ∧ decimal (Nat.toDigits 10 n)=n := by
    decide +kernel
  obtain ⟨hp,hd⟩ := hplain (decimal l) hl
  exact plainDecimal_inj hp h hd

theorem Network.normal_iff (h : Network s.toList bytes length) :
    normalCidr s ↔ s=cidrText bytes length := by
  obtain ⟨network,bits,htext,hliteral,hbits,rfl,hlen,-⟩ := h
  have hnormal : normalCidr s ↔ network=(ipText bytes).toList := by
    unfold normalCidr
    rw [htext,splitOn_network hliteral hbits]
    simp only [decide_eq_true_eq,(normalizeIp_some hliteral.read).1,Option.some.injEq]
    rw [String.ext_iff,String.toList_ofList,eq_comm]
  have hwidth := hliteral.length
  rw [hnormal,cidrText,toDigits_decimal hbits (by omega),String.ext_iff,String.toList_ofList,htext]
  exact ⟨fun he => by rw [he],List.append_cancel_right⟩

theorem network_text {t : String} (hs : Network s.toList bytes length)
    (ht : Network t.toList bytes length) (hns : normalCidr s) (hnt : normalCidr t) : s=t := by
  rw [hs.normal_iff.mp hns,ht.normal_iff.mp hnt]

theorem Dotted.text {text : List Char} (h : Dotted text bytes) : text=dotted bytes := by
  obtain ⟨parts,rfl,-,hparts⟩ := h
  have hmap := map_eq_of_forall₂ (a := id) (b := fun n => Nat.toDigits 10 n) hparts
    fun part n ho => by
      obtain ⟨hplain,-,rfl,hle⟩ := ho
      exact toDigits_decimal hplain (by omega)
  rw [dotted,hmap,List.map_id]

theorem Network.normal_of_v4 (h : Network s.toList bytes length) (hv4 : bytes.length=4) :
    normalCidr s := by
  obtain ⟨network,bits,htext,hliteral,hbits,-⟩ := h
  have hdotted : Dotted network bytes := by
    cases hliteral with
    | v4 h => exact h
    | v6 h | embedded _ h => exact absurd h.length (by omega)
  unfold normalCidr
  rw [htext,splitOn_network hliteral hbits]
  simp only [decide_eq_true_eq,(normalizeIp_some hliteral.read).1,Option.some.injEq]
  rw [ipText,if_pos hv4,hdotted.text]

theorem literal_twice (hlen : bytes.length=16) (hs : Small bytes) :
    ∃x y, Literal x bytes ∧ Literal y bytes ∧ x≠y := by
  obtain ⟨hbytes,hsmall⟩ := wordBytes_ipWords (by omega) hs
  obtain ⟨hgroups,hwords⟩ := groups_words (shortGroups_toDigits hsmall)
  have hcount := wordBytes_length (ipWords bytes)
  rw [hbytes,hlen] at hcount
  have hfull := Grouped.full _ hgroups (by simpa using (by omega : (ipWords bytes).length=8))
  rw [hwords,hbytes] at hfull
  match hw : ipWords bytes,hcount with
  | [w₀,w₁,w₂,w₃,w₄,w₅,w₆,w₇],_ =>
    rw [hw] at hfull hsmall
    have h₆ := hsmall w₆ (by simp)
    have h₇ := hsmall w₇ (by simp)
    have htail : Dotted (dotted [w₆/256,w₆%256,w₇/256,w₇%256]) [w₆/256,w₆%256,w₇/256,w₇%256] := by
      refine dotted_text rfl ?_
      intro n hn
      simp only [mem_list] at hn
      omega
    refine ⟨_,_,.v6 hfull,@Literal.embedded
      (colons ([w₀,w₁,w₂,w₃,w₄,w₅].map fun w => Nat.toDigits 16 w)) _ _ _ _ _ _ htail ?_,?_⟩
    · rw [Nat.div_add_mod,Nat.div_add_mod]
      simpa [colons,List.intercalate_cons_cons] using hfull
    · intro he
      have hpoint := hfull.no_point
      rw [he] at hpoint
      exact hpoint (List.mem_append_right _ (List.mem_cons_of_mem _ htail.point))

theorem network_unique_iff {r : String} (h : Network r.toList bytes length) :
    (∀s t : String, Network s.toList bytes length→Network t.toList bytes length→s=t) ↔
      bytes.length=4 := by
  constructor
  · intro hunique
    obtain ⟨network,bits,-,hliteral,hrest⟩ := h
    by_contra hlen
    obtain ⟨x,y,hx,hy,hne⟩ := literal_twice (hliteral.length.resolve_left hlen) hliteral.small
    have hsame := hunique (String.ofList (x++ '/'::bits)) (String.ofList (y++ '/'::bits))
      ⟨x,bits,by simp,hx,hrest⟩ ⟨y,bits,by simp,hy,hrest⟩
    rw [String.ofList_inj] at hsame
    exact hne (List.append_cancel_right hsame)
  · intro hlen s t hs ht
    exact network_text hs ht (hs.normal_of_v4 hlen) (ht.normal_of_v4 hlen)

theorem distinctSorted_congr {l m : List String} (h : ∀x, x∈l ↔ x∈m) :
    distinctSorted l=distinctSorted m := by
  have hperm : l.dedup.Perm m.dedup :=
    (List.perm_ext_iff_of_nodup (List.nodup_dedup l) (List.nodup_dedup m)).mpr (by simpa using h)
  unfold distinctSorted
  refine List.Perm.eq_of_pairwise (fun a b _ _ => le_antisymm) (List.pairwise_insertionSort _ _)
    (List.pairwise_insertionSort _ _) ?_
  exact ((List.perm_insertionSort _ _).trans hperm).trans (List.perm_insertionSort _ _).symm

theorem mem_distinctSorted {l : List String} {x : String} : x∈distinctSorted l ↔ x∈l := by
  rw [distinctSorted,List.mem_insertionSort,List.mem_dedup]

/-- No network stands in the list under two texts. -/
def SpelledOnce (l : List String) : Prop :=
  ∀x∈l, ∀y∈l, ∀bytes length, Network x.toList bytes length→Network y.toList bytes length→x=y

/-- No network is written by both texts. -/
def Apart (x y : String) : Prop :=
  ∀bytes length, Network x.toList bytes length→¬Network y.toList bytes length

instance : Std.Symm Apart := ⟨fun _ _ h bytes length hy hx => h bytes length hx hy⟩

/-- How far the texts of a policy are canonical: a network has one text exactly if it is an IPv4
network, a list names a network twice exactly if it spells one in two ways, and policies of the
same networks are compiled alike exactly if they use the same texts. -/
structure NormalPolicies (lib : Library) (assignmentId : String→String→Protocol→Role→String) :
    Prop where
  unique : ∀(r : String) bytes length, Network r.toList bytes length→
    ((∀s t : String, Network s.toList bytes length→Network t.toList bytes length→s=t) ↔
      bytes.length=4)
  normal : ∀(s : String) bytes length, Network s.toList bytes length→
    (normalCidr s ↔ s=cidrText bytes length) ∧ (bytes.length=4→normalCidr s)
  spelled : ∀l : List String, (∀x∈l, normalCidr x)→SpelledOnce l
  once : ∀node epoch a c, parseRelayAssignment lib node epoch a=.ok ()→a.driver.config=.relay c→
    (c.allowedDestinationCidrs.Pairwise Apart ↔ SpelledOnce c.allowedDestinationCidrs)
  digest : ∀forward enabled facts others reservations phase drainTimeoutSeconds l m,
    compileDirect lib assignmentId forward enabled facts reservations phase
      drainTimeoutSeconds=.ok l→
    compileDirect lib assignmentId forward enabled { facts with allowedDestinationCidrs := others }
      reservations phase drainTimeoutSeconds=.ok m→
    (∀bytes length, (∃x∈facts.allowedDestinationCidrs, Network x.toList bytes length) ↔
      ∃x∈others, Network x.toList bytes length)→
    (SpelledOnce (facts.allowedDestinationCidrs++others)→l=m) ∧
    (l=m ↔ ∀x, x∈facts.allowedDestinationCidrs ↔ x∈others) ∧
    ((∀a∈l, ∀b∈m, a.driver.configDigest=b.driver.configDigest→a.driver.config=b.driver.config)→
      (l.map (·.driver.configDigest)=m.map (·.driver.configDigest) ↔ l=m))

theorem spelledOnce_mem {l m : List String} (hvalid : ∀x∈l, validCidr x) (hspelled : SpelledOnce (l++m))
    (h : ∀bytes length, (∃x∈l, Network x.toList bytes length)→
      ∃x∈m, Network x.toList bytes length) : ∀x∈l, x∈m := by
  intro x hx
  obtain ⟨bytes,length,hnet⟩ := (validCidr_iff x).mp (hvalid x hx)
  obtain ⟨y,hy,hother⟩ := h bytes length ⟨x,hx,hnet⟩
  rwa [hspelled x (List.mem_append_left _ hx) y (List.mem_append_right _ hy) bytes length hnet hother]

section Compiled

variable {lib : Library} {assignmentId : String→String→Protocol→Role→String} {forward : Forward}
  {enabled : Bool} {facts : NodeFacts} {reservations : List ReservedSlot} {phase : Phase}
  {drainTimeoutSeconds : Nat} {m n : List Assignment}

theorem compileDirect_ok (h : compileDirect lib assignmentId forward enabled facts reservations
    phase drainTimeoutSeconds=.ok m) : ∃f assignments, parseForward forward=some f ∧
      (∀x∈facts.allowedDestinationCidrs, validCidr x) ∧
      f.protocols.mapM (directAssignment lib assignmentId f facts reservations phase
        drainTimeoutSeconds ⟨f.target,facts.egressPolicyRevision,facts.allowMetadataTargets,
          distinctSorted facts.allowedDestinationCidrs⟩)=.ok assignments ∧
      m=assignments.insertionSort fun a b => a.assignmentId≤b.assignmentId := by
  simp only [compileDirect,do_ok] at h
  obtain ⟨-,h⟩ := h
  cases hf : parseForward forward with
  | none => simp [hf] at h
  | some f =>
    simp only [hf,do_ok] at h
    obtain ⟨-,-,-,-,hpolicy,-,assignments,hm,rfl⟩ := h
    simp only [not_or,Bool.not_eq_true,Bool.not_eq_false',List.all_eq_true] at hpolicy
    exact ⟨f,assignments,rfl,hpolicy.2.2,hm,rfl⟩

theorem directAssignment_config {f : Forward} {config : DirectConfig} {p : Protocol} {a : Assignment}
    (h : directAssignment lib assignmentId f facts reservations phase drainTimeoutSeconds config p=
      .ok a) : a.driver.config=.direct config := by
  unfold directAssignment at h
  split at h
  · simp only [do_ok] at h
    obtain ⟨-,rfl⟩ := h
    rfl
  · cases h

/-- An accepted Forward has a protocol, so its policy stands in some assignment. -/
theorem compileDirect_config (h : compileDirect lib assignmentId forward enabled facts reservations
    phase drainTimeoutSeconds=.ok m) : m≠[] ∧ ∀a∈m, ∃target, a.driver.config=.direct
      ⟨target,facts.egressPolicyRevision,facts.allowMetadataTargets,
        distinctSorted facts.allowedDestinationCidrs⟩ := by
  obtain ⟨f,assignments,hf,-,hm,rfl⟩ := compileDirect_ok h
  have hparsed := parseForward_some hf
  constructor
  · obtain ⟨p,hp⟩ := List.exists_mem_of_ne_nil _ hparsed.nonempty
    have hprotocol : p∈f.protocols := by
      rw [hparsed.protocols]
      cases p <;> simpa using hp
    have hlength := (forall₂_mapM_ok hm).length_eq
    rw [← List.length_pos_iff,List.length_insertionSort,← hlength]
    exact List.length_pos_of_mem hprotocol
  · intro a ha
    obtain ⟨p,-,hbuilt⟩ := mem_mapM_ok hm ((List.mem_insertionSort _).mp ha)
    exact ⟨f.target,directAssignment_config hbuilt⟩

variable {others : List String}
  (hm : compileDirect lib assignmentId forward enabled facts reservations phase
    drainTimeoutSeconds=.ok m)
  (hn : compileDirect lib assignmentId forward enabled
    { facts with allowedDestinationCidrs := others } reservations phase drainTimeoutSeconds=.ok n)
include hm hn

theorem compileDirect_texts {a b : Assignment}
    (ha : a∈m) (hb : b∈n) (h : a.driver.config=b.driver.config) (x : String) :
    x∈facts.allowedDestinationCidrs ↔ x∈others := by
  obtain ⟨_,hca⟩ := (compileDirect_config hm).2 a ha
  obtain ⟨_,hcb⟩ := (compileDirect_config hn).2 b hb
  have hlists := (hca.symm.trans h).trans hcb
  simp only [RuntimeConfig.direct.injEq,DirectConfig.mk.injEq] at hlists
  rw [← mem_distinctSorted,hlists.2.2.2,mem_distinctSorted]

theorem compileDirect_congr
    (h : ∀x, x∈facts.allowedDestinationCidrs ↔ x∈others) : m=n := by
  obtain ⟨f,l,hf,-,hl,rfl⟩ := compileDirect_ok hm
  obtain ⟨f',l',hf',-,hl',rfl⟩ := compileDirect_ok hn
  obtain rfl := Option.some.inj (hf.symm.trans hf')
  rw [distinctSorted_congr h] at hl
  obtain rfl := Except.ok.inj (hl.symm.trans hl')
  rfl

end Compiled

theorem cidr_policies_normal (lib : Library) (assignmentId : String→String→Protocol→Role→String) :
    NormalPolicies lib assignmentId := by
  refine ⟨fun r bytes length => network_unique_iff,
    fun s bytes length h => ⟨h.normal_iff,h.normal_of_v4⟩,
    fun l h x hx y hy bytes length hnet hother => network_text hnet hother (h x hx) (h y hy),?_,?_⟩
  · intro node epoch a c hparse hconfig
    obtain ⟨c',haccepted⟩ := parseRelayAssignment_ok hparse
    obtain rfl : c=c' := by
      have hsame := hconfig.symm.trans haccepted.config
      cases hsame
      rfl
    constructor
    · intro hpair x hx y hy bytes length hnet hother
      by_contra hne
      exact hpair.forall hx hy hne bytes length hnet hother
    · intro hspelled
      refine (sortedStrings_pairwise haccepted.sorted).imp_of_mem ?_
      intro x y hx hy hlt bytes length hnet hother
      exact hlt.ne (hspelled x hx y hy bytes length hnet hother)
  · intro forward enabled facts others reservations phase drainTimeoutSeconds l m hl hm hsame
    obtain ⟨a,ha⟩ := List.exists_mem_of_ne_nil _ (compileDirect_config hl).1
    have hiff : l=m ↔ ∀x, x∈facts.allowedDestinationCidrs ↔ x∈others :=
      ⟨fun he => compileDirect_texts hl hm ha (he ▸ ha) rfl,compileDirect_congr hl hm⟩
    refine ⟨?_,hiff,?_⟩
    · intro hspelled
      obtain ⟨-,-,-,hvalid,-⟩ := compileDirect_ok hl
      obtain ⟨-,-,-,hother,-⟩ := compileDirect_ok hm
      refine hiff.mpr fun x => ⟨spelledOnce_mem hvalid hspelled (fun b n => (hsame b n).mp) x,
        spelledOnce_mem hother ?_ (fun b n => (hsame b n).mpr) x⟩
      intro x hx y hy
      exact hspelled x (by simpa [or_comm] using hx) y (by simpa [or_comm] using hy)
    · intro htold
      refine ⟨fun h => hiff.mpr ?_,fun h => by rw [h]⟩
      -- the digests of the first assignment and of the one in its place are the same
      have hdigest := List.mem_map_of_mem (f := fun a : Assignment => a.driver.configDigest) ha
      rw [h,List.mem_map] at hdigest
      obtain ⟨b,hb,hsame⟩ := hdigest
      exact compileDirect_texts hl hm ha hb (htold a ha b hb hsame.symm)

theorem Network.read (h : Network s.toList bytes length) :
    (s.toList.splitOn '/').head?.bind (ipBytes <| String.ofList ·)=some bytes := by
  obtain ⟨network,bits,htext,hliteral,hbits,-⟩ := h
  rw [htext,splitOn_network hliteral hbits]
  exact hliteral.read

namespace NetworkSample

/-- An assignment whose ingress Node has the policy. -/
def assignment (cidrs : List String) : Assignment :=
  let i := RelaySample.input
  let ingress := { RelaySample.facts "n2" 'b' with allowedDestinationCidrs := cidrs }
  let egress := RelaySample.facts "n1" 'a'
  let near := RelaySample.reserved "n2" .ingress .tcp .tcp "10.0.0.1" 9000
  let far := RelaySample.reserved "n1" .egress .tcp .tcp "10.0.0.2" 9100
  relayAssignment library i i.forward 4 .tcp (relayBinding (planner RelaySample.assignmentId) i
    i.forward 4 ingress egress .tcp near far) far ingress egress near

def facts (cidrs : List String) : NodeFacts := { RelaySample.facts "n2" 'b' with
  capabilities := ["adp.3","native.direct.v1","tcp"], allowedDestinationCidrs := cidrs }

/-- A direct Forward under the policy. -/
def compiled (cidrs : List String) : Except String (List Assignment) :=
  compileDirect library RelaySample.assignmentId
    { RelaySample.input.forward with protocols := [.tcp], via := [], transport := none } true
    (facts cidrs) [⟨"n2","f1",.tcp,9000,1,4⟩] .active 30

def digests (cidrs : List String) : Option (List String) :=
  (compiled cidrs).toOption.map fun l => l.map fun a => a.driver.configDigest

end NetworkSample

open NetworkSample in
/-- All of IPv6 in a text that is not the normal one, next to an IPv4 network: the ingress lists
each once, and the policy is compiled alike in another order and with a text twice. -/
theorem cidr_policies_normal_mixed :
    normalCidr "0::/0"=false ∧
    (∃c, (assignment ["10.0.0.0/8","0::/0"]).driver.config=.relay c ∧
      c.allowedDestinationCidrs=["0::/0","10.0.0.0/8"] ∧
      c.allowedDestinationCidrs.Pairwise Apart) ∧
    ∃l, l≠[] ∧ compiled ["10.0.0.0/8","0::/0"]=.ok l ∧
      compiled ["0::/0","10.0.0.0/8","0::/0"]=.ok l := by
  have hspelled (l : List String) (h : l⊆["0::/0","10.0.0.0/8"]) : SpelledOnce l := by
    intro x hx y hy bytes length hnet hother
    have hread := hnet.read.trans hother.read.symm
    have hx := h hx
    have hy := h hy
    simp only [mem_list] at hx hy
    rcases hx with rfl|rfl <;> rcases hy with rfl|rfl
    · rfl
    · exact absurd hread (by decide +kernel)
    · exact absurd hread (by decide +kernel)
    · rfl
  have hcompiled (l : List String) (h : (compiled l).toOption.isSome) : ∃m, compiled l=.ok m := by
    obtain ⟨m,hm⟩ := Option.isSome_iff_exists.mp h
    exact ⟨m,(toOption_ok _ _).mp hm⟩
  obtain ⟨l,hl⟩ := hcompiled ["10.0.0.0/8","0::/0"] (by decide +kernel)
  obtain ⟨m,hm⟩ := hcompiled ["0::/0","10.0.0.0/8","0::/0"] (by decide +kernel)
  have hnormal := cidr_policies_normal library RelaySample.assignmentId
  refine ⟨by decide +kernel,⟨_,rfl,by decide +kernel,?_⟩,l,(compileDirect_config hl).1,hl,?_⟩
  · refine (hnormal.once "n2" 1 (assignment ["10.0.0.0/8","0::/0"]) _
      ((toOption_ok _ _).mp (by decide +kernel)) rfl).mpr (hspelled _ ?_)
    intro x hx
    exact mem_distinctSorted.mp hx
  · have hsame := hnormal.digest _ _ (facts ["10.0.0.0/8","0::/0"]) _ _ _ _ l m hl hm ?_
    · rw [hm,hsame.1 (hspelled _ (by decide))]
    · intro bytes length
      simp [facts,or_comm]

open NetworkSample in
/-- One network in two spellings: both are accepted, also in one assignment, and two policies of
this one network are compiled with two digests. -/
theorem cidr_policies_spelled :
    Network "0::/0".toList (List.replicate 16 0) 0 ∧ Network "::/0".toList (List.replicate 16 0) 0 ∧
    validCidr "0::/0" ∧ validCidr "::/0" ∧
    parseRelayAssignment library "n2" 1 (assignment ["::/0","0::/0"])=.ok () ∧
    (∃c, (assignment ["::/0","0::/0"]).driver.config=.relay c ∧
      c.allowedDestinationCidrs=["0::/0","::/0"]) ∧
    (digests ["0::/0"]).isSome ∧ (digests ["::/0"]).isSome ∧ digests ["0::/0"]≠digests ["::/0"] := by
  have hnetwork (text : List Char) (h : ipBytes (String.ofList text)=some (List.replicate 16 0)) :
      Network (text++ '/'::['0']) (List.replicate 16 0) 0 :=
    ⟨text,['0'],rfl,by simpa using ipBytes_iff.mp h,rfl,rfl,by simp,fun i _ => Nat.zero_testBit i⟩
  refine ⟨hnetwork "0::".toList (by decide +kernel),hnetwork "::".toList (by decide +kernel),
    by decide +kernel,by decide +kernel,?_,⟨_,rfl,by decide +kernel⟩,by decide +kernel,
    by decide +kernel,by decide +kernel⟩
  exact (toOption_ok _ _).mp (by decide +kernel)

end TuneX.Contracts
