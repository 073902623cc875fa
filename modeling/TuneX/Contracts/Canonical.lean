import TuneX.Agent.RelayLimits

namespace TuneX.Contracts

open Agent Framework

def decimal (l : List Char) : Nat := l.foldl (fun n c => 10*n+(c.toNat-48)) 0

/-- Decimal digits without a leading zero. -/
def plainDecimal (l : List Char) : Bool :=
  !l.isEmpty && l.all Char.isDigit && !(decide (1<l.length) && l.head? == some '0')

def octet (l : List Char) : Option Nat :=
  if plainDecimal l && decide (l.length≤3) && decide (decimal l≤255) then some (decimal l) else none

def ipv4Bytes (value : List Char) : Option (List Nat) :=
  let fields := value.splitOn '.'
  if fields.length=4 then fields.mapM octet else none

def hexDigit (c : Char) : Bool := c.isDigit || ('a' ≤ c && c ≤ 'f') || ('A' ≤ c && c ≤ 'F')

def hexValue (c : Char) : Nat :=
  if c.isDigit then c.toNat-48 else if 'a' ≤ c then c.toNat-87 else c.toNat-55

def hexWord (l : List Char) : Nat := l.foldl (fun n c => 16*n+hexValue c) 0

/-- `split('::')`, with the text before the first separator still to be closed. -/
def splitDouble : List Char→List Char→List (List Char)
  | part,':' :: ':' :: l => part.reverse::splitDouble [] l
  | part,c::l => splitDouble (c::part) l
  | part,[] => [part.reverse]

/-- A dotted tail is rewritten as two hexadecimal words. -/
def expandTail (value : List Char) : Option (List Char) :=
  if '.'∈value then
    let tail := (value.reverse.takeWhile fun c => c != ':').reverse
    match ipv4Bytes tail with
    | some [a,b,c,d] =>
      some (value.take (value.length-tail.length)++Nat.toDigits 16 (256*a+b)++
        ':'::Nat.toDigits 16 (256*c+d))
    | _ => none
  else some value

def fields (l : List Char) : List (List Char) := if l.isEmpty then [] else l.splitOn ':'

def ipv6Bytes (input : List Char) : Option (List Nat) :=
  let halves := splitDouble [] input
  let left := fields (halves.headD [])
  let right := fields ((halves.drop 1).headD [])
  let count := left.length+right.length
  if 2<halves.length then none
  else if (if halves.length=1 then count≠8 else 8 ≤ count) then none
  else if (left++right).any (fun f => !(f.all hexDigit && decide (1≤f.length) &&
      decide (f.length≤4))) then none
  else
    let words := left.map hexWord++List.replicate (8-count) 0++right.map hexWord
    some (words.flatMap fun w => [w/256,w%256])

def ipBytes (value : String) : Option (List Nat) :=
  match ipv4Bytes value.toList with
  | some bytes => some bytes
  | none =>
    if !value.toList.contains ':' ||
        value.toList.any (fun c => !(hexDigit c || c == ':' || c == '.')) then none
    else (expandTail value.toList).bind ipv6Bytes

def ipWords : List Nat→List Nat
  | a::b::l => (256*a+b)::ipWords l
  | _ => []

/-- The first longest run of at least two zero words, as its start and length. A shorter rest
of a run never replaces the run itself. -/
def bestRun : Nat→Nat×Nat→List Nat→Nat×Nat
  | _,best,[] => best
  | i,best,w::l =>
    let run := ((w::l).takeWhile (·==0)).length
    bestRun (i+1) (if best.2 < run then (i,run) else best) l

def joinWords (l : List Nat) : List Char :=
  [':'].intercalate (l.map fun w => Nat.toDigits 16 w)

def dotted (bytes : List Nat) : List Char := ['.'].intercalate (bytes.map fun b => Nat.toDigits 10 b)

def mapped (bytes : List Nat) : Bool := bytes.take 12==List.replicate 10 0++[255,255]

/-- The canonical text of an address. -/
def ipText (bytes : List Nat) : String :=
  if bytes.length=4 then String.ofList (dotted bytes)
  else if mapped bytes then String.ofList ("::ffff:".toList++dotted (bytes.drop 12))
  else
    let words := ipWords bytes
    let best := bestRun 0 (0,1) words
    if best.2=1 then String.ofList (joinWords words)
    else String.ofList (joinWords (words.take best.1)++"::".toList++
      joinWords (words.drop (best.1+best.2)))

def normalizeIp (value : String) : Option String := (ipBytes value).map ipText

def unspecified (bytes : List Nat) : Bool :=
  bytes.all (·==0) || (decide (bytes.length=16) && mapped bytes && (bytes.drop 12).all (·==0))

def normalizeTargetHost (input : String) : Option String :=
  if input.toList.isEmpty ||
      input.toList.any (fun c => !hostChar c) then none
  else
    match ipBytes input with
    | some bytes => if unspecified bytes then none else some (ipText bytes)
    | none =>
      let lower := input.toList.map Char.toLower
      let host := if lower.getLast?=some '.' then lower.dropLast else lower
      if 253<host.length ∨ Library.numericHost host ∨ ¬Library.hostLabels host then none
      else some (String.ofList host)

/-- No host bit is set beyond the prefix. -/
def maskedBytes (bytes : List Nat) (bits : Nat) : Bool :=
  bytes.zipIdx.all fun b => b.1%2^(8-min 8 (bits-8*b.2))==0

def validCidr (value : String) : Bool :=
  match value.toList.splitOn '/' with
  | [address,bits] =>
    plainDecimal bits &&
      match ipBytes (String.ofList address) with
      | some bytes => decide (decimal bits≤8*bytes.length) && maskedBytes bytes (decimal bits)
      | none => false
  | _ => false

/-- `net/netip` reads the same address texts, except that it also knows zones, and writes the
same canonical texts. -/
structure Netip (lib : Library) : Prop where
  addr : ∀text bytes, ipBytes text=some bytes→
    lib.parseAddr text=some ⟨"",unspecified bytes,ipText bytes⟩
  other : ∀text, ipBytes text=none→ '%'∉text.toList→lib.parseAddr text=none
  net : ∀text address bits bytes, text.toList.splitOn '/'=[address,bits]→plainDecimal bits→
    ipBytes (String.ofList address)=some bytes→decimal bits≤8*bytes.length→
    lib.parsePrefix text=some ⟨maskedBytes bytes (decimal bits),""⟩

variable {lib : Library}

theorem Netip.canonicalAddress (h : Netip lib) {address : String}
    (ha : normalizeIp address=some address) : lib.canonicalAddress address := by
  unfold normalizeIp at ha
  obtain ⟨bytes,hb,ht⟩ := Option.map_eq_some_iff.mp ha
  unfold Library.canonicalAddress
  rw [h.addr address bytes hb]
  simp [ht]

theorem Netip.validCIDR (h : Netip lib) {value : String} (hv : validCidr value) :
    lib.validCIDR value := by
  unfold validCidr at hv
  split at hv
  · next address bits hsplit =>
    rw [Bool.and_eq_true] at hv
    obtain ⟨hbits,hv⟩ := hv
    split at hv
    · next bytes hb =>
      simp only [bool_ok] at hv
      have hnet := h.net value address bits bytes hsplit hbits hb hv.1
      unfold Library.validCIDR
      simp only [plainDecimal,Bool.and_eq_true] at hbits
      rw [hsplit,hnet]
      simp only [Bool.and_eq_true]
      exact ⟨⟨⟨hbits.1.1,hbits.2⟩,hbits.1.2⟩,hv.2,rfl⟩
    · simp at hv
  · simp at hv

theorem hostChar_ascii {c : Char} (h : hostChar c) : c.toNat≤127 := by
  simp only [hostChar,Bool.or_eq_true,beq_iff_eq] at h
  rcases h with ((h|rfl)|rfl)|rfl
  · have hrange := alphanum_range h
    omega
  all_goals decide

theorem Netip.canonicalHost (h : Netip lib) {host : String}
    (hh : normalizeTargetHost host=some host) : lib.canonicalHost host := by
  unfold normalizeTargetHost at hh
  rw [Option.ite_none_left_eq_some] at hh
  obtain ⟨hchars,hh⟩ := hh
  simp only [Bool.or_eq_true,not_or,Bool.not_eq_true,List.any_eq_false,Bool.not_eq_false'] at hchars
  have hascii : ¬host.toList.any (fun c => 127<c.toNat) := by
    simp only [List.any_eq_true,decide_eq_true_eq,not_exists,not_and]
    intro c hc hlarge
    have hsmall := hostChar_ascii (hchars.2 c hc)
    omega
  have hzone : '%'∉host.toList := by
    intro hmem
    have hpercent := hchars.2 '%' hmem
    exact absurd hpercent (by decide)
  unfold Library.canonicalHost Library.normalizedHost
  rw [if_neg hascii,decide_eq_true_eq]
  cases hb : ipBytes host with
  | some bytes =>
    rw [hb] at hh
    rw [Option.ite_none_left_eq_some] at hh
    have htext := Option.some.inj hh.2
    rw [h.addr host bytes hb]
    simpa [htext] using hh.1
  | none =>
    rw [hb] at hh
    rw [h.other host hb hzone]
    exact hh

/-- `net/netip` reads nothing else: what it takes with a percent sign has a zone, and a network
has an address and a length that fits it. -/
structure NetipExact (lib : Library) : Prop extends Netip lib where
  zoned : ∀text a, '%'∈text.toList→lib.parseAddr text=some a→a.zone≠""
  network : ∀text address bits net, text.toList.splitOn '/'=[address,bits]→plainDecimal bits→
    lib.parsePrefix text=some net→∃bytes, ipBytes (String.ofList address)=some bytes ∧
      decimal bits≤8*bytes.length

theorem NetipExact.bytes (h : NetipExact lib) {text : String} {a : Addr}
    (ha : lib.parseAddr text=some a) (hz : a.zone="") :
    ∃bytes, ipBytes text=some bytes ∧ a=⟨"",unspecified bytes,ipText bytes⟩ := by
  cases hb : ipBytes text with
  | some bytes =>
    rw [h.addr text bytes hb] at ha
    exact ⟨bytes,rfl,(Option.some.inj ha).symm⟩
  | none =>
    by_cases hp : '%'∈text.toList
    · exact absurd hz (h.zoned text a hp ha)
    · rw [h.other text hb hp] at ha
      cases ha

theorem NetipExact.canonicalAddress_iff (h : NetipExact lib) (address : String) :
    lib.canonicalAddress address ↔ normalizeIp address=some address := by
  refine ⟨?_,fun ha => h.toNetip.canonicalAddress ha⟩
  intro hc
  unfold Library.canonicalAddress at hc
  split at hc
  · next a ha =>
    simp only [schema_ok] at hc
    obtain ⟨bytes,hb,rfl⟩ := h.bytes ha hc.1
    rw [normalizeIp,hb,Option.map_some]
    exact congrArg some hc.2
  · cases hc

theorem NetipExact.validCIDR_iff (h : NetipExact lib) (value : String) :
    lib.validCIDR value=validCidr value := by
  rw [Bool.eq_iff_iff]
  refine ⟨?_,fun hv => h.toNetip.validCIDR hv⟩
  intro hv
  unfold Library.validCIDR at hv
  split at hv
  · next address bits hsplit =>
    simp only [Bool.and_eq_true] at hv
    obtain ⟨⟨⟨hne,hzero⟩,hdigits⟩,hv⟩ := hv
    have hbits : plainDecimal bits := by
      simp only [plainDecimal,Bool.and_eq_true]
      exact ⟨⟨hne,hdigits⟩,hzero⟩
    split at hv
    · next net hnet =>
      obtain ⟨bytes,hb,hlen⟩ := h.network value address bits net hsplit hbits hnet
      have hmask := h.net value address bits bytes hsplit hbits hb hlen
      rw [hnet] at hmask
      obtain rfl := Option.some.inj hmask
      simp only [Bool.and_eq_true] at hv
      unfold validCidr
      rw [hsplit]
      simp [hbits,hb,hlen,hv.1]
    · cases hv
  · cases hv

theorem octet_digits {l : List Char} {n : Nat} (h : octet l=some n) : ∀c∈l, c.isDigit := by
  unfold octet at h
  split_ifs at h with hc
  simp only [plainDecimal,schema_ok] at hc
  exact hc.1.1.1.2

theorem ipv4Bytes_chars {value : List Char} {bytes : List Nat} (h : ipv4Bytes value=some bytes) :
    ∀c∈value, c.isDigit ∨ c = '.' := by
  intro c hc
  simp only [ipv4Bytes,Option.ite_none_right_eq_some] at h
  have hsplit : ['.'].intercalate (value.splitOn '.')=value := List.intercalate_splitOn '.'
  rw [← hsplit] at hc
  rcases mem_intercalate hc with rfl|⟨field,hfield,hc⟩
  · exact .inr rfl
  · obtain ⟨n,-,hn⟩ := mem_forall₂ (forall₂_mapM_some h.2).flip hfield
    exact .inl (octet_digits hn c hc)

theorem hexDigit_alphanum {c : Char} (h : hexDigit c) : c.isAlphanum := by
  have hle : ∀a b : Char, a ≤ b ↔ a.toNat≤b.toNat := fun _ _ => Iff.rfl
  simp only [hexDigit,Bool.or_eq_true,bool_ok,hle] at h
  delta Char.isAlphanum Char.isAlpha Char.isUpper Char.isLower
  simp only [Bool.or_eq_true,bool_ok]
  obtain (h|h)|h := h
  · exact .inr h
  · left
    right
    exact ⟨h.1,le_trans h.2 (by decide)⟩
  · left
    left
    exact ⟨h.1,le_trans h.2 (by decide)⟩

theorem ipBytes_chars {value : String} {bytes : List Nat} (h : ipBytes value=some bytes) :
    ∀c∈value.toList, hostChar c := by
  unfold ipBytes at h
  split at h
  · next b hb =>
    intro c hc
    rcases ipv4Bytes_chars hb c hc with hdigit|rfl
    · simp [hostChar,Char.isAlphanum,hdigit]
    · rfl
  · rw [Option.ite_none_left_eq_some] at h
    simp only [Bool.or_eq_true,not_or,Bool.not_eq_true,List.any_eq_false] at h
    intro c hc
    have hchar := h.1.2 c hc
    simp only [Bool.not_eq_false',Bool.or_eq_true,beq_iff_eq] at hchar
    rcases hchar with (hhex|rfl)|rfl
    · simp [hostChar,hexDigit_alphanum hhex]
    · rfl
    · rfl

theorem NetipExact.relayHost_iff (h : NetipExact lib) (host : String) :
    lib.relayHost host ↔ normalizeTargetHost host=some host := by
  refine ⟨?_,fun hh => canonicalHost_relay (h.toNetip.canonicalHost hh)⟩
  intro hr
  unfold Library.relayHost at hr
  unfold normalizeTargetHost
  rw [Option.ite_none_left_eq_some]
  split at hr
  · next a ha =>
    simp only [schema_ok,Bool.not_eq_true'] at hr
    obtain ⟨bytes,hb,rfl⟩ := h.bytes ha hr.1.1
    have hne : host.toList≠[] := by
      intro he
      simp [ipBytes,ipv4Bytes,he] at hb
    refine ⟨?_,?_⟩
    · simpa [hne] using ipBytes_chars hb
    · rw [hb]
      change (if unspecified bytes then none else some (ipText bytes))=some host
      rw [if_neg (Bool.eq_false_iff.mp hr.1.2)]
      exact congrArg some hr.2
  · next ha =>
    simp only [schema_ok,bne_iff_ne,Bool.not_eq_true'] at hr
    obtain ⟨⟨⟨⟨hlower,hdot⟩,hnumeric⟩,hlen⟩,hlabels⟩ := hr
    have hne : host.toList≠[] := by
      intro he
      simp [Library.numericHost,he] at hnumeric
    have hb : ipBytes host=none := by
      cases hb : ipBytes host with
      | none => rfl
      | some bytes =>
        rw [h.addr host bytes hb] at ha
        cases ha
    have hmap : host.toList.map Char.toLower=host.toList := by
      rw [List.map_congr_left hlower,List.map_id']
    refine ⟨?_,?_⟩
    · simpa [hne] using hostLabels_chars hlabels
    · rw [hb]
      simp only [hmap,if_neg hdot]
      rw [if_neg]
      · rw [String.ofList_toList]
      · rw [← String.length_toList] at hlen
        simp [hnumeric,hlabels,hlen]

end TuneX.Contracts
