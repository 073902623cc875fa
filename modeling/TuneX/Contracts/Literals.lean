import TuneX.Contracts.Canonical

namespace TuneX.Contracts

open Framework

/-- One to three decimal digits without a leading zero, at most 255. -/
def Octet (text : List Char) (n : Nat) : Prop :=
  plainDecimal text ∧ text.length≤3 ∧ decimal text=n ∧ n≤255

def Dotted (text : List Char) (bytes : List Nat) : Prop :=
  ∃parts, text=['.'].intercalate parts ∧ parts.length=4 ∧ List.Forall₂ Octet parts bytes

def Group (text : List Char) : Prop :=
  (∀c∈text, hexDigit c) ∧ 1 ≤ text.length ∧ text.length≤4

def colons (groups : List (List Char)) : List Char := [':'].intercalate groups

def wordBytes (words : List Nat) : List Nat := words.flatMap fun w => [w/256,w%256]

/-- Eight groups, or fewer with `::` for the zero groups left out. -/
inductive Grouped : List Char→List Nat→Prop
  | full (groups : List (List Char)) (hg : ∀g∈groups, Group g) (hlen : groups.length=8) :
    Grouped (colons groups) (wordBytes (groups.map hexWord))
  | compressed (left right : List (List Char)) (hg : ∀g∈left++right, Group g)
      (hlen : left.length+right.length<8) :
    Grouped (colons left++ ':':: ':'::colons right) (wordBytes (left.map hexWord++
      List.replicate (8-(left.length+right.length)) 0++right.map hexWord))

/-- An IPv4 or IPv6 address without a zone; the last two groups of an IPv6 address may be
written as an IPv4 address. -/
inductive Literal : List Char→List Nat→Prop
  | v4 {text : List Char} {bytes : List Nat} (h : Dotted text bytes) : Literal text bytes
  | v6 {text : List Char} {bytes : List Nat} (h : Grouped text bytes) : Literal text bytes
  | embedded {head tail : List Char} {a b c d : Nat} {bytes : List Nat} (ht : Dotted tail [a,b,c,d])
      (h : Grouped (head++ ':'::(Nat.toDigits 16 (256*a+b)++ ':'::Nat.toDigits 16 (256*c+d))) bytes) :
    Literal (head++ ':'::tail) bytes

variable {text : List Char} {n : Nat} {c : Char} {g part rest head tail value : List Char}

theorem octet_some : octet text=some n ↔ Octet text n := by
  unfold octet Octet
  split_ifs with h
  · simp only [bool_ok] at h
    simp only [Option.some.injEq]
    constructor
    · rintro rfl
      exact ⟨h.1.1,h.1.2,rfl,h.2⟩
    · exact fun ho => ho.2.2.1
  · simp only [bool_ok,not_and,not_le] at h
    constructor
    · intro hn
      cases hn
    · rintro ⟨hp,hl,rfl,hn⟩
      exact absurd (h ⟨hp,hl⟩) (by omega)

theorem Octet.digits (h : Octet text n) : ∀c∈text, c.isDigit :=
  octet_digits (octet_some.mpr h)

theorem digit_ne {x : Char} (h : c.isDigit) (hx : x.isDigit=false) : c≠x := by
  rintro rfl
  rw [h] at hx
  cases hx

variable {bytes : List Nat}

theorem ipv4Bytes_iff : ipv4Bytes text=some bytes ↔ Dotted text bytes := by
  simp only [ipv4Bytes,Option.ite_none_right_eq_some]
  constructor
  · rintro ⟨hlen,h⟩
    refine ⟨text.splitOn '.',(List.intercalate_splitOn '.').symm,hlen,?_⟩
    exact (forall₂_mapM_some h).imp fun _ _ => octet_some.mp
  · rintro ⟨parts,rfl,hlen,hparts⟩
    have hpoint : ∀part∈parts, '.'∉part := by
      intro part hpart hmem
      obtain ⟨n,-,hn⟩ := mem_forall₂ hparts.flip hpart
      exact digit_ne (Octet.digits hn '.' hmem) (by decide) rfl
    have hne : parts≠[] := by
      rintro rfl
      simp at hlen
    rw [List.splitOn_intercalate '.' hpoint hne]
    exact ⟨hlen,mapM_some_of_forall₂ (hparts.imp fun _ _ => octet_some.mpr)⟩

theorem Dotted.chars (h : Dotted text bytes) : ∀c∈text, c.isDigit ∨ c= '.' :=
  ipv4Bytes_chars (ipv4Bytes_iff.mpr h)

theorem Dotted.no_colon (h : Dotted text bytes) : ':'∉text := by
  intro hc
  rcases h.chars ':' hc with hd|hd
  · exact absurd hd (by decide)
  · exact absurd hd (by decide)

theorem Dotted.length (h : Dotted text bytes) : bytes.length=4 := by
  obtain ⟨parts,-,hlen,hparts⟩ := h
  rw [← hparts.length_eq,hlen]

theorem Dotted.point (h : Dotted text bytes) : '.'∈text := by
  obtain ⟨parts,rfl,hlen,-⟩ := h
  match parts,hlen with
  | p::q::rest,_ => simp [List.intercalate_cons_cons]

theorem Dotted.small (h : Dotted text bytes) : ∀n∈bytes, n<256 := by
  obtain ⟨parts,-,-,hparts⟩ := h
  intro n hn
  obtain ⟨part,-,ho⟩ := mem_forall₂ hparts hn
  have hle := ho.2.2.2
  omega

theorem Group.no_colon (h : Group g) : ':'∉g := by
  intro hc
  exact absurd (h.1 ':' hc) (by decide)

variable {groups : List (List Char)}

theorem group_colons (hg : ∀g∈groups, Group g) : ∀c∈colons groups, hexDigit c ∨ c= ':' := by
  intro c hc
  rcases Agent.mem_intercalate hc with rfl|⟨g,hmem,hc⟩
  · exact .inr rfl
  · exact .inl ((hg g hmem).1 c hc)

theorem splitDouble_append (hg : ':'∉g) :
    splitDouble part (g++rest)=splitDouble (g.reverse++part) rest := by
  induction g generalizing part with
  | nil => rfl
  | cons c g ih =>
    have hc : c≠ ':' := fun he => hg (he ▸ List.mem_cons_self)
    have htail : ':'∉g := fun hm => hg (List.mem_cons_of_mem _ hm)
    rw [List.cons_append,splitDouble.eq_2 _ _ _ (fun _ he _ => hc he),ih htail,
      List.reverse_cons,List.append_assoc]
    rfl

theorem splitDouble_colon (hc : c≠ ':') :
    splitDouble part (':'::c::rest)=splitDouble (':'::part) (c::rest) := by
  rw [splitDouble.eq_2]
  intro l _ he
  exact hc (List.cons.inj he).1

theorem splitDouble_groups (part rest : List Char)
    (hg : ∀g∈groups, Group g) :
    splitDouble part (colons groups++rest)=splitDouble ((colons groups).reverse++part) rest := by
  induction groups generalizing part with
  | nil => rfl
  | cons g groups ih =>
    have hhead := hg g List.mem_cons_self
    have htail : ∀g∈groups, Group g := fun x hx => hg x (List.mem_cons_of_mem _ hx)
    cases groups with
    | nil =>
      simp only [colons,List.intercalate_singleton]
      exact splitDouble_append hhead.no_colon
    | cons g' groups =>
      have hfirst := htail g' List.mem_cons_self
      obtain ⟨c,cs,hcs⟩ := List.exists_cons_of_length_pos (l := g') (by have := hfirst.2.1; omega)
      have hc : c≠ ':' := fun he => hfirst.no_colon (by simp [hcs,he])
      have hmore : ∃more, colons (g'::groups)=c::more := by
        cases groups with
        | nil => exact ⟨cs,by simp [colons,hcs]⟩
        | cons g'' groups => exact ⟨_,by rw [colons,List.intercalate_cons_cons,hcs]; rfl⟩
      obtain ⟨more,hmore⟩ := hmore
      have hstep : colons (g::g'::groups)=g++ ':'::colons (g'::groups) := by
        simp [colons,List.intercalate_cons_cons]
      rw [hstep,List.append_assoc,splitDouble_append hhead.no_colon,List.cons_append,hmore,
        List.cons_append,splitDouble_colon hc,← List.cons_append (a := c),← hmore,ih _ htail]
      simp

theorem splitDouble_ne_nil (part l : List Char) : splitDouble part l≠[] := by
  induction part, l using splitDouble.induct with
  | case1 part l _ => simp [splitDouble.eq_1]
  | case2 part c l hne ih => rwa [splitDouble.eq_2 _ _ _ hne]
  | case3 part => simp [splitDouble]

theorem splitDouble_join (part l : List Char) :
    [':',':'].intercalate (splitDouble part l)=part.reverse++l := by
  induction part, l using splitDouble.induct with
  | case1 part l ih =>
    rw [splitDouble.eq_1,List.intercalate_cons_of_ne_nil (splitDouble_ne_nil [] l),ih]
    simp
  | case2 part c l hne ih =>
    rw [splitDouble.eq_2 _ _ _ hne,ih]
    simp
  | case3 part => simp [splitDouble]

theorem colons_fields (l : List Char) : colons (fields l)=l := by
  unfold fields
  split_ifs with h
  · rw [List.isEmpty_iff.mp h]
    rfl
  · exact List.intercalate_splitOn ':'

theorem fields_colons (hg : ∀g∈groups, Group g) : fields (colons groups)=groups := by
  cases groups with
  | nil => rfl
  | cons g groups =>
    have hne : colons (g::groups)≠[] := by
      have hlen := (hg g List.mem_cons_self).2.1
      cases groups with
      | nil => rw [colons,List.intercalate_singleton]; exact List.length_pos_iff.mp hlen
      | cons g' groups => simp [colons,List.intercalate_cons_cons]
    rw [fields,if_neg (by simpa using hne)]
    exact List.splitOn_intercalate ':' (fun x hx => (hg x hx).no_colon) (by simp)

theorem groups_checked {l : List (List Char)} :
    ¬(l.any fun f => !(f.all hexDigit && decide (1≤f.length) && decide (f.length≤4))) ↔
      ∀g∈l, Group g := by
  simp only [List.any_eq_true,not_exists,not_and,Bool.not_eq_true,Bool.not_eq_false',schema_ok,
    Group,and_assoc]

theorem ipv6Bytes_halves {left : List Char} (right : List Char) (double : Bool)
    (h : splitDouble [] text=left::(if double then [right] else [])) (hr : double=false → right=[]) :
    ipv6Bytes text=some bytes ↔
      (if double then (fields left).length+(fields right).length<8
        else (fields left).length+(fields right).length=8) ∧
      (∀g∈fields left++fields right, Group g) ∧
      wordBytes ((fields left).map hexWord++
        List.replicate (8-((fields left).length+(fields right).length)) 0++
        (fields right).map hexWord)=bytes := by
  unfold ipv6Bytes
  cases double with
  | false =>
    obtain rfl := hr rfl
    simp only [h,Bool.false_eq_true,if_false,List.headD_cons,List.drop_succ_cons,List.drop_nil,
      List.headD_nil,List.length_singleton,Option.ite_none_left_eq_some,groups_checked,
      Option.some.injEq,wordBytes]
    simp
  | true =>
    simp only [h,if_true,List.headD_cons,List.drop_succ_cons,List.drop_zero,List.length_cons,
      List.length_nil,Option.ite_none_left_eq_some,groups_checked,Option.some.injEq,wordBytes]
    simp

theorem ipv6Bytes_iff : ipv6Bytes text=some bytes ↔ Grouped text bytes := by
  constructor
  · intro h
    have hjoin := splitDouble_join [] text
    have hne := splitDouble_ne_nil [] text
    match hhalves : splitDouble [] text with
    | [] => exact absurd hhalves hne
    | [l] =>
      rw [hhalves,List.intercalate_singleton] at hjoin
      rw [ipv6Bytes_halves [] false hhalves (fun _ => rfl)] at h
      obtain ⟨hlen,hg,rfl⟩ := h
      have hempty : fields []=[] := rfl
      simp only [hempty,List.append_nil,List.length_nil,Nat.add_zero,List.map_nil] at hlen hg ⊢
      have htext : text=colons (fields l) := by
        rw [colons_fields,hjoin]
        rfl
      rw [htext,show 8-(fields l).length=0 by simp at hlen; omega]
      simp only [List.replicate_zero,List.append_nil]
      exact .full (fields l) hg (by simpa using hlen)
    | [l,r] =>
      rw [hhalves] at hjoin
      rw [ipv6Bytes_halves r true hhalves (by simp)] at h
      obtain ⟨hlen,hg,rfl⟩ := h
      have htext : text=colons (fields l)++ ':':: ':'::colons (fields r) := by
        rw [colons_fields,colons_fields]
        simpa [List.intercalate_cons_cons] using hjoin.symm
      rw [htext]
      exact .compressed (fields l) (fields r) hg (by simpa using hlen)
    | _::_::_::_ =>
      unfold ipv6Bytes at h
      simp [hhalves] at h
  · intro h
    cases h with
    | full groups hg hlen =>
      have hsplit := splitDouble_groups [] [] hg
      simp only [List.append_nil,splitDouble,List.reverse_reverse] at hsplit
      rw [ipv6Bytes_halves [] false hsplit (fun _ => rfl),fields_colons hg]
      have hempty : fields []=[] := rfl
      simp only [hempty,List.append_nil,List.length_nil,Nat.add_zero,List.map_nil,hlen]
      simpa using hg
    | compressed left right hg hlen =>
      have hleft : ∀g∈left, Group g := fun g hm => hg g (List.mem_append_left _ hm)
      have hright : ∀g∈right, Group g := fun g hm => hg g (List.mem_append_right _ hm)
      have htail := splitDouble_groups [] [] hright
      have hsplit := splitDouble_groups [] (':':: ':'::colons right) hleft
      simp only [List.append_nil,splitDouble,List.reverse_reverse] at hsplit htail
      rw [htail] at hsplit
      rw [ipv6Bytes_halves (colons right) true hsplit (by simp),
        fields_colons hleft,fields_colons hright]
      exact ⟨by simpa using hlen,hg,rfl⟩

theorem Grouped.chars (h : Grouped text bytes) : ∀c∈text, hexDigit c ∨ c= ':' := by
  cases h with
  | full groups hg _ => exact group_colons hg
  | compressed left right hg _ =>
    intro c hc
    simp only [List.mem_append,List.mem_cons] at hc
    rcases hc with hc|rfl|rfl|hc
    · exact group_colons (fun g hm => hg g (List.mem_append_left _ hm)) c hc
    · exact .inr rfl
    · exact .inr rfl
    · exact group_colons (fun g hm => hg g (List.mem_append_right _ hm)) c hc

theorem Grouped.colon (h : Grouped text bytes) : ':'∈text := by
  cases h with
  | full groups _ hlen =>
    match groups,hlen with
    | p::q::rest,_ => simp [colons,List.intercalate_cons_cons]
  | compressed left right _ _ => simp

theorem hexValue_lt (h : hexDigit c) : hexValue c<16 := by
  have hle (a b : Char) : a ≤ b ↔ a.toNat ≤ b.toNat := Iff.rfl
  simp only [hexDigit,Char.isDigit,Bool.or_eq_true,bool_ok,hle] at h
  unfold hexValue
  simp only [Char.isDigit,bool_ok,hle]
  have h0 : UInt32.toNat c.val=c.toNat := rfl
  have h9 : ('9' : Char).val.toNat=57 := rfl
  have hz : ('0' : Char).val.toNat=48 := rfl
  simp only [ge_iff_le,UInt32.le_iff_toNat_le,h0,h9,hz] at h ⊢
  have ha : ('a' : Char).toNat=97 := rfl
  have hf : ('f' : Char).toNat=102 := rfl
  have hA : ('A' : Char).toNat=65 := rfl
  have hF : ('F' : Char).toNat=70 := rfl
  split_ifs <;> omega

theorem hexWord_foldl {l : List Char} (h : ∀c∈l, hexDigit c) {bound : Nat} (hn : n<bound) :
    l.foldl (fun n c => 16*n+hexValue c) n<bound*16^l.length := by
  induction l generalizing n bound with
  | nil => simpa using hn
  | cons c l ih =>
    have hc := hexValue_lt (h c List.mem_cons_self)
    have hstep : 16*n+hexValue c<bound*16 := by omega
    have htail := ih (fun x hx => h x (List.mem_cons_of_mem _ hx)) hstep
    rwa [Nat.mul_assoc,← Nat.pow_succ'] at htail

theorem Group.small (h : Group g) : hexWord g<65536 := by
  have hword := hexWord_foldl h.1 (show 0<1 by decide)
  have hpow : 16^g.length≤16^4 := Nat.pow_le_pow_right (by decide) h.2.2
  rw [Nat.one_mul] at hword
  exact Nat.lt_of_lt_of_le hword hpow

theorem wordBytes_length (words : List Nat) : (wordBytes words).length=2*words.length := by
  induction words with
  | nil => rfl
  | cons w words ih =>
    simp only [wordBytes,List.flatMap_cons,List.length_append,List.length_cons] at ih ⊢
    rw [ih]
    simp only [List.length_nil]
    omega

theorem wordBytes_small {words : List Nat} (h : ∀w∈words, w<65536) : ∀b∈wordBytes words, b<256 := by
  intro b hb
  obtain ⟨w,hw,hb⟩ := List.mem_flatMap.mp hb
  have hlt := h w hw
  simp only [mem_list] at hb
  omega

theorem Grouped.length (h : Grouped text bytes) : bytes.length=16 := by
  cases h with
  | full groups _ hlen => simp [wordBytes_length,hlen]
  | compressed left right _ hlen =>
    simp only [wordBytes_length,List.length_append,List.length_map,List.length_replicate]
    omega

theorem Grouped.small (h : Grouped text bytes) : ∀n∈bytes, n<256 := by
  cases h with
  | full groups hg _ =>
    apply wordBytes_small
    intro w hw
    obtain ⟨g,hm,rfl⟩ := List.mem_map.mp hw
    exact (hg g hm).small
  | compressed left right hg _ =>
    apply wordBytes_small
    intro w hw
    simp only [List.mem_append,List.mem_map,List.mem_replicate] at hw
    rcases hw with (⟨g,hm,rfl⟩|⟨-,rfl⟩)|⟨g,hm,rfl⟩
    · exact (hg g (List.mem_append_left _ hm)).small
    · decide
    · exact (hg g (List.mem_append_right _ hm)).small

theorem Literal.length (h : Literal text bytes) : bytes.length=4 ∨ bytes.length=16 := by
  cases h with
  | v4 h => exact .inl h.length
  | v6 h | embedded _ h => exact .inr h.length

theorem Literal.small (h : Literal text bytes) : ∀n∈bytes, n<256 := by
  cases h with
  | v4 h | v6 h | embedded _ h => exact h.small

theorem takeWhile_tail (ht : ':'∉tail) :
    (head++ ':'::tail).reverse.takeWhile (fun c => c != ':')=tail.reverse := by
  have hall : ∀c∈tail.reverse, (c != ':')=true := by
    intro c hc
    rw [bne_iff_ne]
    rintro rfl
    exact ht (List.mem_reverse.mp hc)
  have hsplit : (head++ ':'::tail).reverse=tail.reverse++ ':'::head.reverse := by simp
  rw [hsplit,List.takeWhile_append_of_pos hall]
  simp

theorem split_tail (h : ':'∈value) : ∃head tail, value=head++ ':'::tail ∧ ':'∉tail := by
  obtain ⟨tail,head,hrev,hno⟩ := List.eq_append_cons_of_mem (List.mem_reverse.mpr h)
  refine ⟨head.reverse,tail.reverse,?_,by simpa using hno⟩
  rw [← List.reverse_reverse value,hrev]
  simp

theorem expandTail_tail (ht : ':'∉tail) (hp : '.'∈head++ ':'::tail) :
    expandTail (head++ ':'::tail)=match ipv4Bytes tail with
      | some [a,b,c,d] =>
        some (head++ ':'::(Nat.toDigits 16 (256*a+b)++ ':'::Nat.toDigits 16 (256*c+d)))
      | _ => none := by
  have htake : (head++ ':'::tail).take ((head++ ':'::tail).length-tail.length)=head++[':'] := by
    have hlen : (head++ ':'::tail).length-tail.length=(head++[':']).length := by
      simp only [List.length_append,List.length_cons,List.length_nil]
      omega
    rw [hlen,List.append_cons head ':' tail,List.take_left]
  simp only [expandTail,if_pos hp,takeWhile_tail ht,List.reverse_reverse,htake]
  cases hb : ipv4Bytes tail with
  | none => rfl
  | some bytes =>
    obtain ⟨a,b,c,d,rfl⟩ := List.length_eq_four.mp (ipv4Bytes_iff.mp hb).length
    simp

theorem expandTail_iff {input : List Char} (h : ':'∈value) :
    expandTail value=some input ↔ ('.'∉value ∧ input=value) ∨
      ∃head tail a b c d, value=head++ ':'::tail ∧ Dotted tail [a,b,c,d] ∧
        input=head++ ':'::(Nat.toDigits 16 (256*a+b)++ ':'::Nat.toDigits 16 (256*c+d)) := by
  constructor
  · intro he
    by_cases hp : '.'∈value
    · obtain ⟨head,tail,rfl,ht⟩ := split_tail h
      rw [expandTail_tail ht hp] at he
      split at he
      · next a b c d hb =>
        exact .inr ⟨head,tail,a,b,c,d,rfl,ipv4Bytes_iff.mp hb,(Option.some.inj he).symm⟩
      · cases he
    · rw [expandTail,if_neg hp] at he
      exact .inl ⟨hp,(Option.some.inj he).symm⟩
  · rintro (⟨hp,rfl⟩|⟨head,tail,a,b,c,d,rfl,hd,rfl⟩)
    · rw [expandTail,if_neg hp]
    · have hp : '.'∈head++ ':'::tail := by simp [hd.point]
      rw [expandTail_tail hd.no_colon hp,ipv4Bytes_iff.mpr hd]

theorem Grouped.no_point (h : Grouped text bytes) : '.'∉text := by
  intro hp
  rcases h.chars '.' hp with hc|hc
  · exact absurd hc (by decide)
  · exact absurd hc (by decide)

theorem digit_hex (h : c.isDigit) : hexDigit c := by
  simp [hexDigit,h]

theorem ipBytes_colon {text : String} (h : ':'∈text.toList) :
    ipBytes text=some bytes ↔ (∀c∈text.toList, hexDigit c ∨ c= ':' ∨ c= '.') ∧
      ∃input, expandTail text.toList=some input ∧ Grouped input bytes := by
  have hv4 : ipv4Bytes text.toList=none := by
    cases hb : ipv4Bytes text.toList with
    | none => rfl
    | some b => exact absurd h (ipv4Bytes_iff.mp hb).no_colon
  have hchars : ¬(!text.toList.contains ':' ||
      text.toList.any fun c => !(hexDigit c || c == ':' || c == '.')) ↔
      ∀c∈text.toList, hexDigit c ∨ c= ':' ∨ c= '.' := by
    simp only [Bool.or_eq_true,not_or,Bool.not_eq_true,Bool.not_eq_false',List.contains_iff_mem,h,
      List.any_eq_false,beq_iff_eq,or_assoc,true_and]
  simp only [ipBytes,hv4,Option.ite_none_left_eq_some,hchars,Option.bind_eq_some_iff,ipv6Bytes_iff]

theorem ipBytes_iff {text : String} : ipBytes text=some bytes ↔ Literal text.toList bytes := by
  by_cases h : ':'∈text.toList
  · rw [ipBytes_colon h]
    constructor
    · rintro ⟨-,input,he,hg⟩
      rcases (expandTail_iff h).mp he with ⟨-,rfl⟩|⟨head,tail,a,b,c,d,ht,hd,rfl⟩
      · exact .v6 hg
      · rw [ht]
        exact .embedded hd hg
    · intro hl
      generalize hv : text.toList=value at h hl
      cases hl with
      | v4 hd => exact absurd h hd.no_colon
      | v6 hg =>
        refine ⟨?_,value,(expandTail_iff h).mpr (.inl ⟨hg.no_point,rfl⟩),hg⟩
        intro c hc
        exact (hg.chars c hc).imp_right .inl
      | @embedded head tail a b c d _ hd hg =>
        refine ⟨?_,_,(expandTail_iff h).mpr (.inr ⟨head,tail,a,b,c,d,rfl,hd,rfl⟩),hg⟩
        intro x hx
        rcases List.mem_append.mp hx with hx|hx
        · exact (hg.chars x (List.mem_append_left _ hx)).imp_right .inl
        · rcases List.mem_cons.mp hx with rfl|hx
          · exact .inr (.inl rfl)
          · rcases hd.chars x hx with hx|rfl
            · exact .inl (digit_hex hx)
            · exact .inr (.inr rfl)
  · have hnone : ¬(∃b, Grouped text.toList b) := fun ⟨_,hg⟩ => h hg.colon
    have hlit : Literal text.toList bytes ↔ Dotted text.toList bytes := by
      refine ⟨?_,.v4⟩
      intro hl
      generalize hv : text.toList=value at h hl
      cases hl with
      | v4 hd => exact hd
      | v6 hg => exact absurd hg.colon h
      | embedded _ _ => exact absurd (by simp) h
    rw [hlit,← ipv4Bytes_iff]
    unfold ipBytes
    cases hb : ipv4Bytes text.toList with
    | some b => rfl
    | none => simp [h]

end TuneX.Contracts
