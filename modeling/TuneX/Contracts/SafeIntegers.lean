import TuneX.Contracts.TimeOrder
import Mathlib.Algebra.Order.Field.Power
import Mathlib.Data.Nat.Cast.Field

namespace TuneX.Contracts

open Agent

def maxSafeInteger : Nat := 9007199254740991

/-- The nearest binary64 number of an integer, ties to even; it is finite for the integers that
a token of 128 characters can write. -/
def toNumber (n : Int) : Int :=
  let m := n.natAbs
  if m<2^53 then n
  else
    let e := m.log2-52
    let q := m/2^e
    let r := m%2^e
    let q := if 2^e<2*r ∨ 2*r=2^e ∧ q%2=1 then q+1 else q
    n.sign*(q*2^e : Nat)

/-- `strconv.ParseInt(text, 10, 32)` with its error ignored. -/
def parseInt32 (n : Int) : Int := max (-2147483648) (min n 2147483647)

/-- The groups of the regular expression that both readers have; an absent one is empty. -/
structure NumberParts where
  whole : List Char
  fraction : List Char
  exponent : List Char

/-- A text without the sign before it. -/
def unsigned (signs : List Char) : List Char→List Char
  | [] => []
  | c::l => if c∈signs then l else c::l

def exponentText (text : List Char) : Option (List Char) :=
  let digits := unsigned ['+','-'] text
  if digits≠[] ∧ digits.all Char.isDigit then some text else none

def numberParts (token : List Char) : Option NumberParts :=
  let body := unsigned ['-'] token
  let whole := body.takeWhile Char.isDigit
  let cut := splitFraction ['.'] (body.dropWhile Char.isDigit)
  if whole=[] then none
  else
    match cut.2 with
    | [] => some ⟨whole,cut.1,[]⟩
    | e::l => if e∈['e','E'] then (exponentText l).map (⟨whole,cut.1,·⟩) else none

def signed (text : List Char) : Int :=
  let n : Int := decimal (unsigned ['+','-'] text)
  if text.head?=some '-' then -n else n

def safeIntegerToken (token : String) : Bool :=
  if 128<token.length then false
  else
    match numberParts token.toList with
    | none => false
    | some p =>
      let coefficient := decimal (p.whole++p.fraction)
      if coefficient=0 then true
      else
        let scale := toNumber (toNumber (signed p.exponent)-p.fraction.length)
        if maxSafeInteger<scale.natAbs ∨ 128<scale.natAbs then false
        else if 0≤ scale then
          if 16<scale then false else decide (coefficient*10^scale.natAbs≤ maxSafeInteger)
        else if coefficient%10^scale.natAbs≠0 then false
        else decide (coefficient/10^scale.natAbs≤ maxSafeInteger)

def safeInteger (token : String) : Bool :=
  if 128<(token.toList.map Char.utf8Size).sum then false
  else
    match numberParts token.toList with
    | none => false
    | some p =>
      let coefficient := decimal (p.whole++p.fraction)
      if coefficient=0 then true
      else
        let exponent := if p.exponent=[] then 0 else parseInt32 (signed p.exponent)
        if 256<exponent ∨ exponent< -256 then false
        else
          let scale := exponent-p.fraction.length
          if 16<scale ∨ scale< -128 then false
          else if 0≤ scale then decide (coefficient*10^scale.natAbs≤ maxSafeInteger)
          else if coefficient%10^scale.natAbs≠0 then false
          else decide (coefficient/10^scale.natAbs≤ maxSafeInteger)

/-- An exponent with its mark, its sign and its digits. -/
structure Exponent where
  mark : Char
  sign : List Char
  digits : List Char
  marked : mark∈['e','E']
  signed : sign∈[[],['+'],['-']]
  written : digits≠[]
  decimals : ∀c∈digits, c.isDigit

/-- A number of the JSON grammar, in which leading zeros may stand as well. -/
structure NumberToken where
  negative : Bool
  whole : List Char
  fraction : List Char
  exponent : Option Exponent
  written : whole≠[]
  whole_digits : ∀c∈whole, c.isDigit
  fraction_digits : ∀c∈fraction, c.isDigit

def Exponent.text (e : Exponent) : List Char := e.sign++e.digits

def Exponent.value (e : Exponent) : Int := if e.sign=['-'] then -decimal e.digits else decimal e.digits

namespace NumberToken

variable (t : NumberToken)

def tail : List Char := t.exponent.elim [] fun e => e.mark::e.text

/-- What follows the whole number. -/
def rest : List Char := (if t.fraction=[] then [] else '.' :: t.fraction)++t.tail

def text : String := String.ofList ((if t.negative then ['-'] else [])++(t.whole++t.rest))

def power : Int := t.exponent.elim 0 Exponent.value

def value : ℚ := (if t.negative then -1 else 1)*(decimal t.whole+share t.fraction)*10^t.power

/-- It is an integer that a binary64 number holds exactly, as does its neighbour. -/
def Safe : Prop := ∃k : Int, t.value=k ∧ k.natAbs≤ maxSafeInteger

end NumberToken

theorem toNumber_small {n : Int} (h : n.natAbs<2^53) : toNumber n=n := if_pos h

theorem toNumber_large {n : Int} (h : 2^53≤n.natAbs) : 2^53≤(toNumber n).natAbs := by
  have hm : n.natAbs≠0 := by omega
  have hlog : 53≤n.natAbs.log2 := (Nat.le_log2 hm).mpr h
  have hpow : 2^n.natAbs.log2≤n.natAbs := Nat.log2_self_le hm
  have hsign : n.sign.natAbs=1 := by
    rcases Int.lt_trichotomy n 0 with hn | hn | hn
    · simp [Int.sign_eq_neg_one_of_neg hn]
    · simp [hn] at hm
    · simp [Int.sign_eq_one_of_pos hn]
  have hq : 2^52≤n.natAbs/2^(n.natAbs.log2-52) := by
    rw [Nat.le_div_iff_mul_le (Nat.two_pow_pos _),← Nat.pow_add]
    exact (Nat.pow_le_pow_right (by decide) (by omega)).trans hpow
  have he : 2^1≤2^(n.natAbs.log2-52) := Nat.pow_le_pow_right (by decide) (by omega)
  rw [toNumber,if_neg (not_lt.mpr h),Int.natAbs_mul,hsign,Nat.one_mul,Int.natAbs_natCast]
  calc 2^53=2^52*2^1 := by decide
    _ ≤ _ := Nat.mul_le_mul (hq.trans (by split_ifs <;> omega)) he

/-- Rounding never brings a scale near zero that is not there. -/
theorem toNumber_scale (e : Int) {f : Nat} (hf : f≤128) :
    toNumber (toNumber e-f)=e-f ∨ 128<(toNumber (toNumber e-f)).natAbs ∧ 128<(e-f).natAbs := by
  by_cases he : e.natAbs<2^53
  · rw [toNumber_small he]
    by_cases hs : (e-f).natAbs<2^53
    · exact .inl (toNumber_small hs)
    · have hlarge := toNumber_large (not_lt.mp hs)
      omega
  · have hlarge := toNumber_large (not_lt.mp he)
    by_cases hs : (toNumber e-f).natAbs<2^53
    · rw [toNumber_small hs]
      omega
    · have hscale := toNumber_large (not_lt.mp hs)
      omega

def scaled (coefficient : Nat) (scale : Int) : Bool :=
  if 0≤ scale then decide (coefficient*10^scale.natAbs≤ maxSafeInteger)
  else decide (coefficient%10^scale.natAbs=0 ∧ coefficient/10^scale.natAbs≤ maxSafeInteger)

theorem scaled_iff (c : Nat) (s : Int) :
    scaled c s ↔ ∃k : Nat, (c : ℚ)*10^s=k ∧ k≤ maxSafeInteger := by
  unfold scaled
  split_ifs with hs
  · obtain ⟨n,rfl⟩ := Int.eq_ofNat_of_zero_le hs
    rw [decide_eq_true_eq,Int.natAbs_natCast,zpow_natCast]
    refine ⟨fun h => ⟨c*10^n,by push_cast; rfl,h⟩,?_⟩
    rintro ⟨k,hk,hle⟩
    have hnat : c*10^n=k := by exact_mod_cast hk
    exact hnat ▸ hle
  · obtain ⟨n,hn⟩ := Int.eq_ofNat_of_zero_le (a := -s) (by omega)
    have hsn : s= -(n : Int) := by omega
    have hpow : (10 : ℚ)^n≠0 := pow_ne_zero _ (by norm_num)
    rw [decide_eq_true_eq,hsn,Int.natAbs_neg,Int.natAbs_natCast,zpow_neg,zpow_natCast]
    refine ⟨fun h => ⟨c/10^n,?_,h.2⟩,?_⟩
    · rw [Nat.cast_div (Nat.dvd_of_mod_eq_zero h.1) (by exact_mod_cast hpow)]
      push_cast
      rfl
    · rintro ⟨k,hk,hle⟩
      have hmul : (c : ℚ)=k*10^n := (mul_inv_eq_iff_eq_mul₀ hpow).mp hk
      have hnat : c=k*10^n := by exact_mod_cast hmul
      rw [hnat,Nat.mul_mod_left,Nat.mul_div_cancel _ (Nat.pow_pos (by decide))]
      exact ⟨rfl,hle⟩

theorem scaled_high {c : Nat} {s : Int} (hc : c≠0) (hs : 16<s) : scaled c s=false := by
  rw [scaled,if_pos (by omega),decide_eq_false_iff_not,not_le]
  calc maxSafeInteger<1*10^17 := by decide
    _ ≤ c*10^s.natAbs := Nat.mul_le_mul (by omega) (Nat.pow_le_pow_right (by decide) (by omega))

theorem scaled_low {c : Nat} {s : Int} (hc : c≠0) (hlt : c<10^128) (hs : s< -128) :
    scaled c s=false := by
  rw [scaled,if_neg (by omega),decide_eq_false_iff_not]
  rintro ⟨hmod,-⟩
  have hle := Nat.le_of_dvd (by omega) (Nat.dvd_of_mod_eq_zero hmod)
  have hpow : 10^128≤10^s.natAbs := Nat.pow_le_pow_right (by decide) (by omega)
  omega

theorem scaled_far {c : Nat} {s : Int} (hc : c≠0) (hlt : c<10^128) (hs : 128<s.natAbs) :
    scaled c s=false := by
  rcases lt_or_ge s 0 with hneg | hpos
  · exact scaled_low hc hlt (by omega)
  · exact scaled_high hc (by omega)

theorem scaled_zero (s : Int) : scaled 0 s := by
  unfold scaled
  split_ifs <;> simp

/-- What both programs do with a scale that they do not cut off. -/
theorem scaled_branches (c : Nat) (s : Int) :
    (if 0≤ s then decide (c*10^s.natAbs≤ maxSafeInteger)
      else if c%10^s.natAbs≠0 then false
      else decide (c/10^s.natAbs≤ maxSafeInteger))=scaled c s := by
  unfold scaled
  split_ifs with hs hmod
  · rfl
  · simp [hmod]
  · simp [not_not.mp hmod]

namespace NumberToken

variable (t : NumberToken)

def coefficient : Nat := decimal (t.whole++t.fraction)

def scale : Int := t.power-t.fraction.length

theorem value_eq : t.value=(if t.negative then -1 else 1)*(t.coefficient*10^t.scale) := by
  have hten : (10 : ℚ)≠0 := by norm_num
  have hpow : (10 : ℚ)^t.fraction.length≠0 := pow_ne_zero _ hten
  have hsum : (decimal t.whole : ℚ)+share t.fraction=t.coefficient/10^t.fraction.length := by
    rw [share,coefficient,decimal_append,eq_div_iff hpow,add_mul,div_mul_cancel₀ _ hpow]
    push_cast
    rfl
  rw [value,hsum,scale,zpow_sub₀ hten,zpow_natCast]
  ring

theorem safe_iff : t.Safe ↔ scaled t.coefficient t.scale := by
  rw [scaled_iff,Safe,value_eq]
  have hpos : (0 : ℚ)≤t.coefficient*10^t.scale := by positivity
  constructor
  · rintro ⟨k,hk,hle⟩
    refine ⟨k.natAbs,?_,hle⟩
    have habs := congrArg abs hk
    rw [abs_mul,abs_of_nonneg hpos] at habs
    have hone : |(if t.negative then -1 else 1 : ℚ)|=1 := by split_ifs <;> simp
    rwa [hone,one_mul,← Int.cast_abs,← Int.natCast_natAbs,Int.cast_natCast] at habs
  · rintro ⟨k,hk,hle⟩
    refine ⟨(if t.negative then -1 else 1)*k,?_,?_⟩
    · rw [hk]
      split_ifs <;> simp
    · split_ifs <;> simpa using hle

theorem tail_head : ∀c∈t.tail.head?, c.isDigit=false ∧ c∉['.'] := by
  intro c hc
  unfold tail at hc
  cases h : t.exponent with
  | none => simp [h] at hc
  | some e =>
    have hm := e.marked
    simp only [h,Option.elim_some,List.head?_cons,Option.mem_def,Option.some.injEq] at hc
    simp only [List.mem_cons,List.not_mem_nil,or_false] at hm
    rcases hm with hm | hm <;> simp [← hc,hm]

/-- The exponent as the regular expression gives it. -/
def group : List Char := t.exponent.elim [] Exponent.text

end NumberToken

theorem unsigned_digits {signs l : List Char} (hs : ∀c∈signs, c.isDigit=false)
    (hl : ∀c∈l, c.isDigit) : unsigned signs l=l := by
  cases l with
  | nil => rfl
  | cons c l =>
    refine if_neg fun hc => ?_
    have hdigit := hl c List.mem_cons_self
    rw [hs c hc] at hdigit
    cases hdigit

theorem Exponent.read (e : Exponent) : exponentText e.text=some e.text ∧
    Contracts.signed e.text=e.value ∧ e.text≠[] := by
  have hall : e.digits.all Char.isDigit := List.all_eq_true.mpr e.decimals
  have hs := e.signed
  simp only [List.mem_cons,List.not_mem_nil,or_false] at hs
  have hunsigned : unsigned ['+','-'] e.text=e.digits := by
    rcases hs with hs | hs | hs
    · rw [text,hs,List.nil_append]
      exact unsigned_digits (by simp) e.decimals
    · rw [text,hs]
      rfl
    · rw [text,hs]
      rfl
  have hhead : e.text.head?=some '-' ↔ e.sign=['-'] := by
    obtain ⟨c,l,hd⟩ := List.exists_cons_of_ne_nil e.written
    have hc : c.isDigit := e.decimals c (hd ▸ List.mem_cons_self)
    have hminus : c≠ '-' := fun h => by simp [h] at hc
    rcases hs with hs | hs | hs <;> simp [text,hs,hd,hminus]
  refine ⟨?_,?_,?_⟩
  · rw [exponentText,hunsigned]
    exact if_pos ⟨e.written,hall⟩
  · rw [Contracts.signed,hunsigned,value]
    simp only [hhead]
  · exact List.append_ne_nil_of_right_ne_nil _ e.written

namespace NumberToken

variable (t : NumberToken)

theorem signed_group : Contracts.signed t.group=t.power ∧ (t.group=[]→t.power=0) := by
  unfold group power
  cases t.exponent with
  | none => exact ⟨rfl,fun _ => rfl⟩
  | some e => exact ⟨e.read.2.1,fun h => absurd h e.read.2.2⟩

theorem rest_head : t.rest.takeWhile Char.isDigit=[] ∧ t.rest.dropWhile Char.isDigit=t.rest := by
  have hhead : ∀c∈t.rest.head?, c.isDigit=false := by
    intro c hc
    unfold rest at hc
    split_ifs at hc with h
    · exact (t.tail_head c hc).1
    · simp only [List.cons_append,List.head?_cons,Option.mem_def,Option.some.injEq] at hc
      rw [← hc]
      rfl
  cases hr : t.rest with
  | nil => exact ⟨rfl,rfl⟩
  | cons x m => simp [hhead x (by simp [hr])]

theorem parts : numberParts t.text.toList=some ⟨t.whole,t.fraction,t.group⟩ := by
  have hbody : unsigned ['-'] t.text.toList=t.whole++t.rest := by
    rw [text,String.toList_ofList]
    cases t.negative with
    | true => rfl
    | false =>
      obtain ⟨c,l,hw⟩ := List.exists_cons_of_ne_nil t.written
      have hc : c.isDigit := t.whole_digits c (hw ▸ List.mem_cons_self)
      have hminus : c∉['-'] := by
        rw [List.mem_singleton]
        rintro rfl
        cases hc
      rw [hw]
      exact if_neg hminus
  have htake : (t.whole++t.rest).takeWhile Char.isDigit=t.whole := by
    rw [List.takeWhile_append_of_pos t.whole_digits,t.rest_head.1,List.append_nil]
  have hdrop : (t.whole++t.rest).dropWhile Char.isDigit=t.rest := by
    rw [List.dropWhile_append_of_pos t.whole_digits,t.rest_head.2]
  have hcut : splitFraction ['.'] t.rest=(t.fraction,t.tail) :=
    splitFraction_text t.fraction_digits (by simp) t.tail_head
  simp only [numberParts,hbody,htake,hdrop,hcut,if_neg t.written]
  unfold tail group
  cases t.exponent with
  | none => rfl
  | some e => simp only [Option.elim_some,if_pos e.marked,e.read.1,Option.map_some]

theorem length_le : t.whole.length+t.fraction.length≤t.text.length := by
  have hrest : t.fraction.length≤t.rest.length := by
    unfold rest
    split_ifs with hf
    · simp [hf]
    · rw [List.length_append,List.length_cons]
      omega
  rw [text,String.length_ofList,List.length_append,List.length_append]
  omega

theorem ascii : ∀c∈t.text.toList, c.utf8Size=1 := by
  have hdigit : ∀{c : Char}, c.isDigit→c.utf8Size=1 := by
    intro c hc
    have hrange := digit_range hc
    exact Char.utf8Size_eq_one_iff.mpr (UInt32.le_iff_toNat_le.mpr (hrange.2.trans (by decide)))
  intro c hc
  rw [text,String.toList_ofList] at hc
  simp only [rest,List.mem_append] at hc
  rcases hc with hc | hc | hc | hc
  · split_ifs at hc
    · rw [List.mem_singleton.mp hc]
      rfl
    · simp at hc
  · exact hdigit (t.whole_digits c hc)
  · split_ifs at hc with hf
    · simp at hc
    · rcases List.mem_cons.mp hc with rfl | hc
      · rfl
      · exact hdigit (t.fraction_digits c hc)
  · unfold tail at hc
    cases he : t.exponent with
    | none => simp [he] at hc
    | some e =>
      have hm := e.marked
      have hs := e.signed
      simp only [he,Option.elim_some,List.mem_cons,Exponent.text,List.mem_append] at hc
      simp only [List.mem_cons,List.not_mem_nil,or_false] at hm hs
      rcases hc with rfl | hc | hc
      · rcases hm with hm | hm <;> rw [hm] <;> rfl
      · rcases hs with hs | hs | hs <;> simp [hs] at hc <;> rw [hc] <;> rfl
      · exact hdigit (e.decimals c hc)

theorem byte_length : (t.text.toList.map Char.utf8Size).sum=t.text.length := by
  rw [List.map_congr_left t.ascii,List.map_const',List.sum_replicate,String.length_toList]
  simp

theorem coefficient_lt (h : t.text.length≤128) : t.coefficient<10^128 := by
  have hdigits : ∀c∈t.whole++t.fraction, c.isDigit := fun c hc =>
    (List.mem_append.mp hc).elim (t.whole_digits c) (t.fraction_digits c)
  have hlen := t.length_le
  refine (decimal_lt hdigits).trans_le (Nat.pow_le_pow_right (by decide) ?_)
  rw [List.length_append]
  omega

theorem fraction_le (h : t.text.length≤128) : t.fraction.length≤128 :=
  (Nat.le_add_left _ _).trans (t.length_le.trans h)

theorem token_eq (h : t.text.length≤128) :
    safeIntegerToken t.text=scaled t.coefficient t.scale := by
  have hf := t.fraction_le h
  have hlt := t.coefficient_lt h
  rw [safeIntegerToken,if_neg (not_lt.mpr h),t.parts]
  dsimp only
  rw [t.signed_group.1]
  change (if t.coefficient=0 then true else _)=_
  by_cases hc : t.coefficient=0
  · rw [if_pos hc,hc,scaled_zero]
  rw [if_neg hc]
  rcases toNumber_scale t.power hf with he | ⟨hfar,htrue⟩
  · have hscale : toNumber (toNumber t.power-t.fraction.length)=t.scale := he
    rw [hscale]
    by_cases hfar : 128<t.scale.natAbs
    · rw [if_pos (.inr hfar),scaled_far hc hlt hfar]
    · have hsafe : ¬maxSafeInteger<t.scale.natAbs := by
        unfold maxSafeInteger
        omega
      rw [if_neg (not_or.mpr ⟨hsafe,hfar⟩)]
      by_cases hhigh : 16<t.scale
      · rw [if_pos (show 0≤t.scale by omega),if_pos hhigh,scaled_high hc hhigh]
      · rw [if_neg hhigh]
        exact scaled_branches _ _
  · have hscale : 128<t.scale.natAbs := htrue
    rw [if_pos (.inr hfar),scaled_far hc hlt hscale]

theorem go_eq (h : t.text.length≤128) : safeInteger t.text=scaled t.coefficient t.scale := by
  have hf := t.fraction_le h
  have hlt := t.coefficient_lt h
  have hexponent : (if t.group=[] then 0 else parseInt32 (Contracts.signed t.group))=
      parseInt32 t.power := by
    rw [t.signed_group.1]
    split_ifs with hg
    · rw [t.signed_group.2 hg]
      rfl
    · rfl
  rw [safeInteger,t.byte_length,if_neg (not_lt.mpr h),t.parts]
  dsimp only
  rw [hexponent]
  change (if t.coefficient=0 then true else _)=_
  by_cases hc : t.coefficient=0
  · rw [if_pos hc,hc,scaled_zero]
  rw [if_neg hc]
  by_cases hfar : 256<t.power ∨ t.power< -256
  · have hcut : 256<parseInt32 t.power ∨ parseInt32 t.power< -256 := by
      unfold parseInt32
      omega
    rw [if_pos hcut]
    rcases hfar with hhigh | hlow
    · rw [scaled_high hc (by unfold scale; omega)]
    · rw [scaled_low hc hlt (by unfold scale; omega)]
  · have hsame : parseInt32 t.power=t.power := by
      unfold parseInt32
      omega
    rw [hsame,if_neg hfar]
    change (if 16<t.scale ∨ t.scale< -128 then false else _)=_
    by_cases hcut : 16<t.scale ∨ t.scale< -128
    · rw [if_pos hcut]
      rcases hcut with hhigh | hlow
      · rw [scaled_high hc hhigh]
      · rw [scaled_low hc hlt hlow]
    · rw [if_neg hcut]
      exact scaled_branches _ _

end NumberToken

theorem safeIntegers_exact (t : NumberToken) : safeIntegerToken t.text=safeInteger t.text ∧
    (safeIntegerToken t.text ↔ t.text.length≤128 ∧ t.Safe) := by
  by_cases h : t.text.length≤128
  · rw [t.token_eq h,t.go_eq h,t.safe_iff]
    exact ⟨rfl,fun hs => ⟨h,hs⟩,And.right⟩
  · have hlong := not_le.mp h
    rw [safeIntegerToken,safeInteger,if_pos hlong,t.byte_length,if_pos hlong]
    exact ⟨rfl,fun hs => absurd hs Bool.false_ne_true,fun hs => absurd hs.1 h⟩

end TuneX.Contracts
