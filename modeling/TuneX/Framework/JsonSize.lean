import Mathlib.Algebra.GroupWithZero.Nat
import Mathlib.Algebra.Order.BigOperators.Group.List
import Mathlib.Algebra.Order.Group.Nat
import Mathlib.Data.List.Forall2
import Mathlib.Data.Nat.Log

namespace TuneX.Framework.Json

/-- The bytes an encoder that also escapes HTML writes for one character of a text. -/
def charSize (c : Char) : Nat :=
  if c = '"' ∨ c = '\\' ∨ c = '\n' ∨ c = '\r' ∨ c = '\t' ∨ c.toNat=8 ∨ c.toNat=12 then 2
  else if c.toNat<32 ∨ c = '<' ∨ c = '>' ∨ c = '&' ∨ c.toNat=8232 ∨ c.toNat=8233 then 6
  else c.utf8Size

def textSize (s : String) : Nat := 2+(s.toList.map charSize).sum

/-- Decimal digits, without a sign or a fraction. -/
def numberSize (n : Nat) : Nat := Nat.log 10 n+1

def boolSize (b : Bool) : Nat := if b then 4 else 5

/-- The brackets, the items and the commas between them. -/
def listSize (items : List Nat) : Nat := 2+items.sum+(items.length-1)

/-- Each member is its quoted key, a colon and its value. -/
def objectSize (members : List (String×Nat)) : Nat :=
  listSize (members.map fun m => m.1.length+3+m.2)

/-- A text is plain when it is written as it stands, one byte a character. -/
def Plain (s : String) : Prop := ∀c∈s.toList, charSize c=1

theorem Plain.size {s : String} (h : Plain s) : textSize s=s.length+2 := by
  have hmap : s.toList.map charSize=s.toList.map fun _ => 1 := List.map_congr_left h
  rw [textSize,hmap,List.map_const',List.sum_replicate,String.length_toList]
  simp [Nat.add_comm]

theorem charSize_ascii {c : Char} (hlow : 32 ≤ c.toNat) (hhigh : c.toNat≤126)
    (hspecial : c ≠ '"' ∧ c ≠ '\\' ∧ c ≠ '<' ∧ c ≠ '>' ∧ c ≠ '&') : charSize c=1 := by
  obtain ⟨h₁,h₂,h₃,h₄,h₅⟩ := hspecial
  have hctl (d : Char) (hd : d.toNat<32) : c≠d := by
    rintro rfl
    omega
  have hn := hctl '\n' (by decide)
  have hr := hctl '\r' (by decide)
  have ht := hctl '\t' (by decide)
  have hv : c.val.toNat≤126 := hhigh
  have hshort : ¬(c = '"' ∨ c = '\\' ∨ c = '\n' ∨ c = '\r' ∨ c = '\t' ∨ c.toNat=8 ∨ c.toNat=12) := by
    simp only [h₁,h₂,hn,hr,ht,false_or]
    omega
  have hlong : ¬(c.toNat<32 ∨ c = '<' ∨ c = '>' ∨ c = '&' ∨ c.toNat=8232 ∨ c.toNat=8233) := by
    simp only [h₃,h₄,h₅,false_or]
    omega
  rw [charSize,if_neg hshort,if_neg hlong]
  apply Char.utf8Size_eq_one_iff.mpr
  rw [UInt32.le_iff_toNat_le]
  exact hv.trans (by decide)

theorem numberSize_le {n k : Nat} (h : n<10^(k+1)) : numberSize n≤k+1 := by
  rw [numberSize]
  rcases Nat.eq_zero_or_pos n with rfl|hn
  · simp
  · have hlog := Nat.log_lt_of_lt_pow hn.ne' h
    omega

theorem listSize_le {items : List Nat} {m k : Nat} (hne : 1 ≤ items.length)
    (hlen : items.length≤k) (hitems : ∀i∈items, i ≤ m) : listSize items≤1+k*(m+1) := by
  have hsum : items.sum ≤ items.length*m := by
    have h := List.sum_le_card_nsmul items m hitems
    simpa using h
  have hmono : items.length*(m+1)≤k*(m+1) := Nat.mul_le_mul_right _ hlen
  rw [listSize]
  rw [Nat.mul_add] at hmono
  omega

theorem objectSize_le {members : List (String×Nat)} (table : List (String×Nat)) {n : Nat}
    (h : List.Forall₂ (fun m b => m.1=b.1 ∧ m.2≤b.2) members table) (hne : table≠[])
    (hn : (table.map fun b => b.1.length+4+b.2).sum+1=n) : objectSize members≤n := by
  have hsum : (members.map fun m => m.1.length+3+m.2).sum+members.length≤
      (table.map fun b => b.1.length+4+b.2).sum := by
    clear hn hne
    induction h with
    | nil => simp
    | cons hmb _ ih =>
      simp only [List.map_cons,List.sum_cons,List.length_cons,hmb.1]
      have hvalue := hmb.2
      omega
  have hpos : 0 < members.length := by
    rw [h.length_eq]
    exact List.length_pos_iff.mpr hne
  simp only [objectSize,listSize,List.length_map]
  omega

end TuneX.Framework.Json
