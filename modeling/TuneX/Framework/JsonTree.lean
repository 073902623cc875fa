import TuneX.Framework.JsonSize

namespace TuneX.Framework.Json

inductive Tree
  | text (s : String)
  | number (n : Nat)
  | bool (b : Bool)
  | list (items : List Tree)
  | object (members : List (String×Tree))

/-- The bytes that `JSON.stringify` writes for one character of a text. -/
def scriptChar (c : Char) : Nat :=
  if c = '"' ∨ c = '\\' ∨ c = '\n' ∨ c = '\r' ∨ c = '\t' ∨ c.toNat=8 ∨ c.toNat=12 then 2
  else if c.toNat<32 then 6
  else c.utf8Size

variable (f g : Char→Nat)

mutual

def Tree.size : Tree→Nat
  | .text s => 2+(s.toList.map f).sum
  | .number n => numberSize n
  | .bool b => boolSize b
  | .list items => listSize (itemSizes items)
  | .object members => objectSize (memberSizes members)

def itemSizes : List Tree→List Nat
  | [] => []
  | t::l => t.size::itemSizes l

def memberSizes : List (String×Tree)→List (String×Nat)
  | [] => []
  | (key,t)::l => (key,t.size)::memberSizes l

end

mutual

def Tree.texts : Tree→List String
  | .text s => [s]
  | .number _ | .bool _ => []
  | .list items => itemTexts items
  | .object members => memberTexts members

def itemTexts : List Tree→List String
  | [] => []
  | t::l => t.texts++itemTexts l

def memberTexts : List (String×Tree)→List String
  | [] => []
  | (_,t)::l => t.texts++memberTexts l

end

variable {f g}

mutual

theorem Tree.size_congr {t : Tree} (h : ∀s∈t.texts, ∀c∈s.toList, f c=g c) :
    t.size f=t.size g := by
  cases t with
  | text s =>
    have hs := h s (by simp [Tree.texts])
    simp only [Tree.size,List.map_congr_left hs]
  | number n | bool b => rfl
  | list items => simp only [Tree.size,itemSizes_congr h]
  | object members => simp only [Tree.size,memberSizes_congr h]

theorem itemSizes_congr {l : List Tree} (h : ∀s∈itemTexts l, ∀c∈s.toList, f c=g c) :
    itemSizes f l=itemSizes g l := by
  cases l with
  | nil => rfl
  | cons t l =>
    simp only [itemTexts,List.forall_mem_append] at h
    simp only [itemSizes,Tree.size_congr h.1,itemSizes_congr h.2]

theorem memberSizes_congr {l : List (String×Tree)}
    (h : ∀s∈memberTexts l, ∀c∈s.toList, f c=g c) : memberSizes f l=memberSizes g l := by
  cases l with
  | nil => rfl
  | cons m l =>
    simp only [memberTexts,List.forall_mem_append] at h
    simp only [memberSizes,Tree.size_congr h.1,memberSizes_congr h.2]

end

/-- A character that is written as it stands needs no escape in a script either. -/
theorem scriptChar_plain {c : Char} (h : charSize c=1) : scriptChar c=charSize c := by
  have hshort : ¬(c = '"' ∨ c = '\\' ∨ c = '\n' ∨ c = '\r' ∨ c = '\t' ∨ c.toNat=8 ∨ c.toNat=12) := by
    intro hc
    rw [charSize,if_pos hc] at h
    omega
  have hlong : ¬(c.toNat<32 ∨ c = '<' ∨ c = '>' ∨ c = '&' ∨ c.toNat=8232 ∨ c.toNat=8233) := by
    intro hc
    rw [charSize,if_neg hshort,if_pos hc] at h
    omega
  rw [scriptChar,charSize,if_neg hshort,if_neg hshort,if_neg hlong,
    if_neg fun hc => hlong (.inl hc)]

theorem Tree.script_size {t : Tree} (h : ∀s∈t.texts, Plain s) : t.size scriptChar=t.size charSize :=
  Tree.size_congr fun s hs c hc => scriptChar_plain (h s hs c hc)

theorem itemSizes_texts (l : List String) :
    itemSizes charSize (l.map Tree.text)=l.map textSize := by
  induction l with
  | nil => rfl
  | cons s l ih =>
    simp only [List.map_cons,itemSizes,ih]
    rfl

theorem itemTexts_texts (l : List String) : itemTexts (l.map Tree.text)=l := by
  induction l with
  | nil => rfl
  | cons s l ih => simp [itemTexts,Tree.texts,ih]

theorem memberSizes_append (l m : List (String×Tree)) :
    memberSizes f (l++m)=memberSizes f l++memberSizes f m := by
  induction l with
  | nil => rfl
  | cons x l ih => simp [memberSizes,ih]

theorem memberTexts_append (l m : List (String×Tree)) :
    memberTexts (l++m)=memberTexts l++memberTexts m := by
  induction l with
  | nil => rfl
  | cons x l ih => simp [memberTexts,ih]

end TuneX.Framework.Json
