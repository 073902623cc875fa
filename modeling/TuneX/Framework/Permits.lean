import Mathlib.Data.List.Count
import Mathlib.Data.List.Basic

namespace TuneX.Framework

variable {α : Type} {l : List α} {p : α→Bool} {i : Nat} {x y : α}

theorem countP_set_add (hx : l[i]?=some x) :
    (l.set i y).countP p+(if p x then 1 else 0)=l.countP p+(if p y then 1 else 0) := by
  obtain ⟨hlt,hget⟩ := List.getElem?_eq_some_iff.mp hx
  rw [List.countP_set hlt,hget]
  have hpos : (if p x then 1 else 0)≤l.countP p := by
    split_ifs with hp
    · exact List.countP_pos_iff.mpr ⟨x,List.mem_of_getElem? hx,hp⟩
    · exact Nat.zero_le _
  omega

theorem countP_pos_of_get (hx : l[i]?=some x) (hp : p x) : 0<l.countP p :=
  List.countP_pos_iff.mpr ⟨x,List.mem_of_getElem? hx,hp⟩

theorem countP_concat (l : List α) (p : α→Bool) (x : α) :
    (l++[x]).countP p=l.countP p+(if p x then 1 else 0) := by
  rw [List.countP_append,List.countP_singleton]

theorem countP_split {q r : α→Bool} (h : ∀x, p x=(q x || r x)) (hd : ∀x, ¬(q x ∧ r x)) :
    l.countP p=l.countP q+l.countP r := by
  induction l with
  | nil => rfl
  | cons x l ih =>
    have hx := hd x
    simp only [List.countP_cons,ih,h x]
    cases hq : q x <;> cases hr : r x <;> simp_all <;> omega

end TuneX.Framework
