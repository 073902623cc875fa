import Mathlib.Logic.Relation
import Mathlib.Data.List.Nodup
import Mathlib.Data.List.Perm.Subperm
import Mathlib.Data.Nat.Basic

namespace TuneX.Framework

namespace Closure

variable {α : Type} {links : List (List α)} {a b : α} {ids link : List α}

def Linked (links : List (List α)) (a b : α) : Prop := ∃l∈links, a∈l ∧ b∈l

/-- Two elements are joined by a chain of links that share elements. -/
abbrev Joined (links : List (List α)) : α→α→Prop := Relation.ReflTransGen (Linked links)

theorem linked_symm (h : Linked links a b) : Linked links b a := by
  obtain ⟨l,hl,ha,hb⟩ := h
  exact ⟨l,hl,hb,ha⟩

theorem joined_symm (h : Joined links a b) : Joined links b a := by
  induction h with
  | refl => exact .refl
  | tail _ hstep ih => exact ih.head (linked_symm hstep)

/-- A set that holds every element linked to one of its own. -/
def Closed (links : List (List α)) (ids : List α) : Prop :=
  ∀l∈links, ∀a∈l, a∈ids→∀b∈l, b∈ids

theorem Closed.joined (h : Closed links ids) (ha : a∈ids) (hj : Joined links a b) : b∈ids := by
  induction hj with
  | refl => exact ha
  | tail _ hstep ih =>
    obtain ⟨l,hl,hx,hy⟩ := hstep
    exact h l hl _ hx ih _ hy

structure Grows (state next : List α×Bool) : Prop where
  kept : state.1<+:next.1
  nodup : state.1.Nodup→next.1.Nodup
  told : next.2=true ↔ state.2=true ∨ state.1.length<next.1.length

theorem Grows.refl (state : List α×Bool) : Grows state state :=
  ⟨List.prefix_refl state.1,id,by simp⟩

theorem Grows.trans {s t u : List α×Bool} (h : Grows s t) (k : Grows t u) : Grows s u := by
  refine ⟨h.kept.trans k.kept,fun hn => k.nodup (h.nodup hn),?_⟩
  have hst := h.kept.length_le
  have htu := k.kept.length_le
  rw [k.told,h.told,or_assoc]
  exact or_congr_right (by omega)

variable [DecidableEq α]

def add (ids : List α) (id : α) : List α := if id∈ids then ids else ids++[id]

/-- One link, with whether anything was added since the pass began. -/
def visit (state : List α×Bool) (link : List α) : List α×Bool :=
  if link.any fun id => id∈state.1 then
    let next := link.foldl add state.1
    (next,state.2 || decide (state.1.length≠next.length))
  else state

def pass (links : List (List α)) (ids : List α) : List α×Bool := links.foldl visit (ids,false)

/-- The loop, for at most so many passes. -/
def close (links : List (List α)) : Nat→List α→Option (List α)
  | 0,_ => none
  | passes+1,ids =>
    let next := pass links ids
    if next.2 then close links passes next.1 else some next.1

theorem mem_add {id x : α} : x∈add ids id ↔ x∈ids ∨ x=id := by
  unfold add
  split_ifs with h
  · constructor
    · exact .inl
    · rintro (hx|rfl)
      · exact hx
      · exact h
  · simp

theorem add_nodup {id : α} (h : ids.Nodup) : (add ids id).Nodup := by
  unfold add
  split_ifs with hid
  · exact h
  · rw [List.nodup_append]
    refine ⟨h,List.nodup_singleton id,?_⟩
    intro x hx y hy
    rw [List.mem_singleton.mp hy]
    rintro rfl
    exact hid hx

theorem mem_foldl_add {x : α} : x∈link.foldl add ids ↔ x∈ids ∨ x∈link := by
  induction link generalizing ids with
  | nil => simp
  | cons id link ih => rw [List.foldl_cons,ih,mem_add,List.mem_cons,or_assoc]

theorem foldl_add_nodup (h : ids.Nodup) : (link.foldl add ids).Nodup := by
  induction link generalizing ids with
  | nil => exact h
  | cons id link ih => exact ih (add_nodup h)

theorem prefix_foldl_add : ids<+:link.foldl add ids := by
  induction link generalizing ids with
  | nil => exact List.prefix_refl ids
  | cons id link ih =>
    refine List.IsPrefix.trans ?_ ih
    unfold add
    split_ifs
    · exact List.prefix_refl ids
    · exact List.prefix_append ids [id]

theorem visit_grows (state : List α×Bool) (link : List α) : Grows state (visit state link) := by
  unfold visit
  split_ifs with hmeet
  · have hkept : state.1<+:link.foldl add state.1 := prefix_foldl_add
    have hle := hkept.length_le
    refine ⟨hkept,foldl_add_nodup,?_⟩
    simp only [Bool.or_eq_true,decide_eq_true_eq]
    exact or_congr_right (by omega)
  · exact Grows.refl state

theorem foldl_visit_grows (links : List (List α)) (state : List α×Bool) :
    Grows state (links.foldl visit state) := by
  induction links generalizing state with
  | nil => exact Grows.refl state
  | cons link links ih => exact (visit_grows state link).trans (ih _)

theorem pass_grows (links : List (List α)) (ids : List α) : Grows (ids,false) (pass links ids) :=
  foldl_visit_grows links (ids,false)

variable {part : List (List α)} {state : List α×Bool}

theorem foldl_visit_joined (hpart : ∀l∈part, l∈links)
    (h : ∀x∈state.1, Joined links a x) : ∀x∈(part.foldl visit state).1, Joined links a x := by
  induction part generalizing state with
  | nil => exact h
  | cons link part ih =>
    refine ih (fun l hl => hpart l (List.mem_cons_of_mem _ hl)) ?_
    intro x hx
    unfold visit at hx
    split_ifs at hx with hmeet
    · rw [List.any_eq_true] at hmeet
      obtain ⟨y,hy,hin⟩ := hmeet
      rcases mem_foldl_add.mp hx with hx|hx
      · exact h x hx
      · exact (h y (of_decide_eq_true hin)).tail ⟨link,hpart link List.mem_cons_self,hy,hx⟩
    · exact h x hx

theorem foldl_visit_from {x : α}
    (hx : x∈(part.foldl visit state).1) : x∈state.1 ∨ x∈part.flatten := by
  induction part generalizing state with
  | nil => exact .inl hx
  | cons link part ih =>
    rw [List.flatten_cons,List.mem_append]
    rcases ih hx with hx|hx
    · unfold visit at hx
      split_ifs at hx
      · exact (mem_foldl_add.mp hx).imp_right .inl
      · exact .inl hx
    · exact .inr (.inr hx)

theorem foldl_visit_closed (h : (part.foldl visit state).1=state.1) : Closed part state.1 := by
  induction part generalizing state with
  | nil => intro l hl; simp at hl
  | cons link part ih =>
    have hfirst := (visit_grows state link).kept
    have hrest := (foldl_visit_grows part (visit state link)).kept
    have hsame : (visit state link).1=state.1 := by
      rw [List.foldl_cons] at h
      rw [h] at hrest
      exact hrest.eq_of_length (Nat.le_antisymm hrest.length_le hfirst.length_le)
    intro l hl x hx hin y hy
    rcases List.mem_cons.mp hl with rfl|hl
    · unfold visit at hsame
      rw [if_pos (List.any_eq_true.mpr ⟨x,hx,decide_eq_true hin⟩)] at hsame
      exact hsame ▸ mem_foldl_add.mpr (.inr hy)
    · have hclosed : Closed part (visit state link).1 := ih (h.trans hsame.symm)
      rw [hsame] at hclosed
      exact hclosed l hl x hx hin y hy

theorem close_some {passes : Nat} {result : List α} (h : close links passes ids=some result)
    (hn : ids.Nodup) (hj : ∀x∈ids, Joined links a x) : result.Nodup ∧ ids<+:result ∧
      Closed links result ∧ ∀x∈result, Joined links a x := by
  induction passes generalizing ids with
  | zero => simp [close] at h
  | succ passes ih =>
    have hgrows := pass_grows links ids
    have hjoined : ∀x∈(pass links ids).1, Joined links a x :=
      foldl_visit_joined (fun _ hl => hl) hj
    simp only [close] at h
    split_ifs at h with hchanged
    · obtain ⟨hnodup,hkept,hclosed,hin⟩ := ih h (hgrows.nodup hn) hjoined
      exact ⟨hnodup,hgrows.kept.trans hkept,hclosed,hin⟩
    · obtain rfl := Option.some.inj h
      have hle := hgrows.kept.length_le
      have hsame : (pass links ids).1=ids := by
        rw [hgrows.told] at hchanged
        simp only [not_or,Nat.not_lt] at hchanged
        exact (hgrows.kept.eq_of_length (Nat.le_antisymm hle hchanged.2)).symm
      refine ⟨hgrows.nodup hn,hgrows.kept,?_,hjoined⟩
      rw [hsame]
      exact foldl_visit_closed hsame

theorem close_isSome {passes : Nat} {bound : List α} (hn : ids.Nodup) (hids : ids⊆bound)
    (hlinks : links.flatten⊆bound) (hp : bound.length< ids.length+passes) :
    ∃result, close links passes ids=some result := by
  induction passes generalizing ids with
  | zero =>
    have hle := (hn.subperm hids).length_le
    omega
  | succ passes ih =>
    have hgrows := pass_grows links ids
    simp only [close]
    split_ifs with hchanged
    · refine ih (hgrows.nodup hn) ?_ ?_
      · intro x hx
        rcases foldl_visit_from hx with hx|hx
        · exact hids hx
        · exact hlinks hx
      · rw [hgrows.told] at hchanged
        simp only [Bool.false_eq_true,false_or] at hchanged
        omega
    · exact ⟨_,rfl⟩

/-- From one element, more passes than elements that occur in links find exactly the elements
joined to it. -/
theorem close_spec {passes : Nat} (hp : links.flatten.length<passes) :
    ∃result, close links passes [a]=some result ∧ result.Nodup ∧ ∀b, b∈result ↔ Joined links a b := by
  have hlength : (a::links.flatten).length<[a].length+passes := by
    rw [List.length_cons,List.length_singleton]
    omega
  obtain ⟨result,hresult⟩ := close_isSome (List.nodup_singleton a) (by simp)
    (List.subset_cons_self a links.flatten) hlength
  have hstart : ∀x∈[a], Joined links a x := by
    intro x hx
    rw [List.mem_singleton.mp hx]
  obtain ⟨hnodup,hkept,hclosed,hjoined⟩ := close_some hresult (List.nodup_singleton a) hstart
  have ha : a∈result := hkept.subset (List.mem_singleton_self a)
  exact ⟨result,hresult,hnodup,fun b => ⟨hjoined b,hclosed.joined ha⟩⟩

end Closure

end TuneX.Framework
