import Mathlib.Data.List.AList
import Mathlib.Order.Lattice

namespace TuneX.Framework

/-- A finite map to counters; reading an absent key gives zero. -/
abbrev Counters (κ : Type) := AList (fun _ : κ => Nat)

namespace Counters

variable {κ : Type} [DecidableEq κ]

def read (m : Counters κ) (k : κ) : Nat := (m.lookup k).getD 0

/-- Raise the counter of a key to at least `n`, creating the entry if needed. -/
def raise (m : Counters κ) (k : κ) (n : Nat) : Counters κ := m.insert k (max (m.read k) n)

def raiseAll (m : Counters κ) (l : List (κ×Nat)) : Counters κ :=
  l.foldl (fun m e => m.raise e.1 e.2) m

def writeAll (m : Counters κ) (l : List (κ×Nat)) : Counters κ :=
  l.foldl (fun m e => m.insert e.1 e.2) m

def pairs (m : Counters κ) : List (κ×Nat) := m.entries.map fun e => (e.1,e.2)

/-- Equality as maps: the order of the entries does not matter. -/
def same (m m' : Counters κ) : Bool := decide (m.entries.Perm m'.entries)

def Every (P : κ→Nat→Prop) (m : Counters κ) : Prop := ∀k n, m.lookup k=some n→P k n

variable {P : κ→Nat→Prop} {m m' : Counters κ} {j k : κ} {n : Nat}

@[simp] theorem read_insert_self (m : Counters κ) (k : κ) (n : Nat) :
    read (m.insert k n) k=n := by
  simp [read]

theorem read_insert_ne (m : Counters κ) (n : Nat) (h : j≠k) :
    read (m.insert k n) j=m.read j := by
  simp [read,h]

@[simp] theorem read_raise_self (m : Counters κ) (k : κ) (n : Nat) :
    (m.raise k n).read k=max (m.read k) n := by
  simp [raise]

theorem read_raise_ne (m : Counters κ) (n : Nat) (h : j≠k) :
    (m.raise k n).read j=m.read j := by
  simp [raise,read_insert_ne m _ h]

theorem read_le_raise (m : Counters κ) (k : κ) (n : Nat) (j : κ) :
    m.read j≤(m.raise k n).read j := by
  by_cases h : j=k
  · subst h
    rw [read_raise_self]
    exact le_max_left _ _
  · rw [read_raise_ne m n h]

theorem same_refl (m : Counters κ) : m.same m := by
  simp [same]

theorem same_symm (h : m.same m') : m'.same m := by
  have hp : m.entries.Perm m'.entries := by simpa [same] using h
  simpa [same] using hp.symm

theorem same_read (h : m.same m') (k : κ) : m.read k=m'.read k := by
  have hp : m.entries.Perm m'.entries := by simpa [same] using h
  unfold read
  rw [AList.perm_lookup hp]

theorem same_every (h : m.same m') (hm : m'.Every P) : m.Every P := by
  have hp : m.entries.Perm m'.entries := by simpa [same] using h
  intro k n hk
  apply hm
  rw [← AList.perm_lookup hp]
  exact hk

theorem mem_pairs (m : Counters κ) (k : κ) (n : Nat) :
    (k,n)∈m.pairs ↔ m.lookup k=some n := by
  have h := AList.mem_lookup_iff (s := m) (a := k) (b := n)
  rw [Option.mem_def] at h
  rw [h]
  constructor
  · intro hm
    obtain ⟨e,he,hk⟩ := List.mem_map.mp hm
    cases hk
    exact he
  · exact fun hm => List.mem_map.mpr ⟨⟨k,n⟩,hm,rfl⟩

theorem lookup_of_read_pos (h : 0 < m.read k) : m.lookup k=some (m.read k) := by
  unfold read at h ⊢
  cases hm : m.lookup k with
  | none => simp [hm] at h
  | some n => simp

theorem read_le_raiseAll (m : Counters κ) (l : List (κ×Nat)) (k : κ) :
    m.read k≤(m.raiseAll l).read k := by
  induction l generalizing m with
  | nil => exact le_rfl
  | cons e l ih => exact le_trans (read_le_raise m e.1 e.2 k) (ih _)

theorem le_raiseAll (m : Counters κ) (l : List (κ×Nat)) (h : (k,n)∈l) :
    n≤(m.raiseAll l).read k := by
  induction l generalizing m with
  | nil => simp at h
  | cons e l ih =>
    rcases List.mem_cons.mp h with rfl|h
    · have hr := read_le_raiseAll (m.raise k n) l k
      rw [read_raise_self] at hr
      exact le_trans (le_max_right _ _) hr
    · exact ih _ h

theorem read_raiseAll (m : Counters κ) (l : List (κ×Nat)) (k : κ) :
    (m.raiseAll l).read k=m.read k ∨ (k,(m.raiseAll l).read k)∈l := by
  induction l generalizing m with
  | nil => exact .inl rfl
  | cons e l ih =>
    rcases ih (m.raise e.1 e.2) with h|h
    · by_cases hk : k=e.1
      · change ((m.raise e.1 e.2).raiseAll l).read k=_ ∨ (k,((m.raise e.1 e.2).raiseAll l).read k)∈_
        rw [h,hk,read_raise_self]
        rcases le_total e.2 (m.read e.1) with hle|hle
        · exact .inl (max_eq_left hle)
        · rw [max_eq_right hle]
          exact .inr List.mem_cons_self
      · rw [read_raise_ne m e.2 hk] at h
        exact .inl h
    · exact .inr (List.mem_cons_of_mem _ h)

theorem read_raiseAll_lt (m : Counters κ) (l : List (κ×Nat)) (hm : m.read k<n)
    (hl : ∀c, (k,c)∈l→c<n) : (m.raiseAll l).read k<n := by
  rcases read_raiseAll m l k with h|h
  · rw [h]
    exact hm
  · exact hl _ h

theorem read_writeAll_of_not_mem (m : Counters κ) (l : List (κ×Nat))
    (h : k∉l.map Prod.fst) : (m.writeAll l).read k=m.read k := by
  induction l generalizing m with
  | nil => rfl
  | cons e l ih =>
    rw [List.map_cons,List.mem_cons,not_or] at h
    exact (ih _ h.2).trans (read_insert_ne m e.2 h.1)

theorem read_writeAll_of_mem (m : Counters κ) (l : List (κ×Nat))
    (hl : (l.map Prod.fst).Nodup) (h : (k,n)∈l) : (m.writeAll l).read k=n := by
  induction l generalizing m with
  | nil => simp at h
  | cons e l ih =>
    rw [List.map_cons,List.nodup_cons] at hl
    rcases List.mem_cons.mp h with rfl|h
    · exact (read_writeAll_of_not_mem _ l hl.1).trans (read_insert_self m k n)
    · exact ih _ hl.2 h

theorem every_empty : (∅ : Counters κ).Every P := by
  intro k n h
  simp at h

theorem every_insert (hm : m.Every P) (hk : P k n) : Every P (m.insert k n) := by
  intro j c h
  by_cases hj : j=k
  · subst hj
    rw [AList.lookup_insert] at h
    exact Option.some.inj h ▸ hk
  · rw [AList.lookup_insert_ne hj] at h
    exact hm j c h

theorem every_raise (hm : m.Every P) (hk : P k n) : (m.raise k n).Every P := by
  apply every_insert hm
  rcases le_total n (m.read k) with h|h
  · rw [max_eq_left h]
    by_cases h0 : 0 < m.read k
    · exact hm k _ (lookup_of_read_pos h0)
    · have hn : n=m.read k := by omega
      exact hn ▸ hk
  · rw [max_eq_right h]
    exact hk

theorem every_raiseAll (l : List (κ×Nat)) (hm : m.Every P) (hl : ∀e∈l, P e.1 e.2) :
    (m.raiseAll l).Every P := by
  induction l generalizing m with
  | nil => exact hm
  | cons e l ih =>
    apply ih (every_raise hm (hl e List.mem_cons_self))
    exact fun e' he => hl e' (List.mem_cons_of_mem _ he)

theorem every_writeAll (l : List (κ×Nat)) (hm : m.Every P) (hl : ∀e∈l, P e.1 e.2) :
    (m.writeAll l).Every P := by
  induction l generalizing m with
  | nil => exact hm
  | cons e l ih =>
    apply ih (every_insert hm (hl e List.mem_cons_self))
    exact fun e' he => hl e' (List.mem_cons_of_mem _ he)

theorem every_pairs (hm : m.Every P) : ∀e∈m.pairs, P e.1 e.2 :=
  fun e he => hm e.1 e.2 ((mem_pairs m e.1 e.2).mp he)

end Counters

end TuneX.Framework
