import TuneX.Framework.Table

namespace TuneX.Framework

variable {κ α : Type}

/-- The rows that a test keeps. -/
def Table.keep (t : Table κ α) (p : α→Bool) : Table κ α where
  entries := t.entries.filter fun e => p e.2
  nodupKeys := t.nodupKeys.sublist List.filter_sublist

variable [DecidableEq κ] {t : Table κ α} {k : κ} {a : α} {p busy : α→Bool}

theorem Table.lookup_keep_some : (t.keep p).lookup k=some a ↔ t.lookup k=some a ∧ p a := by
  simp only [← Option.mem_def,AList.mem_lookup_iff,Table.keep,List.mem_filter]

/-- The keys in `held` are those of the busy rows, and the counter is their number. -/
structure Admitted (busy : α→Bool) (limit capacity : Nat) (t : Table κ α) (active : Int)
    (held : List κ) : Prop where
  once : held.Nodup
  mem : ∀k, k∈held ↔ ∃a, t.lookup k=some a ∧ busy a
  counter : active=held.length
  bounded : held.length≤limit
  size : t.keys.length≤capacity

namespace Admitted

variable {limit capacity : Nat} {active : Int} {held : List κ}

section

variable (h : Admitted busy limit capacity t active held)
include h

theorem count : active=(t.rows.countP fun r => busy r.2 : Nat) := by
  have hmem : ∀k, k∈(t.keep busy).keys ↔ k∈held := by
    intro k
    rw [h.mem,← AList.mem_keys.eq,← AList.lookup_isSome,Option.isSome_iff_exists]
    simp only [Table.lookup_keep_some]
  have hperm := (List.perm_ext_iff_of_nodup (t.keep busy).keys_nodup h.once).mpr hmem
  rw [h.counter,← hperm.length_eq]
  simp [Table.keep,Table.rows,AList.keys,List.keys,List.countP_eq_length_filter,List.filter_map,
    Function.comp_def]

theorem keep (hp : ∀a, busy a→p a) : Admitted busy limit capacity (t.keep p) active held := by
  refine ⟨h.once,?_,h.counter,h.bounded,?_⟩
  · intro k
    rw [h.mem]
    simp only [Table.lookup_keep_some]
    constructor
    · rintro ⟨a,ha,hb⟩
      exact ⟨a,⟨ha,hp a hb⟩,hb⟩
    · rintro ⟨a,⟨ha,-⟩,hb⟩
      exact ⟨a,ha,hb⟩
  · have hsub : (t.keep p).keys.Sublist t.keys := List.filter_sublist.map Sigma.fst
    exact le_trans hsub.length_le h.size

theorem size_insert (hk : t.lookup k=none→t.keys.length<capacity) :
    (t.insert k a).keys.length≤capacity := by
  have hsize := h.size
  rw [AList.keys_insert,List.length_cons]
  by_cases hmem : k∈t.keys
  · have hpos := List.length_pos_of_mem hmem
    rw [List.length_erase_of_mem hmem]
    omega
  · rw [List.erase_of_not_mem hmem]
    exact hk (AList.lookup_eq_none.mpr hmem)

theorem enter (hbusy : busy a) (hfree : ∀b, t.lookup k=some b→busy b=false) (hlimit : active<limit)
    (hk : t.lookup k=none→t.keys.length<capacity) :
    Admitted busy limit capacity (t.insert k a) (active+1) (k::held) := by
  have hout : k∉held := by
    intro hmem
    obtain ⟨b,hb,hbb⟩ := (h.mem k).mp hmem
    rw [hfree b hb] at hbb
    cases hbb
  have hcounter := h.counter
  refine ⟨List.nodup_cons.mpr ⟨hout,h.once⟩,?_,?_,?_,h.size_insert hk⟩
  · intro j
    rw [List.mem_cons,h.mem]
    simp only [Table.lookup_insert_eq]
    by_cases hj : j=k
    · simp [hj,hbusy]
    · simp [hj]
  · rw [hcounter,List.length_cons]
    rfl
  · rw [List.length_cons]
    omega

end

theorem release (h : Admitted busy limit capacity t active (k::held)) (hidle : busy a=false) :
    Admitted busy limit capacity (t.insert k a) (active-1) held := by
  obtain ⟨hout,honce⟩ := List.nodup_cons.mp h.once
  obtain ⟨b,hb,-⟩ := (h.mem k).mp List.mem_cons_self
  have hcounter := h.counter
  have hbounded := h.bounded
  rw [List.length_cons] at hcounter hbounded
  refine ⟨honce,?_,by omega,by omega,h.size_insert fun hnone => by simp [hb] at hnone⟩
  intro j
  have hmem := h.mem j
  rw [List.mem_cons] at hmem
  simp only [Table.lookup_insert_eq]
  by_cases hj : j=k
  · subst hj
    simp [hout,hidle]
  · simpa [hj] using hmem

theorem perm {other : List κ} (h : Admitted busy limit capacity t active held)
    (hp : held.Perm other) : Admitted busy limit capacity t active other :=
  ⟨hp.nodup_iff.mp h.once,fun k => hp.mem_iff.symm.trans (h.mem k),hp.length_eq ▸ h.counter,
    hp.length_eq ▸ h.bounded,h.size⟩

end Admitted

/-- Each marked time lies a gap back, or the row of its key still makes it wait that long. -/
def Spaced (wait : α→Nat) (gap : Nat) (marked : κ→Nat→Prop) (now : Nat) (t : Table κ α) : Prop :=
  ∀k m, marked k m→m+gap≤now ∨ ∃a, t.lookup k=some a ∧ m+gap≤wait a

namespace Spaced

variable {wait : α→Nat} {gap now later : Nat} {marked : κ→Nat→Prop}

section

variable (h : Spaced wait gap marked now t)
include h

theorem mono (hnow : now≤later) : Spaced wait gap marked later t :=
  fun k m hm => (h k m hm).imp_left fun hgap => le_trans hgap hnow

theorem keep (hnow : now≤later) (hp : ∀a, p a=false→wait a≤later) :
    Spaced wait gap marked later (t.keep p) := by
  intro k m hm
  rcases h k m hm with hgap|⟨a,ha,hgap⟩
  · exact .inl (le_trans hgap hnow)
  · cases hpa : p a with
    | false => exact .inl (le_trans hgap (hp a hpa))
    | true => exact .inr ⟨a,Table.lookup_keep_some.mpr ⟨ha,hpa⟩,hgap⟩

theorem insert (ha : ∀b, t.lookup k=some b→wait b≤now ∨ wait b≤wait a) :
    Spaced wait gap marked now (t.insert k a) := by
  intro j m hm
  rw [Table.lookup_insert_eq]
  rcases h j m hm with hgap|⟨b,hb,hgap⟩
  · exact .inl hgap
  · split_ifs with hj
    · subst hj
      rcases ha b hb with hwait|hwait
      · exact .inl (le_trans hgap hwait)
      · exact .inr ⟨a,rfl,le_trans hgap hwait⟩
    · exact .inr ⟨b,hb,hgap⟩

theorem mark {others : κ→Nat→Prop}
    (hm : ∀k m, others k m→marked k m ∨ ∃a, t.lookup k=some a ∧ m+gap≤wait a) :
    Spaced wait gap others now t := by
  intro k m hk
  rcases hm k m hk with hold|hnew
  · exact h k m hold
  · exact .inr hnew

theorem passed (hk : ∀a, t.lookup k=some a→wait a≤now) {m : Nat} (hm : marked k m) : m+gap≤now := by
  rcases h k m hm with hgap|⟨a,ha,hgap⟩
  · exact hgap
  · exact le_trans hgap (hk a ha)

end

end Spaced

end TuneX.Framework
