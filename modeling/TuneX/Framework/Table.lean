import Mathlib.Data.List.AList

namespace TuneX.Framework

/-- A stored table: finitely many rows, at most one for each primary key. -/
abbrev Table (κ α : Type) := AList (fun _ : κ => α)

namespace Table

variable {κ α : Type} [DecidableEq κ]

def rows (t : Table κ α) : List (κ×α) := t.entries.map fun e => (e.1,e.2)

/-- An update of every row; a condition on the row is part of the function. -/
def alter (t : Table κ α) (f : κ→α→α) : Table κ α where
  entries := t.entries.map fun e => ⟨e.1,f e.1 e.2⟩
  nodupKeys := by
    have h : (t.entries.map fun e => (⟨e.1,f e.1 e.2⟩ : Sigma fun _ : κ => α)).keys=
        t.entries.keys := by
      simp [List.keys,Function.comp_def]
    rw [List.NodupKeys,h]
    exact t.nodupKeys

variable {t : Table κ α} {k j : κ} {a b : α} {f : κ→α→α}

theorem mem_rows : (k,a)∈t.rows ↔ t.lookup k=some a := by
  rw [← Option.mem_def,AList.mem_lookup_iff]
  constructor
  · intro h
    obtain ⟨e,he,heq⟩ := List.mem_map.mp h
    cases heq
    exact he
  · intro h
    exact List.mem_map.mpr ⟨⟨k,a⟩,h,rfl⟩

omit [DecidableEq κ] in
theorem rows_nodup (t : Table κ α) : t.rows.Nodup := by
  have hinj : Function.Injective fun e : Sigma fun _ : κ => α => (e.1,e.2) := by
    rintro ⟨k,a⟩ ⟨j,b⟩ h
    cases h
    rfl
  exact (List.NodupKeys.nodup t.nodupKeys).map hinj

@[simp] theorem lookup_alter (t : Table κ α) (f : κ→α→α) (k : κ) :
    (t.alter f).lookup k=(t.lookup k).map (f k) := by
  apply Option.ext
  intro b
  rw [← mem_rows,Option.map_eq_some_iff]
  constructor
  · intro h
    obtain ⟨e,he,heq⟩ := List.mem_map.mp h
    obtain ⟨d,hd,rfl⟩ := List.mem_map.mp he
    cases heq
    exact ⟨d.2,mem_rows.mp (List.mem_map.mpr ⟨d,hd,rfl⟩),rfl⟩
  · rintro ⟨a,ha,rfl⟩
    obtain ⟨d,hd,heq⟩ := List.mem_map.mp (mem_rows.mpr ha)
    cases heq
    exact List.mem_map.mpr ⟨_,List.mem_map.mpr ⟨d,hd,rfl⟩,rfl⟩

theorem lookup_insert_eq (t : Table κ α) (k j : κ) (a : α) :
    (t.insert k a).lookup j=if j=k then some a else t.lookup j := by
  by_cases h : j=k
  · subst h
    simp
  · simp [h]

theorem lookup_insert_some :
    (t.insert k a).lookup j=some b ↔ (j=k ∧ a=b) ∨ (j≠k ∧ t.lookup j=some b) := by
  rw [lookup_insert_eq]
  by_cases h : j=k
  · simp [h]
  · simp [h]

theorem forall_insert {P : κ→α→Prop} (hnew : P k a) (hold : ∀j b, t.lookup j=some b→P j b) :
    ∀j b, (t.insert k a).lookup j=some b→P j b := by
  intro j b h
  obtain ⟨rfl,rfl⟩ | ⟨-,h⟩ := lookup_insert_some.mp h
  · exact hnew
  · exact hold j b h

theorem lookup_erase_some : (t.erase k).lookup j=some a ↔ j≠k ∧ t.lookup j=some a := by
  by_cases h : j=k
  · subst h
    simp
  · simp [h]

theorem lookup_alter_some :
    (t.alter f).lookup k=some b ↔ ∃a, t.lookup k=some a ∧ f k a=b := by
  rw [lookup_alter,Option.map_eq_some_iff]

end Table

section First

variable {α : Type} {before : α→α→Bool}

/-- The first row in an order, as `ORDER BY … LIMIT 1` returns it. -/
def first (before : α→α→Bool) : List α→Option α
  | [] => none
  | a::l => match first before l with
    | none => some a
    | some b => if before a b then some a else some b

theorem first_mem {l : List α} {a : α} (h : first before l=some a) : a∈l := by
  induction l generalizing a with
  | nil => simp [first] at h
  | cons c l ih =>
    unfold first at h
    cases hl : first before l with
    | none => simp_all
    | some b =>
      rw [hl] at h
      by_cases hb : before c b
      · simp_all
      · simp [hb] at h
        exact List.mem_cons_of_mem _ (ih (h ▸ hl))

theorem first_eq_none {l : List α} : first before l=none ↔ l=[] := by
  cases l with
  | nil => simp [first]
  | cons a l =>
    unfold first
    cases first before l with
    | none => simp
    | some b => by_cases hb : before a b <;> simp [hb]

theorem first_before (htrans : ∀a b c, before a b→before b c→before a c)
    (htotal : ∀a b, before a b ∨ before b a) {l : List α} {a : α} (h : first before l=some a) :
    ∀b∈l, before a b := by
  have hrefl : ∀a, before a a := fun a => (htotal a a).elim id id
  induction l generalizing a with
  | nil => simp
  | cons c l ih =>
    intro b hb
    unfold first at h
    cases hl : first before l with
    | none =>
      simp only [hl,Option.some.injEq] at h
      rw [first_eq_none] at hl
      simp only [hl,List.mem_singleton] at hb
      exact h ▸ hb ▸ hrefl c
    | some d =>
      simp only [hl] at h
      by_cases hcd : before c d
      · simp only [hcd,if_true,Option.some.injEq] at h
        cases List.mem_cons.mp hb with
        | inl he => exact h ▸ he ▸ hrefl c
        | inr hm => exact h ▸ htrans c d b hcd (ih hl b hm)
      · simp only [hcd,Bool.false_eq_true,if_false,Option.some.injEq] at h
        subst h
        cases List.mem_cons.mp hb with
        | inl he => exact he ▸ (htotal c d).resolve_left hcd
        | inr hm => exact ih hl b hm

end First

end TuneX.Framework
