import Mathlib.Order.Basic
import Mathlib.Data.List.Induction

namespace TuneX.Framework

universe u v w
variable {σ : Type u} {ε : Type v}

/-- The states reached from `s` by the labelled steps of a list, oldest label first. -/
inductive Run (R : σ→ε→σ→Prop) (s : σ) : List ε→σ→Prop
  | refl : Run R s [] s
  | snoc {l : List ε} {t u : σ} {e : ε} : Run R s l t→R t e u→Run R s (l++[e]) u

namespace Run

variable {R : σ→ε→σ→Prop} {s t u : σ} {l m : List ε} {e : ε}

theorem single (h : R s e t) : Run R s [e] t :=
  snoc (l := []) refl h

theorem trans (h : Run R s l t) (k : Run R t m u) : Run R s (l++m) u := by
  induction k with
  | refl => simpa using h
  | snoc _ hs ih =>
    rw [← List.append_assoc]
    exact ih.snoc hs

theorem cons (h : R s e t) (k : Run R t l u) : Run R s (e::l) u :=
  (single h).trans k

private theorem snoc_inv_aux (h : Run R s m u) (hm : m=l++[e]) :
    ∃t, Run R s l t ∧ R t e u := by
  cases h with
  | refl => simp at hm
  | snoc hr hs =>
    obtain ⟨rfl,he⟩ := List.append_inj' hm rfl
    obtain rfl := List.singleton_inj.mp he
    exact ⟨_,hr,hs⟩

theorem snoc_inv (h : Run R s (l++[e]) u) : ∃t, Run R s l t ∧ R t e u :=
  snoc_inv_aux h rfl

theorem nil_inv (h : Run R s [] t) : t=s := by
  generalize hm : ([] : List ε)=m at h
  cases h with
  | refl => rfl
  | snoc => simp at hm

theorem append_inv (h : Run R s (l++m) u) : ∃t, Run R s l t ∧ Run R t m u := by
  induction m using List.reverseRecOn generalizing u with
  | nil => exact ⟨u,by simpa using h,refl⟩
  | append_singleton m e ih =>
    rw [← List.append_assoc] at h
    obtain ⟨v,hv,hs⟩ := h.snoc_inv
    obtain ⟨t,ht,hm⟩ := ih hv
    exact ⟨t,ht,hm.snoc hs⟩

theorem cons_inv (h : Run R s (e::l) u) : ∃t, R s e t ∧ Run R t l u := by
  obtain ⟨t,ht,hl⟩ := append_inv (l := [e]) (m := l) h
  obtain ⟨r,hr,hs⟩ := snoc_inv (l := []) ht
  exact ⟨t,hr.nil_inv ▸ hs,hl⟩

theorem mem_inv (h : Run R s l u) (he : e∈l) :
    ∃l₁ l₂ t t', l=l₁++e::l₂ ∧ Run R s l₁ t ∧ R t e t' ∧ Run R t' l₂ u := by
  obtain ⟨l₁,l₂,rfl⟩ := List.append_of_mem he
  obtain ⟨t,ht,hm⟩ := h.append_inv
  obtain ⟨t',hs,hl⟩ := hm.cons_inv
  exact ⟨l₁,l₂,t,t',rfl,ht,hs,hl⟩

theorem invariant (I : σ→Prop) (hI : ∀⦃a e b⦄, R a e b→I a→I b) (h : Run R s l t)
    (hs : I s) : I t := by
  induction h with
  | refl => exact hs
  | snoc _ hr ih => exact hI hr ih

theorem history (I : List ε→σ→Prop)
    (hI : ∀⦃l a e b⦄, Run R s l a→R a e b→I l a→I (l++[e]) b) (h : Run R s l t)
    (hs : I [] s) : I l t := by
  induction h with
  | refl => exact hs
  | snoc hr hstep ih => exact hI hr hstep ih

theorem mono {S : σ→ε→σ→Prop} (hRS : ∀⦃a e b⦄, R a e b→S a e b) (h : Run R s l t) :
    Run S s l t := by
  induction h with
  | refl => exact refl
  | snoc _ hr ih => exact ih.snoc (hRS hr)

theorem of_foldlM {f : σ→ε→Option σ} (hf : ∀a e b, f a e=some b→ R a e b)
    (h : l.foldlM f s=some t) : Run R s l t := by
  induction l generalizing s with
  | nil =>
    simp only [List.foldlM_nil,Option.pure_def,Option.some.injEq] at h
    exact h ▸ refl
  | cons e l ih =>
    simp only [List.foldlM_cons,Option.bind_eq_bind,Option.bind_eq_some_iff] at h
    obtain ⟨a,ha,hl⟩ := h
    exact cons (hf s e a ha) (ih hl)

/-- The computed end of a run, with what follows from the run. -/
theorem exists_of_foldlM {f : σ→ε→Option σ} {Q : σ→Prop} (hf : ∀a e b, f a e=some b→ R a e b)
    (h : l.foldlM f s=some t) (hq : Run R s l t→Q t) : ∃t, Run R s l t ∧ Q t :=
  ⟨t,of_foldlM hf h,hq (of_foldlM hf h)⟩

end Run

end TuneX.Framework
