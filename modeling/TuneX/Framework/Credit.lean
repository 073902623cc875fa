import Mathlib.Order.MinMax
import Mathlib.Algebra.Order.Ring.Int
import Mathlib.Algebra.BigOperators.Group.List.Basic

namespace TuneX.Framework

/-- A balance that earns `rate` for each unit that comes in, up to `limit`, and pays for
each unit that goes out: with `start` given at the beginning, what was paid and what is
left never exceed what was given and earned. -/
structure Solvent (limit rate start credit earned spent : Int) : Prop where
  nonneg : 0 ≤ credit
  capped : credit≤limit
  covered : credit+spent ≤ start+rate*earned

namespace Solvent

variable {limit rate start credit earned spent w : Int}

theorem opened (h₀ : 0 ≤ start) (h₁ : start≤limit) : Solvent limit rate start start 0 0 :=
  ⟨h₀,h₁,by omega⟩

section

variable (h : Solvent limit rate start credit earned spent)
include h

theorem earn (hr : 0 ≤ rate*w) :
    Solvent limit rate start (min limit (credit+rate*w)) (earned+w) spent := by
  have hlow : 0 ≤ credit+rate*w := by
    have := h.nonneg
    omega
  have hlimit : 0≤limit := h.nonneg.trans h.capped
  refine ⟨le_min hlimit hlow,min_le_left _ _,?_⟩
  have hmin : min limit (credit+rate*w) ≤ credit+rate*w := min_le_right _ _
  have hcov := h.covered
  rw [mul_add]
  omega

theorem spend (hw : 0≤w) (hle : w ≤ credit) :
    Solvent limit rate start (credit-w) earned (spent+w) := by
  have hcap := h.capped
  have hcov := h.covered
  exact ⟨by omega,by omega,by omega⟩

theorem spent_le : spent ≤ start+rate*earned := by
  have hlow := h.nonneg
  have hcov := h.covered
  omega

end

end Solvent

end TuneX.Framework
