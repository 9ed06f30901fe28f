import Mathlib.Algebra.BigOperators.Group.Finset.Piecewise
import Mathlib.Algebra.Order.BigOperators.Group.Finset
import Mathlib.Algebra.Order.Group.Int
import Mathlib.Algebra.Order.Group.Defs
import Mathlib.Tactic.Abel

/-!
# Counting members by their state

Members of a finite type each have a state that changes from time to time; `census p f` is how many of them are in a
state with the property `p`, which may depend on the member. A counter that others keep by increments and decrements is
compared with it when one member changes its state (`census_update`).
-/

namespace Census

variable {T S : Type*} [Fintype T] {p q : T → S → Bool} {f g : T → S}

/-- How many members are in a state with the property. -/
def census (p : T → S → Bool) (f : T → S) : Int := ∑ t, if p t (f t) then 1 else 0

theorem census_congr (h : ∀ t, p t (f t) = q t (g t)) : census p f = census q g :=
  Finset.sum_congr rfl fun t _ => by rw [h]

theorem census_mono (h : ∀ t, p t (f t) → q t (f t)) : census p f ≤ census q f := by
  apply Finset.sum_le_sum
  intro t _
  by_cases hp : p t (f t)
  · rw [if_pos hp, if_pos (h t hp)]
  · rw [if_neg hp]
    split <;> decide

theorem census_zero (h : ∀ t, p t (f t) = false) : census p f = 0 :=
  Finset.sum_eq_zero fun t _ => by rw [h]; rfl

/-- One with the property is counted. -/
theorem census_pos {t : T} (h : p t (f t)) : 0 < census p f := by
  apply Finset.sum_pos' (fun t _ => by split <;> decide)
  exact ⟨t, Finset.mem_univ t, by rw [if_pos h]; decide⟩

theorem census_or (h : ∀ t, p t (f t) → q t (f t) = false) :
    census (fun t x => p t x || q t x) f = census p f + census q f := by
  unfold census
  rw [← Finset.sum_add_distrib]
  apply Finset.sum_congr rfl
  intro t _
  by_cases hp : p t (f t)
  · simp [hp, h t hp]
  · simp [hp]

/-- As many have the weaker property as the stronger one: all with the weaker one have the stronger one. -/
theorem of_census_le (h : ∀ t, p t (f t) → q t (f t)) (hle : census q f ≤ census p f) {t : T} (hq : q t (f t)) :
    p t (f t) := by
  by_contra hp
  have hlt : census p f < census q f := by
    apply Finset.sum_lt_sum
    · intro t _
      by_cases hp : p t (f t)
      · rw [if_pos hp, if_pos (h t hp)]
      · rw [if_neg hp]
        split <;> decide
    · exact ⟨t, Finset.mem_univ t, by rw [if_neg hp, if_pos hq]; decide⟩
  exact absurd hle (not_le.mpr hlt)

variable [DecidableEq T]

/-- One member changes its state. -/
theorem census_update (p : T → S → Bool) (f : T → S) (t : T) (x : S) :
    census p (Function.update f t x) =
      census p f + (if p t x then 1 else 0) - (if p t (f t) then 1 else 0) := by
  have hothers : ∑ u ∈ Finset.univ.erase t, (if p u (Function.update f t x u) then (1 : Int) else 0) =
      ∑ u ∈ Finset.univ.erase t, if p u (f u) then 1 else 0 := by
    apply Finset.sum_congr rfl
    intro u hu
    rw [Function.update_of_ne (Finset.ne_of_mem_erase hu)]
  unfold census
  rw [← Finset.add_sum_erase _ _ (Finset.mem_univ t), ← Finset.add_sum_erase _ _ (Finset.mem_univ t), hothers,
    Function.update_self]
  abel

/-- Two members with the property. -/
theorem census_two {t u : T} (htu : t ≠ u) (ht : p t (f t)) (hu : p u (f u)) : 2 ≤ census p f := by
  unfold census
  rw [← Finset.add_sum_erase _ _ (Finset.mem_univ t), if_pos ht]
  have hpos : 0 < ∑ v ∈ Finset.univ.erase t, (if p v (f v) then (1 : Int) else 0) := by
    apply Finset.sum_pos' (fun v _ => by split <;> decide)
    exact ⟨u, Finset.mem_erase.mpr ⟨htu.symm, Finset.mem_univ u⟩, by rw [if_pos hu]; decide⟩
  omega

/-- One member is all that may have the property. -/
theorem census_le_one {t : T} (h : ∀ u, p u (f u) → u = t) : census p f ≤ 1 := by
  unfold census
  have hothers : ∑ u ∈ Finset.univ.erase t, (if p u (f u) then (1 : Int) else 0) = 0 := by
    apply Finset.sum_eq_zero
    intro u hu
    exact if_neg fun hp => Finset.ne_of_mem_erase hu (h u hp)
  rw [← Finset.add_sum_erase _ _ (Finset.mem_univ t), hothers, add_zero]
  split <;> decide

end Census
