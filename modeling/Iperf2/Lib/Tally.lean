import Mathlib.Algebra.BigOperators.Group.Finset.Piecewise
import Mathlib.Algebra.Group.Int.Defs
import Mathlib.Algebra.Group.Nat.Defs

/-!
# Bins that count

* `bump` : one more in a bin;
* `sum_bump` : this is one more in all bins of a set if the bin is one of them.
-/

namespace Tally

variable {ι A : Type*} [DecidableEq ι] [AddCommMonoid A] [One A]

/-- One more in bin `i`. -/
def bump (bins : ι → A) (i : ι) : ι → A := fun j => if j = i then bins j + 1 else bins j

@[simp] theorem bump_self (bins : ι → A) (i : ι) : bump bins i i = bins i + 1 := if_pos rfl

theorem bump_of_ne (bins : ι → A) {i j : ι} (h : j ≠ i) : bump bins i j = bins j := if_neg h

theorem bump_eq_add (bins : ι → A) (i : ι) : bump bins i = fun j => bins j + if j = i then 1 else 0 := by
  funext j
  unfold bump
  split
  · rfl
  · exact (add_zero _).symm

/-- The sum over bins after one of them, or another one, was bumped. -/
theorem sum_bump (s : Finset ι) (bins : ι → A) (i : ι) :
    ∑ j ∈ s, bump bins i j = (∑ j ∈ s, bins j) + if i ∈ s then 1 else 0 := by
  rw [bump_eq_add, Finset.sum_add_distrib, Finset.sum_ite_eq']

end Tally
