import Mathlib.Data.List.Basic

/-!
# The first index that passes a test

A loop over indices keeps the first one that passes a test in a number, from one on, with zero for none.

* `first p n` : the first index below `n` with `p`; `first_eq_some_iff`, `first_eq_none_iff`;
* `number` : the number of an index; `number_first_succ`, `number_first_skip` : one more round of the loop;
* `number_first_le` : a test that is passed more often is passed no later.
-/

namespace First

variable {p q : Nat → Bool} {n i : Nat}

def first (p : Nat → Bool) (n : Nat) : Option Nat := (List.range n).find? p

theorem first_eq_some_iff : first p n = some i ↔ i < n ∧ p i = true ∧ ∀ j < i, p j = false := by
  unfold first
  rw [List.find?_range_eq_some, List.mem_range]
  constructor
  · rintro ⟨hp, hlt, hbefore⟩
    exact ⟨hlt, hp, fun j hj => by simpa using hbefore j hj⟩
  · rintro ⟨hlt, hp, hbefore⟩
    exact ⟨hp, hlt, fun j hj => by simpa using hbefore j hj⟩

theorem first_eq_none_iff : first p n = none ↔ ∀ j < n, p j = false := by
  unfold first
  rw [List.find?_eq_none]
  constructor
  · intro h j hj
    simpa using h j (List.mem_range.mpr hj)
  · intro h j hj
    simp [h j (List.mem_range.mp hj)]

theorem first_succ (p : Nat → Bool) (n : Nat) : first p (n + 1) = (first p n).or (if p n then some n else none) := by
  unfold first
  rw [List.range_succ, List.find?_append, List.find?_singleton]

/-- Indices are numbered from one, and zero stands for none. -/
def number (found : Option Nat) : Nat := found.elim 0 (· + 1)

theorem number_eq_zero_iff {found : Option Nat} : number found = 0 ↔ found = none := by
  cases found with
  | none => exact iff_of_true rfl rfl
  | some i => exact iff_of_false (Nat.succ_ne_zero i) (Option.some_ne_none i)

/-- A round of the loop: the number is set if there is none yet. -/
theorem number_first_succ (p : Nat → Bool) (n : Nat) :
    number (first p (n + 1)) = if number (first p n) = 0 ∧ p n then n + 1 else number (first p n) := by
  rw [first_succ]
  cases hfirst : first p n with
  | none => cases hp : p n <;> rfl
  | some i =>
    rw [Option.some_or, if_neg fun h => Nat.succ_ne_zero i h.1]

/-- A round that is skipped, since an index before it passes if this one does. -/
theorem number_first_skip (h : p n = true → ∃ j < n, p j = true) :
    number (first p (n + 1)) = number (first p n) := by
  rw [number_first_succ, if_neg]
  rintro ⟨hzero, hp⟩
  obtain ⟨j, hj, hpj⟩ := h hp
  have hnone := first_eq_none_iff.mp (number_eq_zero_iff.mp hzero) j hj
  rw [hpj] at hnone
  cases hnone

/-- A test that is passed more often is passed no later. -/
theorem number_first_le (hqp : ∀ i < n, q i = true → p i = true) (hq : number (first q n) ≠ 0) :
    number (first p n) ≤ number (first q n) := by
  cases hfirst : first q n with
  | none => exact absurd (number_eq_zero_iff.mpr hfirst) hq
  | some i =>
    obtain ⟨hlt, hqi, -⟩ := first_eq_some_iff.mp hfirst
    cases hfirst' : first p n with
    | none => exact Nat.zero_le _
    | some j =>
      obtain ⟨-, -, hbefore⟩ := first_eq_some_iff.mp hfirst'
      have hle : j ≤ i := by
        by_contra hlt'
        have hpi := hqp i hlt hqi
        rw [hbefore i (by omega)] at hpi
        cases hpi
      exact Nat.succ_le_succ hle

theorem number_first_bound (p : Nat → Bool) (n : Nat) : number (first p n) ≤ n := by
  cases hfirst : first p n with
  | none => exact Nat.zero_le n
  | some i => exact (first_eq_some_iff.mp hfirst).1

end First
