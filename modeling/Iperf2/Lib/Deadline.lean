import Mathlib.Algebra.Order.Archimedean.Basic

/-!
# A deadline that runs from a clock

Samples of a clock are compared with a deadline that moves on by a period for every sample that is not before it. The
deadline escapes at the first sample that is before it.

* `exists_escapes_iff` : when there is such a sample;
* `Escapes.unique`, `escapes_succ` : the sample that it is;
* `exists_escapes_of_slow` : a clock that advances by less than the period in the long run.
-/

namespace Deadline

variable {α : Type*} [AddCommGroup α] [LinearOrder α]

/-- The deadline has moved on `n` times when a sample, number `n`, is before it for the first time. -/
structure Escapes (clock : ℕ → α) (deadline period : α) (n : ℕ) : Prop where
  before : clock n < deadline + n • period
  late : ∀ k < n, deadline + k • period ≤ clock k

variable {clock : ℕ → α} {deadline period : α}

theorem Escapes.unique {n m : ℕ} (hn : Escapes clock deadline period n) (hm : Escapes clock deadline period m) :
    n = m := by
  rcases lt_trichotomy n m with hlt | heq | hgt
  · exact absurd hn.before (not_lt.mpr (hm.late n hlt))
  · exact heq
  · exact absurd hm.before (not_lt.mpr (hn.late m hgt))

theorem exists_escapes_iff : (∃ n, Escapes clock deadline period n) ↔ ∃ n : ℕ, clock n < deadline + n • period := by
  constructor
  · rintro ⟨n, hn⟩
    exact ⟨n, hn.before⟩
  · intro h
    classical
    exact ⟨Nat.find h, Nat.find_spec h, fun k hk => not_lt.mp (Nat.find_min h hk)⟩

theorem escapes_zero (h : clock 0 < deadline) : Escapes clock deadline period 0 := by
  refine ⟨?_, fun k hk => absurd hk (Nat.not_lt_zero k)⟩
  rw [zero_nsmul, add_zero]
  exact h

/-- A sample that is not before the deadline: the rest is the same with the next sample and the next deadline. -/
theorem escapes_succ (h : deadline ≤ clock 0) {n : ℕ} :
    Escapes clock deadline period (n + 1) ↔ Escapes (fun k => clock (k + 1)) (deadline + period) period n := by
  have hnext : ∀ k : ℕ, deadline + (k + 1) • period = deadline + period + k • period := by
    intro k
    rw [succ_nsmul]
    abel
  constructor
  · intro hn
    refine ⟨?_, fun k hk => ?_⟩
    · rw [← hnext]
      exact hn.before
    · rw [← hnext]
      exact hn.late (k + 1) (Nat.succ_lt_succ hk)
  · intro hn
    refine ⟨?_, fun k hk => ?_⟩
    · rw [hnext]
      exact hn.before
    · cases k with
      | zero =>
        rw [zero_nsmul, add_zero]
        exact h
      | succ k =>
        rw [hnext]
        exact hn.late k (Nat.lt_of_succ_lt_succ hk)

theorem Escapes.pos (h : deadline ≤ clock 0) {n : ℕ} (hn : Escapes clock deadline period n) : 0 < n := by
  apply Nat.pos_of_ne_zero
  rintro rfl
  have hbefore := hn.before
  rw [zero_nsmul, add_zero] at hbefore
  exact absurd hbefore (not_lt.mpr h)

variable [IsOrderedAddMonoid α]

/-- A clock that advances by at most `gain` over any `stride` samples, which are more periods than that. -/
theorem exists_escapes_of_slow [Archimedean α] {stride : ℕ} {gain : α} (hgain : gain < stride • period)
    (hslow : ∀ k, clock ((k + 1) * stride) ≤ clock (k * stride) + gain) :
    ∃ n, Escapes clock deadline period n := by
  have hbound : ∀ k : ℕ, clock (k * stride) ≤ clock 0 + k • gain := by
    intro k
    induction k with
    | zero => simp
    | succ k ih =>
      calc clock ((k + 1) * stride) ≤ clock (k * stride) + gain := hslow k
        _ ≤ clock 0 + k • gain + gain := by gcongr
        _ = clock 0 + (k + 1) • gain := by rw [succ_nsmul, add_assoc]
  obtain ⟨k, hk⟩ := Archimedean.arch (clock 0 - deadline) (sub_pos.mpr hgain)
  rw [nsmul_sub, sub_le_iff_le_add] at hk
  rw [exists_escapes_iff]
  refine ⟨(k + 1) * stride, ?_⟩
  calc clock ((k + 1) * stride) ≤ clock 0 + (k + 1) • gain := hbound (k + 1)
    _ = clock 0 + k • gain + gain := by rw [succ_nsmul, add_assoc]
    _ ≤ k • stride • period - k • gain + deadline + k • gain + gain := by gcongr
    _ = deadline + k • stride • period + gain := by abel
    _ < deadline + k • stride • period + stride • period := by gcongr
    _ = deadline + ((k + 1) * stride) • period := by rw [add_assoc, ← succ_nsmul, ← mul_nsmul, mul_comm]

end Deadline
