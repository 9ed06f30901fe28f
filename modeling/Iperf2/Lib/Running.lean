import Mathlib.Algebra.BigOperators.Group.List.Basic
import Mathlib.Algebra.CharZero.Defs
import Mathlib.Algebra.Field.Basic
import Mathlib.Data.Nat.Cast.Basic
import Mathlib.Order.Bounds.Basic
import Mathlib.Order.MinMax
import Mathlib.Tactic.FieldSimp
import Mathlib.Tactic.Ring

/-!
# Running statistics

Count, sum, minimum, maximum, mean and sum of squared deviations of samples that come one at a time. The mean and the
deviations are updated with Welford's recurrence, in units of which a sample has `scale`.

* `mean`, `deviation` : the definitions with two passes; `mean_concat`, `deviation_concat` : one more sample;
* `Summary.Of` : what a summary is of, with a seed in front of its minimum and its maximum, and an excess in its
  deviations; `Summary.Of.foldl` : a run keeps it;
* `Summary.Of.right_iff` : when such a summary is right.
-/

namespace Running

/-! ## Means and deviations -/

section
variable {K : Type*} [Field K]

def mean (xs : List K) : K := xs.sum / xs.length

/-- The sum of squared deviations from `c`. -/
def deviation (c : K) (xs : List K) : K := (xs.map fun x => (x - c) ^ 2).sum

@[simp] theorem mean_nil : mean ([] : List K) = 0 := by simp [mean]

@[simp] theorem deviation_nil (c : K) : deviation c [] = 0 := rfl

/-- The square expanded. -/
theorem deviation_eq (c : K) (xs : List K) :
    deviation c xs = (xs.map fun x => x ^ 2).sum - 2 * c * xs.sum + xs.length * c ^ 2 := by
  induction xs with
  | nil => simp
  | cons x xs ih =>
    have hcons : deviation c (x :: xs) = (x - c) ^ 2 + deviation c xs := by
      simp only [deviation, List.map_cons, List.sum_cons]
    rw [hcons, ih]
    simp only [List.map_cons, List.sum_cons, List.length_cons, Nat.cast_add, Nat.cast_one]
    ring

variable [CharZero K]

theorem mean_concat (xs : List K) (x : K) : mean (xs ++ [x]) = mean xs + (x - mean xs) / (xs.length + 1) := by
  have hsucc : (xs.length : K) + 1 ≠ 0 := Nat.cast_add_one_ne_zero _
  by_cases hxs : xs = []
  · subst hxs
    simp [mean]
  · have hlength : (xs.length : K) ≠ 0 := Nat.cast_ne_zero.mpr (List.length_eq_zero_iff.not.mpr hxs)
    simp only [mean, List.sum_append, List.sum_singleton, List.length_append, List.length_singleton, Nat.cast_add,
      Nat.cast_one]
    field_simp
    ring

/-- The deviation of a new sample is taken once from the old mean and once from the new one. -/
theorem deviation_concat (xs : List K) (x : K) :
    deviation (mean (xs ++ [x])) (xs ++ [x]) =
      deviation (mean xs) xs + (x - mean xs) * (x - mean (xs ++ [x])) := by
  have hsucc : (xs.length : K) + 1 ≠ 0 := Nat.cast_add_one_ne_zero _
  by_cases hxs : xs = []
  · subst hxs
    simp [mean, deviation]
  · have hlength : (xs.length : K) ≠ 0 := Nat.cast_ne_zero.mpr (List.length_eq_zero_iff.not.mpr hxs)
    rw [deviation_eq, deviation_eq, mean, mean]
    simp only [List.map_append, List.map_singleton, List.sum_append, List.sum_singleton, List.length_append,
      List.length_singleton, Nat.cast_add, Nat.cast_one]
    field_simp
    ring

end

/-! ## Least and greatest samples -/

section
variable {α : Type*} [LinearOrder α] {xs : List α} {m : α}

theorem isLeast_concat (h : IsLeast {x | x ∈ xs} m) (y : α) :
    IsLeast {x | x ∈ xs ++ [y]} (if y < m then y else m) := by
  have hmem : ∀ x, x ∈ xs ++ [y] ↔ x ∈ xs ∨ x = y := fun x => by
    rw [List.mem_append, List.mem_singleton]
  split
  · rename_i hlt
    refine ⟨(hmem y).mpr (.inr rfl), fun x hx => ?_⟩
    rcases (hmem x).mp hx with hold | rfl
    · exact hlt.le.trans (h.2 hold)
    · exact le_refl x
  · rename_i hlt
    refine ⟨(hmem m).mpr (.inl h.1), fun x hx => ?_⟩
    rcases (hmem x).mp hx with hold | rfl
    · exact h.2 hold
    · exact not_lt.mp hlt

theorem isGreatest_concat (h : IsGreatest {x | x ∈ xs} m) (y : α) :
    IsGreatest {x | x ∈ xs ++ [y]} (if y > m then y else m) :=
  isLeast_concat (α := αᵒᵈ) h y

theorem isLeast_seed (seed : α) : IsLeast {x | x ∈ [seed]} seed :=
  ⟨List.mem_singleton_self seed, fun _ hx => (List.mem_singleton.mp hx).ge⟩

theorem isGreatest_seed (seed : α) : IsGreatest {x | x ∈ [seed]} seed := isLeast_seed (α := αᵒᵈ) seed

/-- The least of a seed and samples is the least sample just if some sample is not above the seed. -/
theorem isLeast_cons_iff {seed : α} (h : IsLeast {x | x ∈ seed :: xs} m) :
    IsLeast {x | x ∈ xs} m ↔ ∃ x ∈ xs, x ≤ seed := by
  constructor
  · intro hleast
    exact ⟨m, hleast.1, h.2 List.mem_cons_self⟩
  · rintro ⟨x, hx, hle⟩
    have hlower : ∀ y ∈ xs, m ≤ y := fun y hy => h.2 (List.mem_cons_of_mem _ hy)
    refine ⟨?_, hlower⟩
    rcases List.mem_cons.mp h.1 with hm | hm
    · have hxm : x = m := le_antisymm (hle.trans hm.ge) (hlower x hx)
      exact hxm ▸ hx
    · exact hm

/-- The greatest of a seed and samples is the greatest sample just if some sample is not below the seed. -/
theorem isGreatest_cons_iff {seed : α} (h : IsGreatest {x | x ∈ seed :: xs} m) :
    IsGreatest {x | x ∈ xs} m ↔ ∃ x ∈ xs, seed ≤ x :=
  isLeast_cons_iff (α := αᵒᵈ) h

end

/-! ## Summaries -/

structure Summary (K : Type*) where
  cnt : Int
  sum : K
  min : K
  max : K
  mean : K
  m2 : K

section
variable {K : Type*} [Field K] [LinearOrder K]

/-- One more sample. -/
def Summary.add (scale : K) (s : Summary K) (x : K) : Summary K :=
  let cnt := s.cnt + 1
  let vd := x * scale - s.mean
  let mean := s.mean + vd / cnt
  { cnt
    sum := s.sum + x
    min := if x < s.min then x else s.min
    max := if x > s.max then x else s.max
    mean
    m2 := s.m2 + vd * (x * scale - mean) }

/-- The samples whose sum, whose extremes (seeds included) and whose mean and deviations a summary has. -/
structure Summary.Of (scale : K) (s : Summary K) (summed lows highs measured : List K) (excess : K) : Prop where
  cnt : s.cnt = measured.length
  sum : s.sum = summed.sum
  min : IsLeast {x | x ∈ lows} s.min
  max : IsGreatest {x | x ∈ highs} s.max
  mean : s.mean = Running.mean (measured.map (· * scale))
  m2 : s.m2 = deviation (Running.mean (measured.map (· * scale))) (measured.map (· * scale)) + excess

/-- The statistics of the samples. -/
structure Summary.Right (scale : K) (s : Summary K) (xs : List K) : Prop where
  cnt : s.cnt = xs.length
  sum : s.sum = xs.sum
  min : IsLeast {x | x ∈ xs} s.min
  max : IsGreatest {x | x ∈ xs} s.max
  mean : s.mean = Running.mean (xs.map (· * scale))
  m2 : s.m2 = deviation (Running.mean (xs.map (· * scale))) (xs.map (· * scale))

variable {scale : K} {s : Summary K} {summed lows highs measured : List K} {excess : K}

/-- A summary that starts with seeds for its extremes. -/
theorem Summary.Of.seeded (low high : K) : Summary.Of scale ⟨0, 0, low, high, 0, 0⟩ [] [low] [high] [] 0 where
  cnt := rfl
  sum := rfl
  min := isLeast_seed low
  max := isGreatest_seed high
  mean := mean_nil.symm
  m2 := (add_zero _).symm

theorem Summary.Of.add [CharZero K] (h : s.Of scale summed lows highs measured excess) (x : K) :
    (s.add scale x).Of scale (summed ++ [x]) (lows ++ [x]) (highs ++ [x]) (measured ++ [x]) excess := by
  have hcnt : ((s.cnt + 1 : Int) : K) = (measured.map (· * scale)).length + 1 := by
    rw [h.cnt, List.length_map, Int.cast_add, Int.cast_natCast, Int.cast_one]
  have hmean : s.mean + (x * scale - s.mean) / (s.cnt + 1 : Int) =
      Running.mean ((measured ++ [x]).map (· * scale)) := by
    rw [h.mean, hcnt, List.map_append, List.map_singleton, mean_concat]
  refine ⟨?_, ?_, isLeast_concat h.min x, isGreatest_concat h.max x, hmean, ?_⟩
  · simp [Summary.add, h.cnt]
  · rw [Summary.add, h.sum, List.sum_append, List.sum_singleton]
  · simp only [Summary.add]
    rw [hmean, h.m2, h.mean, List.map_append, List.map_singleton, deviation_concat]
    ring

/-- More samples. -/
theorem Summary.Of.foldl [CharZero K] (h : s.Of scale summed lows highs measured excess) (xs : List K) :
    (xs.foldl (Summary.add scale) s).Of scale (summed ++ xs) (lows ++ xs) (highs ++ xs) (measured ++ xs) excess := by
  induction xs generalizing s summed lows highs measured with
  | nil => simpa only [List.append_nil, List.foldl_nil] using h
  | cons x xs ih => simpa only [List.append_assoc, List.singleton_append, List.foldl_cons] using ih (h.add x)

/-- A summary with seeded extremes and an excess is right just if the seeds do not matter and the excess is zero. -/
theorem Summary.Of.right_iff {xs : List K} (h : s.Of scale xs lows highs xs excess) :
    s.Right scale xs ↔ IsLeast {x | x ∈ xs} s.min ∧ IsGreatest {x | x ∈ xs} s.max ∧ excess = 0 := by
  constructor
  · intro hright
    exact ⟨hright.min, hright.max, left_eq_add.mp (hright.m2.symm.trans h.m2)⟩
  · rintro ⟨hmin, hmax, rfl⟩
    exact ⟨h.cnt, h.sum, hmin, hmax, h.mean, h.m2.trans (add_zero _)⟩

end

end Running
