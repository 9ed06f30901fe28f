import Mathlib.Algebra.Order.Floor.Ring
import Mathlib.Algebra.Order.Field.Basic
import Mathlib.Tactic.FieldSimp
import Mathlib.Tactic.Linarith
import Mathlib.Tactic.Ring

/-!
# Numbers in two words

A number is cut into its whole part and the units of its fraction, both rounded toward zero, and joined again. The two
parts have the sign of the number, and words without a sign lose it.

* `join_close` : the parts joined differ from the number by less than a unit;
* `wrapped_close_iff` : so they do as words without a sign, if and only if the number is not a unit or more below zero.
-/

namespace FixedPoint

variable {α : Type*} [Field α] [LinearOrder α] [FloorRing α]

/-- Rounding toward zero. -/
def toward (q : α) : ℤ := if q < 0 then ⌈q⌉ else ⌊q⌋

/-- The units of the fraction. -/
def fraction (scale : ℕ) (q : α) : ℤ := toward ((q - toward q) * scale)

/-- A whole part and units of a fraction. -/
def join (scale : ℕ) (whole units : ℤ) : α := whole + units / scale

/-- The number that is read of two words without a sign. -/
def wrapped (width scale : ℕ) (q : α) : α :=
  join scale (toward q % 2 ^ width) (fraction scale q % 2 ^ width)

variable {q : α} {scale width : ℕ}

theorem toward_of_nonneg (h : 0 ≤ q) : 0 ≤ toward q ∧ (toward q : α) ≤ q ∧ q < toward q + 1 := by
  rw [toward, if_neg (not_lt.mpr h)]
  exact ⟨Int.floor_nonneg.mpr h, Int.floor_le q, Int.lt_floor_add_one q⟩

/-- A negative part as a word. -/
theorem emod_of_neg {n : ℤ} (hneg : n < 0) (hlow : -2 ^ width ≤ n) : n % 2 ^ width = n + 2 ^ width := by
  rw [← Int.add_emod_right, Int.emod_eq_of_lt] <;> omega

variable [IsStrictOrderedRing α]

theorem toward_of_nonpos (h : q ≤ 0) : toward q ≤ 0 ∧ q ≤ toward q ∧ (toward q : α) < q + 1 := by
  rcases h.lt_or_eq with hneg | rfl
  · rw [toward, if_pos hneg]
    refine ⟨?_, Int.le_ceil q, Int.ceil_lt_add_one q⟩
    apply Int.ceil_le.mpr
    exact_mod_cast h
  · rw [toward, if_neg (lt_irrefl 0), Int.floor_zero]
    simp

theorem abs_toward_sub_lt (q : α) : |(toward q : α) - q| < 1 := by
  rw [abs_lt]
  rcases le_total 0 q with h | h
  · obtain ⟨-, hlow, hhigh⟩ := toward_of_nonneg h
    constructor <;> linarith
  · obtain ⟨-, hlow, hhigh⟩ := toward_of_nonpos h
    constructor <;> linarith

/-- The fraction has the sign of the number, and less than a whole. -/
theorem fraction_of_nonneg (hscale : 0 < scale) (h : 0 ≤ q) : 0 ≤ fraction scale q ∧ fraction scale q < scale := by
  have hpos : (0 : α) < scale := Nat.cast_pos.mpr hscale
  obtain ⟨-, hlow, hhigh⟩ := toward_of_nonneg h
  obtain ⟨hnonneg, hle, -⟩ := toward_of_nonneg (mul_nonneg (sub_nonneg.mpr hlow) hpos.le)
  have hlt : (q - toward q) * scale < 1 * scale := mul_lt_mul_of_pos_right (sub_lt_iff_lt_add'.mpr hhigh) hpos
  refine ⟨hnonneg, ?_⟩
  have hcast : ((fraction scale q : ℤ) : α) < ((scale : ℤ) : α) := by
    rw [Int.cast_natCast, ← one_mul (scale : α)]
    exact hle.trans_lt hlt
  exact Int.cast_lt.mp hcast

theorem fraction_of_nonpos (hscale : 0 < scale) (h : q ≤ 0) : -(scale : ℤ) < fraction scale q ∧ fraction scale q ≤ 0 := by
  have hpos : (0 : α) < scale := Nat.cast_pos.mpr hscale
  obtain ⟨-, hlow, hhigh⟩ := toward_of_nonpos h
  obtain ⟨hnonpos, hle, -⟩ := toward_of_nonpos (mul_nonpos_of_nonpos_of_nonneg (sub_nonpos.mpr hlow) hpos.le)
  have hlt : -1 * (scale : α) < (q - toward q) * scale := mul_lt_mul_of_pos_right (by linarith) hpos
  refine ⟨?_, hnonpos⟩
  have hcast : ((-(scale : ℤ) : ℤ) : α) < ((fraction scale q : ℤ) : α) := by
    rw [Int.cast_neg, Int.cast_natCast, ← neg_one_mul (scale : α)]
    exact hlt.trans_le hle
  exact Int.cast_lt.mp hcast

/-- A join is close to a number if the units are those of its fraction. -/
theorem join_close_iff (hscale : 0 < scale) (n u : ℤ) (q : α) :
    |join scale n u - q| < 1 / scale ↔ |u - (q - n) * scale| < 1 := by
  have hpos : (0 : α) < scale := Nat.cast_pos.mpr hscale
  have hdiff : join scale n u - q = (u - (q - n) * scale) / scale := by
    rw [join]
    field_simp
    ring
  rw [hdiff, abs_div, abs_of_pos hpos]
  exact div_lt_div_iff_of_pos_right hpos

/-- **The parts joined** differ from the number by less than a unit. -/
theorem join_close (hscale : 0 < scale) (q : α) : |join scale (toward q) (fraction scale q) - q| < 1 / scale := by
  rw [join_close_iff hscale]
  exact abs_toward_sub_lt _

/-- A number whose parts fit the words. -/
theorem wrapped_of_nonneg (hscale : 0 < scale) (hwidth : scale ≤ 2 ^ width) (h : 0 ≤ q) (hhigh : q < 2 ^ width) :
    wrapped width scale q = join scale (toward q) (fraction scale q) := by
  obtain ⟨hnonneg, hle, -⟩ := toward_of_nonneg h
  obtain ⟨hunits, hless⟩ := fraction_of_nonneg hscale h
  have hfits : toward q < 2 ^ width := by
    have hcast : ((toward q : ℤ) : α) < ((2 ^ width : ℤ) : α) := by
      push_cast
      exact hle.trans_lt hhigh
    exact Int.cast_lt.mp hcast
  have hscale' : (scale : ℤ) ≤ 2 ^ width := by
    exact_mod_cast hwidth
  rw [wrapped, Int.emod_eq_of_lt hnonneg hfits, Int.emod_eq_of_lt hunits (hless.trans_le hscale')]

/-- A negative whole part is read as the greatest there are. -/
theorem wrapped_of_toward_neg (hscale : 0 < scale) (hneg : toward q < 0) (hlow : -2 ^ width < q) :
    1 / scale ≤ wrapped width scale q - q ∧ q * scale ≤ -1 := by
  have hpos : (0 : α) < scale := Nat.cast_pos.mpr hscale
  have hone : (1 : α) ≤ scale := Nat.one_le_cast.mpr hscale
  have hmax : (1 : α) ≤ 2 ^ width := one_le_pow₀ one_le_two
  have hq : q ≤ 0 := by
    by_contra h
    exact absurd (toward_of_nonneg (not_le.mp h).le).1 (not_le.mpr hneg)
  obtain ⟨-, hqt, -⟩ := toward_of_nonpos hq
  have hwhole : toward q % 2 ^ width = toward q + 2 ^ width := by
    apply emod_of_neg hneg
    have hcast : ((-2 ^ width : ℤ) : α) ≤ ((toward q : ℤ) : α) := by
      push_cast
      exact hlow.le.trans hqt
    exact Int.cast_le.mp hcast
  have hunits : (0 : α) ≤ ((fraction scale q % 2 ^ width : ℤ) : α) / scale := by
    apply div_nonneg _ hpos.le
    exact_mod_cast Int.emod_nonneg _ (by positivity)
  have hminus : (toward q : α) ≤ -1 := by
    have : toward q ≤ -1 := by omega
    exact_mod_cast this
  constructor
  · rw [wrapped, join, hwhole]
    push_cast
    have hle : 1 / (scale : α) ≤ 1 := (div_le_one hpos).mpr hone
    linarith
  · have hle : q * scale ≤ -1 * scale := mul_le_mul_of_nonneg_right (hqt.trans hminus) hpos.le
    linarith

/-- So are the units of a negative fraction; without any the number reads as zero. -/
theorem wrapped_of_toward_zero (hscale : 0 < scale) (hwidth : scale ≤ 2 ^ width) (h : q ≤ 0) (hzero : toward q = 0) :
    (wrapped width scale q = 0 ∧ -1 < q * scale) ∨ (1 / scale ≤ wrapped width scale q - q ∧ q * scale ≤ -1) := by
  have hpos : (0 : α) < scale := Nat.cast_pos.mpr hscale
  have hfraction : fraction scale q = toward (q * scale) := by
    rw [fraction, hzero, Int.cast_zero, sub_zero]
  obtain ⟨hunits, hcut, hcut'⟩ := toward_of_nonpos (mul_nonpos_of_nonpos_of_nonneg h hpos.le)
  obtain ⟨hlow, -⟩ := fraction_of_nonpos hscale h
  rw [wrapped, hzero, hfraction]
  rw [hfraction] at hlow
  rcases hunits.lt_or_eq with hneg | hnone
  · right
    have hword : toward (q * scale) % 2 ^ width = toward (q * scale) + 2 ^ width := by
      apply emod_of_neg hneg
      have : (scale : ℤ) ≤ 2 ^ width := by
        exact_mod_cast hwidth
      omega
    have hminus : (toward (q * scale) : α) ≤ -1 := by
      have : toward (q * scale) ≤ -1 := by omega
      exact_mod_cast this
    have hmax : (1 : α) ≤ 2 ^ width := one_le_pow₀ one_le_two
    constructor
    · rw [hword, join, Int.zero_emod, Int.cast_zero, zero_add, div_le_iff₀ hpos, sub_mul, div_mul_cancel₀ _ hpos.ne']
      push_cast
      linarith
    · exact hcut.trans hminus
  · left
    rw [hnone, Int.cast_zero] at hcut'
    rw [hnone, join]
    constructor
    · simp
    · linarith

/-- A negative number reads as zero if both parts are zero, and is far away otherwise. -/
theorem wrapped_of_neg (hscale : 0 < scale) (hwidth : scale ≤ 2 ^ width) (h : q < 0) (hlow : -2 ^ width < q) :
    (wrapped width scale q = 0 ∧ -1 < q * scale) ∨ (1 / scale ≤ wrapped width scale q - q ∧ q * scale ≤ -1) := by
  obtain ⟨hwhole, -, -⟩ := toward_of_nonpos h.le
  rcases hwhole.lt_or_eq with hneg | hzero
  · exact .inr (wrapped_of_toward_neg hscale hneg hlow)
  · exact wrapped_of_toward_zero hscale hwidth h.le hzero

/-- **Words without a sign**: they are close to a number that is less than a unit below zero, and to no other negative
one. -/
theorem wrapped_close_iff (hscale : 0 < scale) (hwidth : scale ≤ 2 ^ width) (hlow : -2 ^ width < q)
    (hhigh : q < 2 ^ width) : |wrapped width scale q - q| < 1 / scale ↔ -(1 / scale) < q := by
  have hpos : (0 : α) < scale := Nat.cast_pos.mpr hscale
  have hunit : (0 : α) < 1 / scale := one_div_pos.mpr hpos
  rcases le_or_gt 0 q with h | h
  · rw [wrapped_of_nonneg hscale hwidth h hhigh]
    exact iff_of_true (join_close hscale q) (by linarith)
  · have hscaled : -(1 / (scale : α)) < q ↔ -1 < q * scale := by
      rw [← neg_div, div_lt_iff₀ hpos]
    rw [hscaled]
    rcases wrapped_of_neg hscale hwidth h hlow with ⟨hzero, hnear⟩ | ⟨hfar, hbelow⟩
    · rw [hzero, zero_sub, abs_neg, abs_of_neg h, lt_div_iff₀ hpos]
      constructor
      · intro _
        exact hnear
      · intro _
        linarith
    · refine iff_of_false ?_ (not_lt.mpr hbelow)
      rw [not_lt]
      exact hfar.trans (le_abs_self _)

end FixedPoint
