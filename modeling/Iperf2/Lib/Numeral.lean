import Mathlib.Data.Nat.Digits.Lemmas
import Mathlib.Data.List.Infix

/-!
# Numerals

The digits of a number in a base, as they are printed, and what a reader makes of them, that multiplies by the base and
adds the next digit.

* `Numeral.digits` : the digits, the first one first; zero has one;
* `Numeral.value` : the reader; `value_digits`, `le_value` (no value on the way is beyond the last one);
* `Numeral.value_lt` : digits read as a number of so many digits;
* `Numeral.mem_lt`, `Numeral.ne_nil`, `Numeral.length_le`.
-/

namespace Numeral

/-- The digits of `n`, as they are printed. -/
def digits (b n : Nat) : List Nat := if n = 0 then [0] else (Nat.digits b n).reverse

/-- A reader that has the value `v` goes on with these digits. -/
def value (b v : Nat) (ds : List Nat) : Nat := ds.foldl (fun v d => v * b + d) v

section
variable {b : Nat}

@[simp] theorem value_nil (v : Nat) : value b v [] = v := rfl

@[simp] theorem value_cons (v d : Nat) (ds : List Nat) : value b v (d :: ds) = value b (v * b + d) ds := rfl

theorem value_reverse (ds : List Nat) : value b 0 ds.reverse = Nat.ofDigits b ds := by
  induction ds with
  | nil => rfl
  | cons d ds ih =>
    rw [List.reverse_cons, value, List.foldl_append]
    change value b (value b 0 ds.reverse) [d] = _
    rw [ih, Nat.ofDigits_cons, value_cons, value_nil, Nat.mul_comm, Nat.add_comm]

/-- What is printed is read back. -/
theorem value_digits (n : Nat) : value b 0 (digits b n) = n := by
  unfold digits
  split
  · rename_i hn
    rw [hn, value_cons, value_nil, Nat.zero_mul]
  · rw [value_reverse, Nat.ofDigits_digits]

/-- A value does not go down. -/
theorem le_value (hb : 0 < b) (v : Nat) (ds : List Nat) : v ≤ value b v ds := by
  induction ds generalizing v with
  | nil => exact Nat.le_refl v
  | cons d ds ih =>
    have hmul : v ≤ v * b := Nat.le_mul_of_pos_right v hb
    have hnext := ih (v * b + d)
    rw [value_cons]
    omega

theorem mem_lt (hb : 1 < b) {n d : Nat} (h : d ∈ digits b n) : d < b := by
  unfold digits at h
  split at h
  · rw [List.mem_singleton.mp h]
    omega
  · exact Nat.digits_lt_base hb (List.mem_reverse.mp h)

theorem ne_nil (n : Nat) : digits b n ≠ [] := by
  unfold digits
  split
  · exact List.cons_ne_nil 0 []
  · rename_i hn
    rw [ne_eq, List.reverse_eq_nil_iff]
    exact Nat.digits_ne_nil_iff_ne_zero.mpr hn

theorem value_lt (hb : 1 < b) {ds : List Nat} (h : ∀ d ∈ ds, d < b) : value b 0 ds < b ^ ds.length := by
  have hlt := Nat.ofDigits_lt_base_pow_length hb fun d hd => h d (List.mem_reverse.mp hd)
  rwa [← value_reverse, List.reverse_reverse, List.length_reverse] at hlt

theorem length_le (hb : 1 < b) {n k : Nat} (hk : 0 < k) (hn : n < b ^ k) : (digits b n).length ≤ k := by
  unfold digits
  split
  · exact hk
  · rw [List.length_reverse]
    exact (Nat.digits_length_le_iff hb n).mpr hn

end

end Numeral
