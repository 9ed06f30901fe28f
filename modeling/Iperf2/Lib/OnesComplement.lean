import Mathlib.Data.Nat.ModEq
import Mathlib.Tactic.Ring

/-!
# One's complement sums

Addition of `w`-bit words with an end-around carry is addition modulo `2^w - 1`, apart from the two forms of zero. So it
does not depend on the order of the halves of a word, nor on when the carries are added.

* `add`, `sum`, `checksum` : words (`add_modEq`, `sum_modEq`);
* `eq_checksum_iff` : a word other than zero is the checksum just if the sum with it is zero modulo `2^w - 1`;
* `swap_modEq` : the halves of a word exchanged; `mul_modEq_zero_iff` : the factor of that;
* `foldStep` : the carries of a wide sum added to it.
-/

namespace OnesComplement

variable {w : Nat}

/-- One's complement addition: the carry comes in again at the low end. -/
def add (x y : BitVec w) : BitVec w := if x.toNat + y.toNat < 2 ^ w then x + y else x + y + 1

def sum (ws : List (BitVec w)) : BitVec w := ws.foldl add 0

/-- The complement of a sum, with all ones in place of zero. -/
def checksum (s : BitVec w) : BitVec w := if ~~~s = 0 then ~~~0 else ~~~s

/-! ## Words -/

theorem add_toNat (x y : BitVec w) :
    (add x y).toNat = if x.toNat + y.toNat < 2 ^ w then x.toNat + y.toNat else x.toNat + y.toNat - (2 ^ w - 1) := by
  have hx := x.isLt
  have hy := y.isLt
  unfold add
  split
  · rename_i h
    rw [BitVec.toNat_add, Nat.mod_eq_of_lt h]
  · rename_i h
    have hone : (1 : BitVec w).toNat = 1 % 2 ^ w := BitVec.toNat_ofNat 1 w
    rw [BitVec.toNat_add, BitVec.toNat_add, hone, Nat.add_mod_mod, Nat.mod_add_mod,
      show x.toNat + y.toNat + 1 = x.toNat + y.toNat - (2 ^ w - 1) + 2 ^ w by omega, Nat.add_mod_right,
      Nat.mod_eq_of_lt (by omega)]

theorem add_modEq (x y : BitVec w) : (add x y).toNat ≡ x.toNat + y.toNat [MOD 2 ^ w - 1] := by
  rw [add_toNat]
  split
  · rfl
  · rename_i h
    have hsplit : x.toNat + y.toNat = x.toNat + y.toNat - (2 ^ w - 1) + (2 ^ w - 1) := by omega
    rw [hsplit, Nat.add_sub_cancel]
    exact Nat.add_modEq_right.symm

theorem foldl_add_modEq (ws : List (BitVec w)) (s : BitVec w) :
    (ws.foldl add s).toNat ≡ s.toNat + (ws.map BitVec.toNat).sum [MOD 2 ^ w - 1] := by
  induction ws generalizing s with
  | nil => rfl
  | cons x ws ih =>
    rw [List.foldl_cons, List.map_cons, List.sum_cons, ← Nat.add_assoc]
    exact (ih (add s x)).trans ((add_modEq s x).add_right _)

theorem sum_modEq (ws : List (BitVec w)) : (sum ws).toNat ≡ (ws.map BitVec.toNat).sum [MOD 2 ^ w - 1] := by
  have h := foldl_add_modEq ws 0
  rwa [BitVec.ofNat_eq_ofNat, BitVec.toNat_zero, Nat.zero_add] at h

theorem not_toNat (s : BitVec w) : (~~~s).toNat = 2 ^ w - 1 - s.toNat := BitVec.toNat_not

theorem checksum_toNat (s : BitVec w) :
    (checksum s).toNat = if s.toNat = 2 ^ w - 1 then 2 ^ w - 1 else 2 ^ w - 1 - s.toNat := by
  have hs := s.isLt
  have hzero : ~~~s = 0 ↔ s.toNat = 2 ^ w - 1 := by
    rw [← BitVec.toNat_inj, not_toNat, BitVec.ofNat_eq_ofNat, BitVec.toNat_zero]
    omega
  unfold checksum
  split
  · rename_i h
    rw [if_pos (hzero.mp h), not_toNat, BitVec.ofNat_eq_ofNat, BitVec.toNat_zero, Nat.sub_zero]
  · rename_i h
    rw [if_neg (hzero.not.mp h), not_toNat]

/-- The words that bring a sum to zero. -/
theorem eq_checksum_iff {x : BitVec w} (hx : x ≠ 0) (s : BitVec w) :
    x = checksum s ↔ x.toNat + s.toNat ≡ 0 [MOD 2 ^ w - 1] := by
  have hpos : x.toNat ≠ 0 := fun h => hx (BitVec.eq_of_toNat_eq (by simpa using h))
  have hxlt := x.isLt
  have hslt := s.isLt
  rw [← BitVec.toNat_inj, checksum_toNat, Nat.modEq_zero_iff_dvd]
  constructor
  · intro h
    split at h
    · exact ⟨2, by omega⟩
    · exact ⟨1, by omega⟩
  · rintro ⟨k, hk⟩
    have hk0 : k ≠ 0 := by
      rintro rfl
      omega
    have hk3 : k < 3 := by
      by_contra hge
      have := Nat.mul_le_mul_left (2 ^ w - 1) (Nat.le_of_not_lt hge)
      omega
    obtain rfl | rfl : k = 1 ∨ k = 2 := by omega
    all_goals
      split
      all_goals omega

/-! ## Halves of words -/

theorem two_pow_modEq_one (w : Nat) : 2 ^ w ≡ 1 [MOD 2 ^ w - 1] := Nat.modEq_sub (Nat.one_le_two_pow)

/-- A word with its halves exchanged is the word times `2^k`. -/
theorem swap_modEq {k : Nat} (hi lo : Nat) : lo * 2 ^ k + hi ≡ 2 ^ k * (hi * 2 ^ k + lo) [MOD 2 ^ (2 * k) - 1] := by
  have hfull : 2 ^ k * (hi * 2 ^ k + lo) = lo * 2 ^ k + 2 ^ (2 * k) * hi := by
    rw [Nat.two_mul, pow_add]
    ring
  have hhi : 2 ^ (2 * k) * hi ≡ hi [MOD 2 ^ (2 * k) - 1] := by
    have h := (two_pow_modEq_one (2 * k)).mul_right hi
    rwa [Nat.one_mul] at h
  rw [hfull]
  exact (hhi.symm).add_left _

theorem mul_modEq_zero_iff {k : Nat} (n : Nat) :
    2 ^ k * n ≡ 0 [MOD 2 ^ (2 * k) - 1] ↔ n ≡ 0 [MOD 2 ^ (2 * k) - 1] := by
  constructor
  · intro h
    have hback : 2 ^ (2 * k) * n ≡ 0 [MOD 2 ^ (2 * k) - 1] := by
      have hpow : 2 ^ (2 * k) * n = 2 ^ k * (2 ^ k * n) := by rw [Nat.two_mul, pow_add, Nat.mul_assoc]
      rw [hpow]
      exact h.mul_left (2 ^ k)
    have hone := (two_pow_modEq_one (2 * k)).mul_right n
    rw [Nat.one_mul] at hone
    exact hone.symm.trans hback
  · intro h
    exact h.mul_left (2 ^ k)

/-! ## Carries -/

/-- The part of a sum above `w` bits added to the rest. -/
def foldStep (w n : Nat) : Nat := n % 2 ^ w + n / 2 ^ w

theorem foldStep_modEq (w n : Nat) : foldStep w n ≡ n [MOD 2 ^ w - 1] := by
  have hcarry := (two_pow_modEq_one w).mul_right (n / 2 ^ w)
  rw [Nat.one_mul] at hcarry
  have h := hcarry.symm.add_left (n % 2 ^ w)
  rwa [Nat.mod_add_div] at h

theorem foldStep_pos {w n : Nat} (h : 0 < n) : 0 < foldStep w n := by
  unfold foldStep
  rcases Nat.lt_or_ge n (2 ^ w) with hlt | hge
  · rw [Nat.mod_eq_of_lt hlt]
    exact Nat.add_pos_left h _
  · have := Nat.div_pos hge (Nat.two_pow_pos w)
    omega

end OnesComplement
