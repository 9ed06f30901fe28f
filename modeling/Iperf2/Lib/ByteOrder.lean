import Iperf2.Lib.Bytes

/-!
# Sums of words in network byte order

A little-endian host that adds two words in network byte order carries from their first byte to their last one, against
the order of the digits.

* `Endian.htonl_htonl`, `Endian.htonl_inj` : `htonl` is its own inverse;
* `octet v k` : the digit of weight `256 ^ k`; `eq_iff_octets`, `octet_htonl`;
* `NoCarry v w` : no digit of the sum of `v` and `w` carries;
* `Endian.htonl_add_big`, `Endian.htonl_add_little_iff` : when the sum of the converted words is the converted sum.
-/

namespace Endian

theorem htonl_htonl (host : Endian) (v : BitVec 32) : host.htonl (host.htonl v) = v := by
  apply bytes32_inj.mp
  cases host with
  | little =>
    rw [bytes32_htonl]
    change (bytes32 (Endian.little.htonl v)).reverse = bytes32 v
    rw [bytes32_htonl]
    exact List.reverse_reverse _
  | big => rfl

theorem htonl_inj {host : Endian} {v v' : BitVec 32} : host.htonl v = host.htonl v' ↔ v = v' := by
  constructor
  · intro h
    rw [← host.htonl_htonl v, h, host.htonl_htonl]
  · exact congrArg host.htonl

end Endian

/-! ## Digits -/

/-- The digit of weight `256 ^ k`. -/
def octet (v : BitVec 32) (k : Nat) : Nat := v.toNat / 256 ^ k % 256

theorem octet_lt (v : BitVec 32) (k : Nat) : octet v k < 256 := Nat.mod_lt _ (by decide)

theorem toNat_octets (v : BitVec 32) :
    v.toNat = octet v 3 * 16777216 + octet v 2 * 65536 + octet v 1 * 256 + octet v 0 := by
  have hlt := v.isLt
  unfold octet
  omega

theorem extractLsb'_toNat_octet (v : BitVec 32) (k : Nat) : (v.extractLsb' (8 * k) 8).toNat = octet v k := by
  rw [BitVec.extractLsb'_toNat, Nat.shiftRight_eq_div_pow, Nat.pow_mul]
  rfl

/-- The digits of a word that a little-endian host converts. -/
theorem htonl_little_toNat (v : BitVec 32) : (Endian.little.htonl v).toNat =
    octet v 0 * 16777216 + octet v 1 * 65536 + octet v 2 * 256 + octet v 3 := by
  have h0 := extractLsb'_toNat_octet v 0
  have h1 := extractLsb'_toNat_octet v 1
  have h2 := extractLsb'_toNat_octet v 2
  have h3 := extractLsb'_toNat_octet v 3
  simp only [Nat.mul_zero, Nat.mul_one, Nat.reduceMul] at h0 h1 h2 h3
  unfold Endian.htonl
  rw [append_toNat, append_toNat, append_toNat, h0, h1, h2, h3]
  omega

/-- No digit of the sum carries into the next one, or out of the word. -/
def NoCarry (v w : BitVec 32) : Prop := ∀ k < 4, octet v k + octet w k < 256

instance (v w : BitVec 32) : Decidable (NoCarry v w) := inferInstanceAs (Decidable (∀ k < 4, _))

theorem noCarry_iff (v w : BitVec 32) : NoCarry v w ↔
    octet v 0 + octet w 0 < 256 ∧ octet v 1 + octet w 1 < 256 ∧ octet v 2 + octet w 2 < 256 ∧
      octet v 3 + octet w 3 < 256 := by
  constructor
  · intro h
    exact ⟨h 0 (by decide), h 1 (by decide), h 2 (by decide), h 3 (by decide)⟩
  · rintro ⟨h0, h1, h2, h3⟩ k hk
    obtain rfl | rfl | rfl | rfl : k = 0 ∨ k = 1 ∨ k = 2 ∨ k = 3 := by omega
    · exact h0
    · exact h1
    · exact h2
    · exact h3

theorem noCarry_zero (v : BitVec 32) : NoCarry v 0 := by
  intro k _
  have hzero : octet 0 k = 0 := by
    unfold octet
    simp
  rw [hzero]
  exact octet_lt v k

/-! ## Sums -/

section
variable {x y t c d e e' : Nat}

theorem carry_le (hx : x < 256) (hy : y < 256) (hc : c ≤ 1) (h : x + y + c = t + 256 * e) : e ≤ 1 := by
  omega

/-- The carry into a digit is known from the digits, and then the carry out of it. -/
theorem carry_unique (hc : c ≤ 1) (hd : d ≤ 1) (h : x + y + c = t + 256 * e) (h' : x + y + d = t + 256 * e') :
    c = d ∧ e = e' := by
  omega

end

section
variable {x0 x1 x2 x3 y0 y1 y2 y3 t0 t1 t2 t3 : Nat} (hx0 : x0 < 256) (hx1 : x1 < 256) (hx2 : x2 < 256)
  (hx3 : x3 < 256) (hy0 : y0 < 256) (hy1 : y1 < 256) (hy2 : y2 < 256) (hy3 : y3 < 256) (ht0 : t0 < 256)
  (ht1 : t1 < 256) (ht2 : t2 < 256) (ht3 : t3 < 256)
include ht0 ht1 ht2 ht3

/-- The digits of a sum, by its carries. -/
theorem sum_iff_carries :
    (x3 * 16777216 + x2 * 65536 + x1 * 256 + x0 + (y3 * 16777216 + y2 * 65536 + y1 * 256 + y0)) % 4294967296 =
      t3 * 16777216 + t2 * 65536 + t1 * 256 + t0 ↔
    ∃ c0 c1 c2 c3, x0 + y0 = t0 + 256 * c0 ∧ x1 + y1 + c0 = t1 + 256 * c1 ∧ x2 + y2 + c1 = t2 + 256 * c2 ∧
      x3 + y3 + c2 = t3 + 256 * c3 := by
  constructor
  · intro hsum
    obtain ⟨q, hq⟩ : ∃ q, x3 * 16777216 + x2 * 65536 + x1 * 256 + x0 +
        (y3 * 16777216 + y2 * 65536 + y1 * 256 + y0) =
        t3 * 16777216 + t2 * 65536 + t1 * 256 + t0 + 4294967296 * q := ⟨_, by rw [← hsum, Nat.mod_add_div]⟩
    obtain ⟨c0, hc0⟩ : ∃ c0, x0 + y0 = t0 + 256 * c0 := ⟨(x0 + y0) / 256, by omega⟩
    obtain ⟨c1, hc1⟩ : ∃ c1, x1 + y1 + c0 = t1 + 256 * c1 := ⟨(x1 + y1 + c0) / 256, by omega⟩
    obtain ⟨c2, hc2⟩ : ∃ c2, x2 + y2 + c1 = t2 + 256 * c2 := ⟨(x2 + y2 + c1) / 256, by omega⟩
    exact ⟨c0, c1, c2, q, hc0, hc1, hc2, by omega⟩
  · rintro ⟨c0, c1, c2, c3, hc0, hc1, hc2, hc3⟩
    omega

include hx0 hx1 hx2 hx3 hy0 hy1 hy2 hy3

/-- Digits that are added in both directions give the same digits if and only if there is no carry. -/
theorem reverse_sum_iff
    (hsum : (x3 * 16777216 + x2 * 65536 + x1 * 256 + x0 + (y3 * 16777216 + y2 * 65536 + y1 * 256 + y0)) % 4294967296 =
      t3 * 16777216 + t2 * 65536 + t1 * 256 + t0) :
    (x0 * 16777216 + x1 * 65536 + x2 * 256 + x3 + (y0 * 16777216 + y1 * 65536 + y2 * 256 + y3)) % 4294967296 =
      t0 * 16777216 + t1 * 65536 + t2 * 256 + t3 ↔
    x0 + y0 < 256 ∧ x1 + y1 < 256 ∧ x2 + y2 < 256 ∧ x3 + y3 < 256 := by
  obtain ⟨c0, c1, c2, c3, hc0, hc1, hc2, hc3⟩ := (sum_iff_carries ht0 ht1 ht2 ht3).mp hsum
  rw [sum_iff_carries ht3 ht2 ht1 ht0]
  constructor
  · -- the carries into a digit are the same from both sides, so that they vanish in turn
    rintro ⟨d3, d2, d1, d0, hd3, hd2, hd1, hd0⟩
    have hc0' := carry_le hx0 hy0 (Nat.zero_le 1) hc0
    have hc1' := carry_le hx1 hy1 hc0' hc1
    have hd3' := carry_le hx3 hy3 (Nat.zero_le 1) hd3
    have hd2' := carry_le hx2 hy2 hd3' hd2
    have hd1' := carry_le hx1 hy1 hd2' hd1
    have hc2' := carry_le hx2 hy2 hc1' hc2
    obtain ⟨rfl, rfl⟩ := carry_unique (Nat.zero_le 1) hd1' hc0 hd0
    obtain ⟨rfl, rfl⟩ := carry_unique hc2' (Nat.zero_le 1) hc3 hd3
    obtain ⟨rfl, rfl⟩ := carry_unique hc0' hd2' hc1 hd1
    obtain ⟨rfl, rfl⟩ := carry_unique (Nat.zero_le 1) hd3' hc2 hd2
    clear hsum
    omega
  · rintro ⟨h0, h1, h2, h3⟩
    exact ⟨0, 0, 0, 0, by omega, by omega, by omega, by omega⟩

end

namespace Endian

/-- A big-endian host adds in the order of the digits. -/
theorem htonl_add_big (v w : BitVec 32) : big.htonl (v + big.htonl w) = big.htonl v + w := rfl

theorem htonl_add_little_iff (v w : BitVec 32) :
    little.htonl (v + little.htonl w) = little.htonl v + w ↔ NoCarry (little.htonl v) w := by
  have hswap : little.htonl (v + little.htonl w) = little.htonl v + w ↔
      v + little.htonl w = little.htonl (little.htonl v + w) := by
    rw [← @htonl_inj little, htonl_htonl]
  rw [hswap, noCarry_iff, ← BitVec.toNat_inj]
  generalize hb : little.htonl v = b
  have hv : v = little.htonl b := by rw [← hb, htonl_htonl]
  rw [hv, htonl_little_toNat, BitVec.toNat_add, htonl_little_toNat, htonl_little_toNat]
  refine reverse_sum_iff (octet_lt b 0) (octet_lt b 1) (octet_lt b 2) (octet_lt b 3) (octet_lt w 0) (octet_lt w 1)
    (octet_lt w 2) (octet_lt w 3) (octet_lt _ 0) (octet_lt _ 1) (octet_lt _ 2) (octet_lt _ 3) ?_
  rw [← toNat_octets, ← toNat_octets, ← toNat_octets, BitVec.toNat_add]

end Endian
