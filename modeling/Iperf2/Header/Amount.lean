import Iperf2.Header.Apply

/-!
# The length of a test in its header

`-n` and `-t` share one 32-bit field of the header, `mAmount`: `Settings_GenerateClientHdrV1` writes a time as a negative
number and masks the sign bit of an amount, `Settings_ReadClientSettingsV1` takes the sign bit for the mode. The settings
have the length as a 64-bit number.

* `amountWord`, `readAmount` : the field written and read;
* `readAmount_time`, `readAmount_bytes` : what is read of a time and of an amount;
* `amount_round_trip` : the lengths that come back.
-/

namespace Iperf2.Header
open Report Decoder

/-- The field `mAmount` that `Settings_GenerateClientHdrV1` writes. -/
def amountWord (client : ThreadSettings) : BitVec 32 :=
  if client.isModeTime then (-client.mAmount).setWidth 32 else client.mAmount.setWidth 32 &&& 0x7FFFFFFF

/-- The mode and the length that `Settings_ReadClientSettingsV1` makes of the field. -/
def readAmount (word : BitVec 32) : Bool × BitVec 64 :=
  (word &&& 0x80000000 != 0,
    if word &&& 0x80000000 != 0 then -(word.setWidth 64 ||| 0xFFFFFFFF00000000) else word.setWidth 64)

section
variable (client reader : ThreadSettings) (base : Nat) (hdr : Buf)

theorem be32_settingsGenerateClientHdrV1 :
    (settingsGenerateClientHdrV1 client base hdr).be32 (base + 20) = amountWord client :=
  Buf.be32_store _ (base + 20) (amountWord client)

theorem settingsReadClientSettingsV1_readAmount :
    let read := (settingsReadClientSettingsV1 base reader).run hdr
    (read.isModeTime, read.mAmount) = readAmount (hdr.be32 (base + 20)) := rfl

end

/-! ## The sign bit -/

/-- `word & 0x80000000` -/
theorem signBit_iff (word : BitVec 32) : (word &&& 0x80000000 != 0) = decide (2 ^ 31 ≤ word.toNat) := by
  have hbit : (word &&& 0x80000000 != 0) = word.getLsbD 31 := Flags.test_twoPow word 31
  rw [hbit, ← BitVec.msb_eq_getLsbD_last word, BitVec.msb_eq_decide]

/-- A negative number in 32 bits, widened and with its sign changed. -/
theorem neg_signExtend (word : BitVec 32) :
    (-(word.setWidth 64 ||| 0xFFFFFFFF00000000)).toNat = 2 ^ 32 - word.toNat := by
  have hwide : word.setWidth 64 ||| 0xFFFFFFFF00000000 = (0xFFFFFFFF : BitVec 32) ++ word := by
    have hzero : word.setWidth 64 = (0 : BitVec 32) ++ word := by
      apply BitVec.eq_of_toNat_eq
      rw [BitVec.toNat_append, BitVec.toNat_setWidth, Nat.mod_eq_of_lt (word.isLt.trans (by decide))]
      simp
    have hones : (0xFFFFFFFF00000000 : BitVec 64) = (0xFFFFFFFF : BitVec 32) ++ (0 : BitVec 32) := by decide
    rw [hzero, hones, BitVec.or_append]
    simp
  have happend : ((0xFFFFFFFF : BitVec 32) ++ word).toNat = 0xFFFFFFFF * 2 ^ 32 + word.toNat := append_toNat _ word
  rw [hwide, BitVec.toNat_neg, happend]
  have := word.isLt
  omega

/-! ## Times and amounts -/

/-- A time comes back as the negative of the field. -/
theorem readAmount_time {client : ThreadSettings} (htime : client.isModeTime = true) :
    readAmount (amountWord client) = (true, client.mAmount) ↔
      0 < client.mAmount.toNat ∧ client.mAmount.toNat ≤ 2 ^ 31 := by
  have hword : (amountWord client).toNat = (2 ^ 64 - client.mAmount.toNat) % 2 ^ 32 := by
    rw [amountWord, if_pos htime, BitVec.toNat_setWidth, BitVec.toNat_neg, Nat.mod_mod_of_dvd _ (by decide)]
  have hlt := client.mAmount.isLt
  unfold readAmount
  rw [signBit_iff]
  by_cases hsign : 2 ^ 31 ≤ (amountWord client).toNat
  · rw [decide_eq_true hsign, if_pos rfl, Prod.mk.injEq, ← BitVec.toNat_inj, neg_signExtend]
    constructor
    · rintro ⟨-, h⟩
      omega
    · rintro ⟨hpos, hle⟩
      have hsplit : 2 ^ 64 - client.mAmount.toNat = 2 ^ 32 * (2 ^ 32 - 1) + (2 ^ 32 - client.mAmount.toNat) := by omega
      rw [hsplit, Nat.mul_add_mod, Nat.mod_eq_of_lt (by omega)] at hword
      exact ⟨rfl, by omega⟩
  · rw [decide_eq_false hsign, Prod.mk.injEq]
    constructor
    · intro h
      cases h.1
    · intro h
      omega

/-- Of an amount the 31 low bits come back. -/
theorem readAmount_bytes {client : ThreadSettings} (hamount : client.isModeTime = false) :
    readAmount (amountWord client) = (false, client.mAmount) ↔ client.mAmount.toNat < 2 ^ 31 := by
  have hword : (amountWord client).toNat = client.mAmount.toNat % 2 ^ 31 := by
    rw [amountWord, hamount, if_neg Bool.false_ne_true, BitVec.toNat_and, BitVec.toNat_setWidth]
    show client.mAmount.toNat % 2 ^ 32 &&& (2 ^ 31 - 1) = _
    rw [Nat.and_two_pow_sub_one_eq_mod]
    omega
  have hsign : ¬ 2 ^ 31 ≤ (amountWord client).toNat := by omega
  have hwide : ((amountWord client).setWidth 64).toNat = (amountWord client).toNat := by
    rw [BitVec.toNat_setWidth]
    omega
  unfold readAmount
  rw [signBit_iff, decide_eq_false hsign, if_neg Bool.false_ne_true, Prod.mk.injEq, ← BitVec.toNat_inj, hwide, hword]
  simp only [true_and]
  exact Nat.mod_eq_iff_lt (by decide)

/-- **Amount and mode.** The reader of a header has the mode and the length of the client just if a time is one that the
sign bit and 31 bits hold, and an amount has 31 bits. -/
theorem amount_round_trip (client reader : ThreadSettings) (base : Nat) (hdr : Buf) :
    let read := (settingsReadClientSettingsV1 base reader).run (settingsGenerateClientHdrV1 client base hdr)
    (read.isModeTime = client.isModeTime ∧ read.mAmount = client.mAmount) ↔
      if client.isModeTime then 0 < client.mAmount.toNat ∧ client.mAmount.toNat ≤ 2 ^ 31
      else client.mAmount.toNat < 2 ^ 31 := by
  intro read
  have hread : (read.isModeTime, read.mAmount) = readAmount (amountWord client) := by
    rw [← be32_settingsGenerateClientHdrV1 client base hdr]
    exact settingsReadClientSettingsV1_readAmount reader base _
  rw [← Prod.mk.injEq, hread]
  cases htime : client.isModeTime with
  | true => exact readAmount_time htime
  | false => exact readAmount_bytes htime

/-- An amount of 2 Gbytes is read as none, and a time of 249 days as an amount. -/
theorem amount_round_trip_fails :
    let amount : ThreadSettings := { (default : ThreadSettings) with
      isModeTime := false
      mAmount := 0x80000000 }
    let time : ThreadSettings := { (default : ThreadSettings) with mAmount := 249 * 24 * 3600 * 100 }
    let read (client : ThreadSettings) : ThreadSettings :=
      (settingsReadClientSettingsV1 0 default).run (settingsGenerateClientHdrV1 client 0 Buf.zero)
    (read amount).isModeTime = false ∧ (read amount).mAmount = 0 ∧
      (read time).isModeTime = false ∧ (read time).mAmount ≠ time.mAmount := by
  decide +kernel

end Iperf2.Header
