import Iperf2.Lib.Bytes
import Iperf2.Lib.OnesComplement

/-!
# The UDP checksum of a raw socket

`udpchecksum` of `checksums.c`, by which the server finds bad packets when it reads its frames from a raw socket. The code
adds the words of the packet as a little-endian host reads them, in 32 bits, and folds the carries in at the end. RFC 768
and RFC 8200 say what is right in terms of the words in network byte order and a checksum field of zero.

* `udpsum`, `foldSum`, `udpchecksum` : the code; `udpsum_toNat` : its sum as a number;
* `littleSum`, `bigSum` : the sum of a packet in the two byte orders (`littleSum_modEq`);
* `pseudoHeader`, `udpCheck`, `Acceptable` : the standards;
* `udpchecksum_exact` : the code accepts what they do.
-/

namespace Iperf2.Traffic
open OnesComplement

def IPV4SRCOFFSET : Nat := 12
def IPV6SRCOFFSET : Nat := 8
def IPV6SIZE : Nat := 8
def IPV4SIZE : Nat := 2
def UDPPROTO : BitVec 16 := 17

/-! ## The code -/

/-- `for (i = 0; i < n; i++) sum += *data++` -/
def sumWords (data : Buf) : Nat → Nat → BitVec 32 → BitVec 32
  | _, 0, sum => sum
  | o, n + 1, sum => sumWords data (o + 2) n (sum + (data.le16 o).setWidth 32)

/-- The UDP header and the payload, with a byte that is left over. -/
def sumDatagram (data : Buf) : Nat → Nat → BitVec 32 → BitVec 32
  | o, udplen + 2, sum => sumDatagram data (o + 2) udplen (sum + (data.le16 o).setWidth 32)
  | o, 1, sum => sum + (data o).setWidth 32
  | _, 0, sum => sum

def udpsum (l3pdu l4pdu : Buf) (udplen : Nat) (v6 : Bool) : BitVec 32 :=
  let sum := if v6 then sumWords l3pdu IPV6SRCOFFSET (2 * IPV6SIZE) 0 else sumWords l3pdu IPV4SRCOFFSET (2 * IPV4SIZE) 0
  let sum := sum + (Endian.little.htons UDPPROTO).setWidth 32
  let sum := sum + (Endian.little.htons (BitVec.ofNat 16 udplen)).setWidth 32
  sumDatagram l4pdu 0 udplen sum

/-- `while (sum >> 16) sum = (sum & 0xffff) + (sum >> 16)`, for at most `fuel` rounds. -/
def foldSum : Nat → BitVec 32 → Option (BitVec 32)
  | 0, _ => none
  | fuel + 1, sum => if sum >>> 16 = 0 then some sum else foldSum fuel ((sum &&& 0xffff#32) + (sum >>> 16))

/-- `none` when the loop has not ended. -/
def udpchecksum (fuel : Nat) (l3pdu l4pdu : Buf) (udplen : Nat) (v6 : Bool) : Option (BitVec 32) :=
  if l4pdu.le16 6 = 0 then
    -- v6 requires checksums, v4 checksums are optional
    if v6 then some (-1) else some 0
  else (foldSum fuel (udpsum l3pdu l4pdu udplen v6)).map (· ^^^ 0xffff#32)

/-! ## The standards -/

/-- The words of a packet, with a zero byte after an odd one. -/
def words : List Byte → List (BitVec 16)
  | b :: c :: bs => (b ++ c) :: words bs
  | [b] => [b ++ (0 : Byte)]
  | [] => []

/-- The addresses, the protocol and the length. -/
def pseudoHeader (l3pdu : Buf) (udplen : Nat) (v6 : Bool) : List Byte :=
  if v6 then l3pdu.window IPV6SRCOFFSET 32 ++ bytes32 (BitVec.ofNat 32 udplen) ++ [0, 0, 0, 17]
  else l3pdu.window IPV4SRCOFFSET 8 ++ [0, 17] ++ bytes16 (BitVec.ofNat 16 udplen)

/-- The checksum that a sender puts into the header: that of the packet with a checksum field of zero. -/
def udpCheck (l3pdu l4pdu : Buf) (udplen : Nat) (v6 : Bool) : BitVec 16 :=
  let datagram := l4pdu.window 0 6 ++ [0, 0] ++ l4pdu.window 8 (udplen - 8)
  checksum (sum (words (pseudoHeader l3pdu udplen v6 ++ datagram)))

/-- In IPv4 a checksum of zero says that there is none, in IPv6 it is not allowed. -/
def Acceptable (l3pdu l4pdu : Buf) (udplen : Nat) (v6 : Bool) : Prop :=
  let check := l4pdu.be16 6
  if v6 then check ≠ 0 ∧ check = udpCheck l3pdu l4pdu udplen v6
  else check = 0 ∨ check = udpCheck l3pdu l4pdu udplen v6

instance (l3pdu l4pdu : Buf) (udplen : Nat) (v6 : Bool) : Decidable (Acceptable l3pdu l4pdu udplen v6) :=
  inferInstanceAs (Decidable (if v6 then _ else _))

/-! ## Sums of bytes -/

/-- The sum of the words of a packet in network byte order. -/
def bigSum (bs : List Byte) : Nat := ((words bs).map BitVec.toNat).sum

/-- The sum of the words of a packet in the byte order of the host. -/
def littleSum : List Byte → Nat
  | b :: c :: bs => c.toNat * 2 ^ 8 + b.toNat + littleSum bs
  | [b] => b.toNat
  | [] => 0

/-- The byte order changes a sum by a factor. -/
theorem littleSum_modEq (bs : List Byte) : littleSum bs ≡ 2 ^ 8 * bigSum bs [MOD 2 ^ (2 * 8) - 1] := by
  induction bs using littleSum.induct with
  | case1 b c bs ih =>
    have hsum : bigSum (b :: c :: bs) = b.toNat * 2 ^ 8 + c.toNat + bigSum bs := by
      rw [← append_toNat]
      rfl
    rw [littleSum, hsum, Nat.mul_add]
    exact (swap_modEq b.toNat c.toNat).add ih
  | case2 b =>
    have hsum : bigSum [b] = b.toNat * 2 ^ 8 + 0 := append_toNat b (0 : Byte)
    have hlittle : littleSum [b] = 0 * 2 ^ 8 + b.toNat := by
      rw [littleSum]
      omega
    rw [hlittle, hsum]
    exact swap_modEq b.toNat 0
  | case3 => rfl

theorem words_append {bs : List Byte} (h : bs.length % 2 = 0) (cs : List Byte) : words (bs ++ cs) = words bs ++ words cs := by
  induction bs using littleSum.induct with
  | case1 b c bs ih =>
    have hbs : bs.length % 2 = 0 := by
      rw [List.length_cons, List.length_cons] at h
      omega
    show (b ++ c) :: words (bs ++ cs) = (b ++ c) :: (words bs ++ words cs)
    rw [ih hbs]
  | case2 b => exact absurd h Nat.one_ne_zero
  | case3 => rfl

theorem bigSum_append {bs : List Byte} (h : bs.length % 2 = 0) (cs : List Byte) :
    bigSum (bs ++ cs) = bigSum bs + bigSum cs := by
  unfold bigSum
  rw [words_append h, List.map_append, List.sum_append]

theorem littleSum_append {bs : List Byte} (h : bs.length % 2 = 0) (cs : List Byte) :
    littleSum (bs ++ cs) = littleSum bs + littleSum cs := by
  induction bs using littleSum.induct with
  | case1 b c bs ih =>
    have hbs : bs.length % 2 = 0 := by
      rw [List.length_cons, List.length_cons] at h
      omega
    show c.toNat * 2 ^ 8 + b.toNat + littleSum (bs ++ cs) = c.toNat * 2 ^ 8 + b.toNat + littleSum bs + littleSum cs
    rw [ih hbs, Nat.add_assoc (_ + _)]
  | case2 b => exact absurd h Nat.one_ne_zero
  | case3 => rw [List.nil_append, littleSum, Nat.zero_add]

theorem littleSum_le (bs : List Byte) : littleSum bs ≤ 65535 * ((bs.length + 1) / 2) := by
  induction bs using littleSum.induct with
  | case1 b c bs ih =>
    have hb := b.isLt
    have hc := c.isLt
    rw [littleSum, List.length_cons, List.length_cons]
    omega
  | case2 b =>
    have hb := b.isLt
    rw [littleSum, List.length_singleton]
    omega
  | case3 => exact Nat.zero_le _

/-! ## The sum of the code -/

theorem le16_toNat (data : Buf) (o : Nat) :
    ((data.le16 o).setWidth 32).toNat = (data (o + 1)).toNat * 2 ^ 8 + (data o).toNat := by
  have hlt := (data.le16 o).isLt
  rw [BitVec.toNat_setWidth, Nat.mod_eq_of_lt (by omega)]
  exact append_toNat _ _

theorem le16_eq_zero_iff (data : Buf) (o : Nat) : data.le16 o = 0 ↔ data.be16 o = 0 := by
  have hle : (data.le16 o).toNat = (data (o + 1)).toNat * 2 ^ 8 + (data o).toNat := append_toNat _ _
  have hbe : (data.be16 o).toNat = (data o).toNat * 2 ^ 8 + (data (o + 1)).toNat := append_toNat _ _
  rw [← BitVec.toNat_inj, ← BitVec.toNat_inj, hle, hbe, BitVec.ofNat_eq_ofNat, BitVec.toNat_zero]
  omega

theorem sumWords_toNat (data : Buf) (o n : Nat) (sum : BitVec 32)
    (h : sum.toNat + littleSum (data.window o (2 * n)) < 2 ^ 32) :
    (sumWords data o n sum).toNat = sum.toNat + littleSum (data.window o (2 * n)) := by
  induction n generalizing o sum with
  | zero => rfl
  | succ n ih =>
    have hwindow : data.window o (2 * (n + 1)) = data o :: data (o + 1) :: data.window (o + 2) (2 * n) := by
      rw [Nat.mul_succ, Buf.window_cons, Buf.window_cons]
    rw [hwindow, littleSum, ← le16_toNat] at h ⊢
    have hsum : (sum + (data.le16 o).setWidth 32).toNat = sum.toNat + ((data.le16 o).setWidth 32).toNat := by
      rw [BitVec.toNat_add, Nat.mod_eq_of_lt (by omega)]
    rw [sumWords, ih _ _ (by omega), hsum, Nat.add_assoc]

theorem sumDatagram_toNat (data : Buf) (o udplen : Nat) (sum : BitVec 32)
    (h : sum.toNat + littleSum (data.window o udplen) < 2 ^ 32) :
    (sumDatagram data o udplen sum).toNat = sum.toNat + littleSum (data.window o udplen) := by
  induction o, udplen, sum using sumDatagram.induct data with
  | case1 o udplen sum ih =>
    have hwindow : data.window o (udplen + 2) = data o :: data (o + 1) :: data.window (o + 2) udplen := by
      rw [Buf.window_cons, Buf.window_cons]
    rw [hwindow, littleSum, ← le16_toNat] at h ⊢
    have hsum : (sum + (data.le16 o).setWidth 32).toNat = sum.toNat + ((data.le16 o).setWidth 32).toNat := by
      rw [BitVec.toNat_add, Nat.mod_eq_of_lt (by omega)]
    rw [hsum] at ih
    rw [sumDatagram, ih (by omega), Nat.add_assoc]
  | case2 o sum =>
    have hwindow : littleSum (data.window o 1) = (data o).toNat := rfl
    have hbyte := (data o).isLt
    rw [hwindow] at h ⊢
    rw [sumDatagram, BitVec.toNat_add, BitVec.toNat_setWidth, Nat.mod_eq_of_lt (a := (data o).toNat) (by omega),
      Nat.mod_eq_of_lt h]
  | case3 o sum => rfl

theorem htons_toNat (v : BitVec 16) : ((Endian.little.htons v).setWidth 32).toNat = littleSum (bytes16 v) := by
  have hlt := (Endian.little.htons v).isLt
  rw [BitVec.toNat_setWidth, Nat.mod_eq_of_lt (by omega), bytes16, littleSum, littleSum, Nat.add_zero]
  exact append_toNat (v.extractLsb' 0 8) (v.extractLsb' 8 8)

/-- A length below 2^16 in the IPv6 pseudo header. -/
theorem bytes32_ofNat {n : Nat} (h : n < 2 ^ 16) : bytes32 (BitVec.ofNat 32 n) = [0, 0] ++ bytes16 (BitVec.ofNat 16 n) := by
  have hbyte : ∀ s, (BitVec.ofNat 32 n).extractLsb' s 8 = BitVec.ofNat 8 (n / 2 ^ s) := by
    intro s
    apply BitVec.eq_of_toNat_eq
    rw [BitVec.extractLsb'_toNat, BitVec.toNat_ofNat, BitVec.toNat_ofNat, Nat.shiftRight_eq_div_pow,
      Nat.mod_eq_of_lt (a := n) (by omega)]
  have hbyte' : ∀ s, (BitVec.ofNat 16 n).extractLsb' s 8 = BitVec.ofNat 8 (n / 2 ^ s) := by
    intro s
    apply BitVec.eq_of_toNat_eq
    rw [BitVec.extractLsb'_toNat, BitVec.toNat_ofNat, BitVec.toNat_ofNat, Nat.shiftRight_eq_div_pow, Nat.mod_eq_of_lt h]
  have h24 : n / 2 ^ 24 = 0 := Nat.div_eq_of_lt (by omega)
  have h16 : n / 2 ^ 16 = 0 := Nat.div_eq_of_lt h
  unfold bytes32 bytes16
  rw [hbyte, hbyte, hbyte, hbyte, hbyte', hbyte', h24, h16]
  rfl

section
variable (l3pdu l4pdu : Buf) {udplen : Nat} (v6 : Bool)

theorem pseudoHeader_length (udplen : Nat) : (pseudoHeader l3pdu udplen v6).length = if v6 then 40 else 12 := by
  unfold pseudoHeader
  cases v6
  · rw [if_neg Bool.false_ne_true, List.length_append, List.length_append, Buf.window_length]
    rfl
  · rw [if_pos rfl, List.length_append, List.length_append, Buf.window_length]
    rfl

theorem pseudoHeader_even (udplen : Nat) : (pseudoHeader l3pdu udplen v6).length % 2 = 0 := by
  rw [pseudoHeader_length]
  cases v6 <;> rfl

/-- The pseudo header as the code adds it: protocol and length without the bytes that are zero. -/
theorem littleSum_pseudoHeader (h : udplen < 2 ^ 16) :
    littleSum (pseudoHeader l3pdu udplen v6) =
      littleSum (if v6 then l3pdu.window IPV6SRCOFFSET 32 else l3pdu.window IPV4SRCOFFSET 8) +
        littleSum (bytes16 UDPPROTO) + littleSum (bytes16 (BitVec.ofNat 16 udplen)) := by
  unfold pseudoHeader
  cases v6
  · rw [if_neg Bool.false_ne_true, if_neg Bool.false_ne_true, littleSum_append, littleSum_append]
    · rfl
    · rw [Buf.window_length]
    · rw [List.length_append, Buf.window_length]
      rfl
  · rw [if_pos rfl, if_pos rfl, bytes32_ofNat h, littleSum_append, littleSum_append, littleSum_append rfl]
    · have hproto : littleSum [0, 0, 0, 17] = littleSum (bytes16 UDPPROTO) := by decide
      have hzero : littleSum [(0 : Byte), 0] = 0 := by decide
      rw [hproto, hzero]
      omega
    · rw [Buf.window_length]
    · rw [List.length_append, Buf.window_length]
      show (32 + 4) % 2 = 0
      rfl

theorem littleSum_lt (h : udplen < 2 ^ 16) : littleSum (pseudoHeader l3pdu udplen v6 ++ l4pdu.window 0 udplen) < 2 ^ 32 := by
  have hle := littleSum_le (pseudoHeader l3pdu udplen v6 ++ l4pdu.window 0 udplen)
  rw [List.length_append, Buf.window_length, pseudoHeader_length] at hle
  split at hle <;> omega

/-- No addition of the code overflows: its sum is the sum of the packet. -/
theorem udpsum_toNat (h : udplen < 2 ^ 16) :
    (udpsum l3pdu l4pdu udplen v6).toNat = littleSum (pseudoHeader l3pdu udplen v6 ++ l4pdu.window 0 udplen) := by
  have hlt := littleSum_lt l3pdu l4pdu v6 h
  rw [littleSum_append (pseudoHeader_even l3pdu v6 udplen), littleSum_pseudoHeader l3pdu v6 h] at hlt ⊢
  have haddresses : (if v6 then sumWords l3pdu IPV6SRCOFFSET (2 * IPV6SIZE) 0
      else sumWords l3pdu IPV4SRCOFFSET (2 * IPV4SIZE) 0).toNat =
      littleSum (if v6 then l3pdu.window IPV6SRCOFFSET 32 else l3pdu.window IPV4SRCOFFSET 8) := by
    have hzero : ∀ n, (0 : BitVec 32).toNat + n = n := fun n => Nat.zero_add n
    cases v6
    · refine (sumWords_toNat l3pdu 12 4 0 ?_).trans (hzero _)
      rw [hzero]
      exact Nat.lt_of_le_of_lt (Nat.le_add_right_of_le (Nat.le_add_right_of_le (Nat.le_add_right _ _))) hlt
    · refine (sumWords_toNat l3pdu 8 16 0 ?_).trans (hzero _)
      rw [hzero]
      exact Nat.lt_of_le_of_lt (Nat.le_add_right_of_le (Nat.le_add_right_of_le (Nat.le_add_right _ _))) hlt
  rw [← haddresses, ← htons_toNat, ← htons_toNat] at hlt ⊢
  unfold udpsum
  generalize (if v6 then sumWords l3pdu IPV6SRCOFFSET (2 * IPV6SIZE) 0
      else sumWords l3pdu IPV4SRCOFFSET (2 * IPV4SIZE) 0) = sum at hlt ⊢
  generalize (Endian.little.htons UDPPROTO).setWidth 32 = proto at hlt ⊢
  generalize (Endian.little.htons (BitVec.ofNat 16 udplen)).setWidth 32 = len at hlt ⊢
  have hheader : (sum + proto + len).toNat = sum.toNat + proto.toNat + len.toNat := by
    rw [BitVec.toNat_add, BitVec.toNat_add, Nat.mod_add_mod, Nat.mod_eq_of_lt (by omega)]
  rw [← hheader] at hlt ⊢
  exact sumDatagram_toNat l4pdu 0 udplen _ hlt

end

/-! ## The loop -/

/-- The loop ends with a sum of 16 bits, which is the sum it started from modulo `2^16 - 1`. -/
def Folds (fuel : Nat) (sum : BitVec 32) : Prop :=
  ∃ r, foldSum fuel sum = some r ∧ r.toNat < 2 ^ 16 ∧ r.toNat ≡ sum.toNat [MOD 2 ^ 16 - 1] ∧ (0 < sum.toNat → 0 < r.toNat)

theorem foldSum_next (sum : BitVec 32) : ((sum &&& 0xffff#32) + (sum >>> 16)).toNat = foldStep 16 sum.toNat := by
  have hlt := sum.isLt
  have hlow : (sum &&& 0xffff#32).toNat = sum.toNat % 2 ^ 16 := Nat.and_two_pow_sub_one_eq_mod sum.toNat 16
  rw [BitVec.toNat_add, BitVec.toNat_ushiftRight, hlow, Nat.shiftRight_eq_div_pow, foldStep]
  omega

theorem shift_eq_zero_iff (sum : BitVec 32) : sum >>> 16 = 0 ↔ sum.toNat < 2 ^ 16 := by
  rw [← BitVec.toNat_inj, BitVec.toNat_ushiftRight, Nat.shiftRight_eq_div_pow]
  show sum.toNat / 2 ^ 16 = 0 ↔ _
  omega

/-- One round. -/
theorem folds_succ {fuel : Nat} {sum : BitVec 32}
    (h : 2 ^ 16 ≤ sum.toNat → Folds fuel ((sum &&& 0xffff#32) + (sum >>> 16))) : Folds (fuel + 1) sum := by
  rcases Nat.lt_or_ge sum.toNat (2 ^ 16) with hlt | hge
  · exact ⟨sum, if_pos ((shift_eq_zero_iff sum).mpr hlt), hlt, rfl, id⟩
  · obtain ⟨r, hfold, hr, hmod, hpos⟩ := h hge
    rw [foldSum_next] at hmod hpos
    refine ⟨r, (if_neg ?_).trans hfold, hr, hmod.trans (foldStep_modEq 16 _), fun h => hpos (foldStep_pos h)⟩
    rw [shift_eq_zero_iff]
    omega

/-- Two rounds bring every sum down, and a third one sees it. -/
theorem folds_of_le {fuel : Nat} (h : 3 ≤ fuel) (sum : BitVec 32) : Folds fuel sum := by
  obtain ⟨fuel, rfl⟩ := Nat.exists_eq_add_of_le' h
  have hsum := sum.isLt
  apply folds_succ
  intro _
  apply folds_succ
  intro _
  apply folds_succ
  intro hge
  rw [foldSum_next, foldSum_next] at hge
  unfold foldStep at hge
  omega

/-! ## The standards -/

section
variable (l3pdu l4pdu : Buf) {udplen : Nat} (v6 : Bool)

/-- The sum of the packet is that with a checksum field of zero, and the field. -/
theorem bigSum_datagram (h : 8 ≤ udplen) :
    bigSum (pseudoHeader l3pdu udplen v6 ++ l4pdu.window 0 udplen) =
      bigSum (pseudoHeader l3pdu udplen v6 ++ (l4pdu.window 0 6 ++ [0, 0] ++ l4pdu.window 8 (udplen - 8))) +
        (l4pdu.be16 6).toNat := by
  have hwindow : l4pdu.window 0 udplen =
      l4pdu.window 0 6 ++ [l4pdu 6, l4pdu 7] ++ l4pdu.window 8 (udplen - 8) := by
    have hsplit := Buf.window_append l4pdu 0 (6 + 2) (udplen - 8)
    rw [Buf.window_append l4pdu 0 6 2] at hsplit
    rwa [show 6 + 2 + (udplen - 8) = udplen by omega] at hsplit
  have heven : ∀ b c : Byte, (l4pdu.window 0 6 ++ [b, c]).length % 2 = 0 := by
    intro b c
    rw [List.length_append, Buf.window_length]
    show (6 + 2) % 2 = 0
    rfl
  have hcheck : bigSum [l4pdu 6, l4pdu 7] = (l4pdu.be16 6).toNat := Nat.add_zero _
  have hzero : bigSum [(0 : Byte), 0] = 0 := by decide
  rw [hwindow, bigSum_append (pseudoHeader_even l3pdu v6 udplen), bigSum_append (pseudoHeader_even l3pdu v6 udplen),
    bigSum_append (heven _ _), bigSum_append (heven _ _), bigSum_append (by rw [Buf.window_length]),
    bigSum_append (by rw [Buf.window_length]), hcheck, hzero]
  omega

/-- A field other than zero is the sender's just if the sum of the packet in the byte order of the host is zero. -/
theorem eq_udpCheck_iff (h : 8 ≤ udplen) (hcheck : l4pdu.be16 6 ≠ 0) :
    l4pdu.be16 6 = udpCheck l3pdu l4pdu udplen v6 ↔
      littleSum (pseudoHeader l3pdu udplen v6 ++ l4pdu.window 0 udplen) ≡ 0 [MOD 2 ^ 16 - 1] := by
  have hlittle := littleSum_modEq (pseudoHeader l3pdu udplen v6 ++ l4pdu.window 0 udplen)
  have hfield : (l4pdu.be16 6).toNat + (sum (words (pseudoHeader l3pdu udplen v6 ++
      (l4pdu.window 0 6 ++ [0, 0] ++ l4pdu.window 8 (udplen - 8))))).toNat ≡
      bigSum (pseudoHeader l3pdu udplen v6 ++ l4pdu.window 0 udplen) [MOD 2 ^ 16 - 1] := by
    rw [bigSum_datagram l3pdu l4pdu v6 h, Nat.add_comm]
    exact (sum_modEq _).add_right _
  calc l4pdu.be16 6 = udpCheck l3pdu l4pdu udplen v6
      ↔ _ ≡ 0 [MOD 2 ^ 16 - 1] := eq_checksum_iff hcheck _
    _ ↔ bigSum (pseudoHeader l3pdu udplen v6 ++ l4pdu.window 0 udplen) ≡ 0 [MOD 2 ^ 16 - 1] :=
      ⟨hfield.symm.trans, hfield.trans⟩
    _ ↔ 2 ^ 8 * bigSum (pseudoHeader l3pdu udplen v6 ++ l4pdu.window 0 udplen) ≡ 0 [MOD 2 ^ 16 - 1] :=
      (mul_modEq_zero_iff (k := 8) _).symm
    _ ↔ littleSum (pseudoHeader l3pdu udplen v6 ++ l4pdu.window 0 udplen) ≡ 0 [MOD 2 ^ 16 - 1] :=
      ⟨hlittle.trans, hlittle.symm.trans⟩

theorem littleSum_pos (h : udplen < 2 ^ 16) : 0 < littleSum (pseudoHeader l3pdu udplen v6 ++ l4pdu.window 0 udplen) := by
  have hproto : 0 < littleSum (bytes16 UDPPROTO) := by decide
  rw [littleSum_append (pseudoHeader_even l3pdu v6 udplen), littleSum_pseudoHeader l3pdu v6 h]
  omega

/-- A checksum field other than zero. -/
theorem udpchecksum_of_ne {fuel : Nat} (hfuel : 3 ≤ fuel) (hlow : 8 ≤ udplen) (hhigh : udplen < 2 ^ 16)
    (hcheck : l4pdu.be16 6 ≠ 0) :
    ∃ rc, udpchecksum fuel l3pdu l4pdu udplen v6 = some rc ∧
      (rc = 0 ↔ l4pdu.be16 6 = udpCheck l3pdu l4pdu udplen v6) := by
  have hle : l4pdu.le16 6 ≠ 0 := (le16_eq_zero_iff l4pdu 6).not.mpr hcheck
  obtain ⟨r, hfold, hr, hmod, hpos⟩ := folds_of_le hfuel (udpsum l3pdu l4pdu udplen v6)
  rw [udpsum_toNat l3pdu l4pdu v6 hhigh] at hmod hpos
  refine ⟨r ^^^ 0xffff#32, ?_, ?_⟩
  · rw [udpchecksum, if_neg hle, hfold, Option.map_some]
  · rw [eq_udpCheck_iff l3pdu l4pdu v6 hlow hcheck, BitVec.ofNat_eq_ofNat, BitVec.xor_eq_zero_iff,
      ← BitVec.toNat_inj]
    have hzero : r.toNat = 65535 ↔ r.toNat ≡ 0 [MOD 2 ^ 16 - 1] := by
      have := hpos (littleSum_pos l3pdu l4pdu v6 hhigh)
      rw [Nat.modEq_zero_iff_dvd]
      constructor
      · intro h
        exact ⟨1, h⟩
      · rintro ⟨k, hk⟩
        omega
    exact hzero.trans ⟨hmod.symm.trans, hmod.trans⟩

end

/-- **The UDP checksum.** The sum has room in 32 bits, the loop ends after two rounds, and what is returned is zero just
for an acceptable packet. -/
theorem udpchecksum_exact (l3pdu l4pdu : Buf) (udplen : Nat) (v6 : Bool) (hlow : 8 ≤ udplen) (hhigh : udplen ≤ 65535) :
    (udpsum l3pdu l4pdu udplen v6).toNat = littleSum (pseudoHeader l3pdu udplen v6 ++ l4pdu.window 0 udplen) ∧
      ∀ fuel ≥ 3, ∃ rc, udpchecksum fuel l3pdu l4pdu udplen v6 = some rc ∧
        (rc = 0 ↔ Acceptable l3pdu l4pdu udplen v6) := by
  refine ⟨udpsum_toNat l3pdu l4pdu v6 (by omega), fun fuel hfuel => ?_⟩
  by_cases hcheck : l4pdu.be16 6 = 0
  · rw [udpchecksum, if_pos ((le16_eq_zero_iff l4pdu 6).mpr hcheck)]
    unfold Acceptable
    cases v6
    · exact ⟨0, rfl, by simp [hcheck]⟩
    · exact ⟨-1, rfl, by simp [hcheck]⟩
  · obtain ⟨rc, hrc, hzero⟩ := udpchecksum_of_ne l3pdu l4pdu v6 hfuel hlow (by omega) hcheck
    refine ⟨rc, hrc, hzero.trans ?_⟩
    unfold Acceptable
    cases v6
    · rw [if_neg Bool.false_ne_true, or_iff_right hcheck]
    · rw [if_pos rfl, and_iff_right hcheck]

/-- A header without payload, from and to address zero. -/
theorem udpchecksum_exact_header :
    udpchecksum 3 Buf.zero (Buf.zero.store 4 [0, 8, 0xff, 0xde]) 8 false = some 0 := by
  obtain ⟨-, h⟩ := udpchecksum_exact Buf.zero (Buf.zero.store 4 [0, 8, 0xff, 0xde]) 8 false (by decide) (by decide)
  obtain ⟨rc, hrc, hzero⟩ := h 3 (le_refl 3)
  rw [hrc, hzero.mpr (by decide)]

end Iperf2.Traffic
