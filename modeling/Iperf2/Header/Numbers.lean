import Iperf2.Header.Reads
import Iperf2.Lib.FixedPoint
import Mathlib.Data.Rat.Floor

/-!
# Numbers in the headers

`htonl((long)q)` and `htonl((long)((q - (long)q) * rMillion))` are the two words of a number; the reader joins them as
unsigned numbers.

* `fixedPoint_wrapped` : what is read of the words of a number;
* `fixedPoint_near_iff` : when it is the number, to a millionth.
-/

namespace Iperf2.Header
open Report Decoder FixedPoint

theorem truncate_eq_toward (q : Rat) : truncate q = toward q := by
  unfold truncate toward
  split
  · rw [Rat.ceil_eq_neg_floor_neg]
    rfl
  · rfl

theorem ofInt_toNat (n : Int) : ((BitVec.ofInt 32 n).toNat : Rat) = ((n % 2 ^ 32 : Int) : Rat) := by
  have hnat : ((BitVec.ofInt 32 n).toNat : Int) = n % 2 ^ 32 := by
    rw [BitVec.toNat_ofInt]
    exact Int.toNat_of_nonneg (Int.emod_nonneg n (by decide))
  exact_mod_cast congrArg (Int.cast : Int → Rat) hnat

/-- Words with these numbers. -/
theorem fixedPoint_join {hdr : Buf} {o : Nat} {n u : Int} (hl : hdr.be32 o = BitVec.ofInt 32 n)
    (hu : hdr.be32 (o + 4) = BitVec.ofInt 32 u) :
    (fixedPoint o).run hdr = join 1000000 (n % 2 ^ 32) (u % 2 ^ 32) := by
  show ((hdr.be32 o).toNat : Rat) + (hdr.be32 (o + 4)).toNat / (rMillion : Int) = _
  rw [hl, hu, ofInt_toNat, ofInt_toNat, join]
  norm_num [rMillion]

/-- Words of a number. -/
theorem fixedPoint_wrapped {hdr : Buf} {o : Nat} {q : Rat} (hl : hdr.be32 o = whole q)
    (hu : hdr.be32 (o + 4) = micros q) : (fixedPoint o).run hdr = wrapped 32 1000000 q := by
  rw [fixedPoint_join hl hu, wrapped, truncate_eq_toward, truncate_eq_toward, fraction]
  norm_num [rMillion]

/-- The numbers differ by less than a millionth. -/
def Near (x y : Rat) : Prop := |x - y| < 1 / 1000000

/-- **A number of a header** is near the one that was written if that is not a millionth or more below zero. -/
theorem fixedPoint_near_iff {hdr : Buf} {o : Nat} {q : Rat} (hl : hdr.be32 o = whole q)
    (hu : hdr.be32 (o + 4) = micros q) (hlow : -2 ^ 32 < q) (hhigh : q < 2 ^ 32) :
    Near ((fixedPoint o).run hdr) q ↔ -(1 / 1000000) < q := by
  have hclose : |wrapped 32 1000000 q - q| < 1 / ((1000000 : Nat) : Rat) ↔ -(1 / ((1000000 : Nat) : Rat)) < q :=
    wrapped_close_iff (by decide) (by decide) hlow hhigh
  rw [Near, fixedPoint_wrapped hl hu]
  exact_mod_cast hclose

end Iperf2.Header
