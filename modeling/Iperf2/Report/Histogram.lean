import Iperf2.Report.Init
import Iperf2.Lib.Tally
import Mathlib.Algebra.Order.Field.Basic
import Mathlib.Data.Int.ConditionallyCompleteOrder
import Mathlib.Data.Int.Interval
import Mathlib.Data.Rat.Floor
import Mathlib.Tactic.Linarith

/-!
# The population of a histogram

`histogram_insert` finds the bin of a value as the quotient of its distance from the offset and the bin width, converted
to an `int`. C leaves the conversion open where the quotient is no number or beyond the range of an `int`, so here it is
any function that agrees with rounding toward zero elsewhere (`Conversion`).

* `insert_cases` : what an insertion counts;
* `Clear` : the values whose quotient is converted to the side of both bounds on which the value is;
* `histogram_population_iff` : the counters are right on every platform just if all values are clear.
-/

namespace Iperf2.Report
open Tally

/-! ## Insertion -/

/-- `histogram_init` -/
def histogramNew (bincount binwidth : Int) (offset units : Rat) : Histogram where
  bincount
  binwidth
  offset
  units
  mybins := fun _ => 0
  populationcnt := 0
  cntloweroutofbounds := 0
  cntupperoutofbounds := 0
  maxbin := -1
  fmaxbin := -1
  maxval := 0
  fmaxval := 0
  maxts := ⟨0, 0⟩
  fmaxts := ⟨0, 0⟩
  final := false

theorem histogramInit_eq (inSettings : Settings) :
    histogramInit inSettings =
      histogramNew inSettings.histBins inSettings.histBinsize 0 (10 ^ inSettings.histUnits) := rfl

/-- A conversion of the quotient `x / w` to an `int`. -/
def Conversion (toInt : Rat → Int → Int) : Prop :=
  ∀ x : Rat, ∀ w : Int, w ≠ 0 → -2147483649 < x / w → x / w < 2147483648 → toInt x w = truncate (x / w)

/-- `histogram_insert` with the conversion of a platform. -/
def histogramInsertAs (toInt : Rat → Int → Int) (h : Histogram) (value : Rat) (ts : Option Timeval) : Histogram :=
  let bin := toInt (h.units * (value - h.offset)) h.binwidth
  let h := histogramMax { h with populationcnt := h.populationcnt + 1 } value bin ts
  if bin < 0 then { h with cntloweroutofbounds := h.cntloweroutofbounds + 1 }
  else if bin > int32 h.bincount then { h with cntupperoutofbounds := h.cntupperoutofbounds + 1 }
  else { h with mybins := bump h.mybins bin }

/-- The counters of a histogram. -/
structure Counters where
  population : Nat
  bins : Int → Nat
  lower : Nat
  upper : Nat

def Histogram.counters (h : Histogram) : Counters where
  population := h.populationcnt
  bins := h.mybins
  lower := h.cntloweroutofbounds
  upper := h.cntupperoutofbounds

/-- The bounds of a histogram. -/
structure SameBounds (h h' : Histogram) : Prop where
  bincount : h'.bincount = h.bincount
  binwidth : h'.binwidth = h.binwidth
  offset : h'.offset = h.offset
  units : h'.units = h.units

theorem SameBounds.refl (h : Histogram) : SameBounds h h := ⟨rfl, rfl, rfl, rfl⟩

theorem SameBounds.trans {h h' h'' : Histogram} (hl : SameBounds h h') (hr : SameBounds h' h'') : SameBounds h h'' :=
  ⟨hr.bincount.trans hl.bincount, hr.binwidth.trans hl.binwidth, hr.offset.trans hl.offset, hr.units.trans hl.units⟩

section
variable (toInt : Rat → Int → Int) (h : Histogram) (value : Rat) (ts : Option Timeval)

/-- The maximum is apart from the bounds and the counters. -/
theorem histogramMax_eq (bin : Int) : ∃ maxbin fmaxbin maxval fmaxval maxts fmaxts,
    histogramMax h value bin ts = { h with maxbin, fmaxbin, maxval, fmaxval, maxts, fmaxts } := by
  unfold histogramMax
  cases ts with
  | none => exact ⟨_, _, _, _, _, _, rfl⟩
  | some ts =>
    simp only
    split_ifs
    · exact ⟨_, _, _, _, _, _, rfl⟩
    · exact ⟨_, _, _, _, _, _, rfl⟩
    · exact ⟨_, _, _, _, _, _, rfl⟩

/-- With the exact conversion, and as many bins as an `int` counts, this is the insertion of the reporter's model. -/
theorem histogramInsert_eq (hn : 0 ≤ h.bincount) (hlt : h.bincount < 2147483648) :
    histogramInsert h value ts = histogramInsertAs (fun x w => truncate (x / w)) h value ts := by
  obtain ⟨maxbin, fmaxbin, maxval, fmaxval, maxts, fmaxts, hmax⟩ :=
    histogramMax_eq { h with populationcnt := h.populationcnt + 1 } value ts
      (truncate (h.units * (value - h.offset) / h.binwidth))
  unfold histogramInsert histogramInsertAs
  simp only [hmax, int32_of_lt hn hlt]
  rfl

/-- **An insertion** counts the value once, by the integer that its quotient is converted to. -/
theorem insert_cases :
    let bin := toInt (h.units * (value - h.offset)) h.binwidth
    let after := histogramInsertAs toInt h value ts
    SameBounds h after ∧ after.counters =
      { population := h.populationcnt + 1
        bins := if 0 ≤ bin ∧ bin ≤ int32 h.bincount then bump h.mybins bin else h.mybins
        lower := if bin < 0 then h.cntloweroutofbounds + 1 else h.cntloweroutofbounds
        upper := if 0 ≤ bin ∧ int32 h.bincount < bin then h.cntupperoutofbounds + 1 else h.cntupperoutofbounds } := by
  intro bin after
  obtain ⟨maxbin, fmaxbin, maxval, fmaxval, maxts, fmaxts, hmax⟩ :=
    histogramMax_eq { h with populationcnt := h.populationcnt + 1 } value ts bin
  have hafter : after = histogramInsertAs toInt h value ts := rfl
  unfold histogramInsertAs at hafter
  change after = (let h := histogramMax { h with populationcnt := h.populationcnt + 1 } value bin ts
    if bin < 0 then _ else if bin > int32 h.bincount then _ else _) at hafter
  rw [hmax] at hafter
  simp only at hafter
  by_cases hneg : bin < 0
  · rw [if_pos hneg] at hafter
    rw [hafter, if_neg (by omega), if_pos hneg, if_neg (by omega)]
    exact ⟨⟨rfl, rfl, rfl, rfl⟩, rfl⟩
  · rw [if_neg hneg] at hafter
    by_cases hlarge : int32 h.bincount < bin
    · rw [if_pos hlarge] at hafter
      rw [hafter, if_neg (by omega), if_neg hneg, if_pos ⟨by omega, hlarge⟩]
      exact ⟨⟨rfl, rfl, rfl, rfl⟩, rfl⟩
    · rw [if_neg hlarge] at hafter
      rw [hafter, if_pos ⟨by omega, by omega⟩, if_neg hneg, if_neg (by omega)]
      exact ⟨⟨rfl, rfl, rfl, rfl⟩, rfl⟩

end

/-! ## The quotient -/

section
variable {q : Rat} {n : Int}

theorem truncate_of_nonneg (h : 0 ≤ q) : truncate q = ⌊q⌋ := if_neg (not_lt.mpr h)

theorem truncate_of_nonpos (h : q ≤ 0) : truncate q = ⌈q⌉ := by
  unfold truncate
  rcases h.lt_or_eq with hlt | rfl
  · rw [if_pos hlt, Rat.ceil_eq_neg_floor_neg]
    rfl
  · rfl

/-- From minus one down a quotient is converted to a negative bin. -/
theorem truncate_neg (h : q ≤ -1) : truncate q < 0 := by
  rw [truncate_of_nonpos (by linarith)]
  have hle : ⌈q⌉ ≤ -1 := by
    apply Int.ceil_le.mpr
    exact_mod_cast h
  omega

/-- Between minus one and zero it is converted to the first bin. -/
theorem truncate_zero (hl : -1 < q) (h : q ≤ 0) : truncate q = 0 := by
  rw [truncate_of_nonpos h]
  apply Int.ceil_eq_iff.mpr
  constructor
  · push_cast
    linarith
  · exact_mod_cast h

theorem truncate_between (hl : 0 ≤ q) (h : q < n) : 0 ≤ truncate q ∧ truncate q < n := by
  rw [truncate_of_nonneg hl]
  exact ⟨Int.floor_nonneg.mpr hl, Int.floor_lt.mpr h⟩

/-- Just past the last bin it is converted to the number of bins. -/
theorem truncate_eq (hn : 0 ≤ n) (hl : (n : Rat) ≤ q) (h : q < n + 1) : truncate q = n := by
  have hzero : (0 : Rat) ≤ n := by exact_mod_cast hn
  rw [truncate_of_nonneg (hzero.trans hl)]
  exact Int.floor_eq_iff.mpr ⟨hl, h⟩

theorem lt_truncate (hn : 0 ≤ n) (h : (n : Rat) + 1 ≤ q) : n < truncate q := by
  have hzero : (0 : Rat) ≤ n := by exact_mod_cast hn
  rw [truncate_of_nonneg (by linarith)]
  have hle : n + 1 ≤ ⌊q⌋ := by
    apply Int.le_floor.mpr
    exact_mod_cast h
  omega

end

/-! ## Right counts -/

/-- The quotient that is converted to the bin of a value. -/
def Histogram.quotient (h : Histogram) (value : Rat) : Rat := h.units * (value - h.offset) / h.binwidth

/-- The upper bound: all bins after the offset, in seconds. -/
def Histogram.top (h : Histogram) : Rat := h.offset + h.bincount * h.binwidth / h.units

/-- An insertion changes bins of the histogram only, and counts a value beyond a bound as such. -/
structure CountedRight (h h' : Histogram) (value : Rat) : Prop where
  bins : ∀ b, h'.mybins b ≠ h.mybins b → 0 ≤ b ∧ b < h.bincount
  lower : value < h.offset → h'.cntloweroutofbounds = h.cntloweroutofbounds + 1
  upper : h.top ≤ value → h'.cntupperoutofbounds = h.cntupperoutofbounds + 1

/-- The population is what all counters say. -/
def Populated (h : Histogram) : Prop :=
  h.populationcnt = (∑ b ∈ Finset.Ico 0 h.bincount, h.mybins b) + h.cntloweroutofbounds + h.cntupperoutofbounds

/-- The values that are converted to their side of the bounds, within the range of an `int` where this matters. -/
def Clear (h : Histogram) (value : Rat) : Prop :=
  0 < h.binwidth ∧
    (-2147483649 < h.quotient value ∧ h.quotient value ≤ -1 ∨
      0 ≤ h.quotient value ∧ h.quotient value < h.bincount ∨
      h.bincount + 1 ≤ h.quotient value ∧ h.quotient value < 2147483648)

section
variable {h : Histogram} {value : Rat}

theorem lt_offset_iff (hunits : 0 < h.units) (hwidth : 0 < h.binwidth) :
    value < h.offset ↔ h.quotient value < 0 := by
  have hpos : (0 : Rat) < h.binwidth := by exact_mod_cast hwidth
  rw [Histogram.quotient, div_lt_iff₀ hpos, zero_mul]
  constructor
  · intro hvalue
    exact mul_neg_of_pos_of_neg hunits (sub_neg.mpr hvalue)
  · intro hneg
    by_contra hvalue
    exact absurd hneg (not_lt.mpr (mul_nonneg hunits.le (sub_nonneg.mpr (not_lt.mp hvalue))))

theorem top_le_iff (hunits : 0 < h.units) (hwidth : 0 < h.binwidth) :
    h.top ≤ value ↔ h.bincount ≤ h.quotient value := by
  have hpos : (0 : Rat) < h.binwidth := by exact_mod_cast hwidth
  rw [Histogram.quotient, le_div_iff₀ hpos, Histogram.top, ← le_sub_iff_add_le', div_le_iff₀' hunits]

variable {toInt : Rat → Int → Int} {ts : Option Timeval}

/-- A value that is in a bin or counted beyond a bound keeps the population. -/
theorem Populated.insert (hpopulated : Populated h)
    (hbin : 0 ≤ toInt (h.units * (value - h.offset)) h.binwidth →
      toInt (h.units * (value - h.offset)) h.binwidth ≤ int32 h.bincount →
      toInt (h.units * (value - h.offset)) h.binwidth < h.bincount) :
    Populated (histogramInsertAs toInt h value ts) := by
  obtain ⟨hbounds, hcounters⟩ := insert_cases toInt h value ts
  have hpopulation := congrArg Counters.population hcounters
  have hbins := congrArg Counters.bins hcounters
  have hlower := congrArg Counters.lower hcounters
  have hupper := congrArg Counters.upper hcounters
  simp only [Histogram.counters] at hpopulation hbins hlower hupper
  unfold Populated at hpopulated ⊢
  rw [hpopulation, hbins, hlower, hupper, hbounds.bincount]
  generalize toInt (h.units * (value - h.offset)) h.binwidth = bin at hbin ⊢
  by_cases hneg : bin < 0
  · rw [if_neg (by omega), if_pos hneg, if_neg (by omega)]
    omega
  · by_cases hlarge : int32 h.bincount < bin
    · rw [if_neg (by omega), if_neg hneg, if_pos ⟨by omega, hlarge⟩]
      omega
    · have hmem : bin ∈ Finset.Ico 0 h.bincount :=
        Finset.mem_Ico.mpr ⟨by omega, hbin (by omega) (by omega)⟩
      rw [if_pos ⟨by omega, by omega⟩, if_neg hneg, if_neg (by omega), sum_bump, if_pos hmem]
      omega

/-- What the conversion makes of a clear value. -/
theorem Clear.cases (hclear : Clear h value) (hconv : Conversion toInt) (hcount : 0 ≤ h.bincount) :
    let bin := toInt (h.units * (value - h.offset)) h.binwidth
    h.quotient value < 0 ∧ bin < 0 ∨
      (0 ≤ h.quotient value ∧ h.quotient value < h.bincount) ∧ (bin ≤ int32 h.bincount → bin < h.bincount) ∨
      (h.bincount : Rat) ≤ h.quotient value ∧ 0 ≤ bin ∧ int32 h.bincount < bin := by
  intro bin
  obtain ⟨hwidth, hlow | ⟨hnonneg, hlt⟩ | hhigh⟩ := hclear
  · left
    have hbin : bin = truncate (h.quotient value) := hconv _ _ hwidth.ne' hlow.1 (by
      have := hlow.2
      rw [Histogram.quotient] at this
      linarith)
    exact ⟨by linarith [hlow.2], hbin ▸ truncate_neg hlow.2⟩
  · right
    left
    refine ⟨⟨hnonneg, hlt⟩, fun hle => ?_⟩
    have hint := int32_lt h.bincount
    by_cases hrange : h.quotient value < 2147483648
    · have hbin : bin = truncate (h.quotient value) := hconv _ _ hwidth.ne' (by
        rw [Histogram.quotient] at hnonneg
        linarith) hrange
      rw [hbin]
      exact (truncate_between hnonneg hlt).2
    · have hbeyond : (2147483648 : Rat) < h.bincount := (not_lt.mp hrange).trans_lt hlt
      have hmany : (2147483648 : Int) < h.bincount := by exact_mod_cast hbeyond
      omega
  · right
    right
    have hsmall : h.bincount < 2147483648 := by
      have hlt : (h.bincount : Rat) < 2147483648 := by linarith [hhigh.1, hhigh.2]
      exact_mod_cast hlt
    have hzero : (0 : Rat) ≤ h.bincount := by exact_mod_cast hcount
    have hbin : bin = truncate (h.quotient value) := hconv _ _ hwidth.ne' (by
      have := hhigh.1
      rw [Histogram.quotient] at this
      linarith) hhigh.2
    have hpast := lt_truncate hcount hhigh.1
    rw [int32_of_lt hcount hsmall, hbin]
    exact ⟨by linarith [hhigh.1], by omega, hpast⟩

/-- **One clear value** is counted right. -/
theorem Clear.counted (hclear : Clear h value) (hconv : Conversion toInt) (hcount : 0 ≤ h.bincount)
    (hunits : 0 < h.units) (hpopulated : Populated h) :
    CountedRight h (histogramInsertAs toInt h value ts) value ∧ Populated (histogramInsertAs toInt h value ts) := by
  have hzero : (0 : Rat) ≤ h.bincount := by exact_mod_cast hcount
  obtain ⟨-, hcounters⟩ := insert_cases toInt h value ts
  have hbins := congrArg Counters.bins hcounters
  have hlower := congrArg Counters.lower hcounters
  have hupper := congrArg Counters.upper hcounters
  simp only [Histogram.counters] at hbins hlower hupper
  have hcases := hclear.cases hconv hcount
  have hwithin : 0 ≤ toInt (h.units * (value - h.offset)) h.binwidth →
      toInt (h.units * (value - h.offset)) h.binwidth ≤ int32 h.bincount →
      toInt (h.units * (value - h.offset)) h.binwidth < h.bincount := by
    intro hnonneg hle
    rcases hcases with ⟨-, hneg⟩ | ⟨-, hlt⟩ | ⟨-, -, hgt⟩
    · omega
    · exact hlt hle
    · omega
  refine ⟨⟨?_, ?_, ?_⟩, hpopulated.insert hwithin⟩
  · intro b hb
    rw [hbins] at hb
    split at hb
    · rename_i hbin
      by_cases hsame : b = toInt (h.units * (value - h.offset)) h.binwidth
      · rw [hsame]
        exact ⟨hbin.1, hwithin hbin.1 hbin.2⟩
      · exact absurd (bump_of_ne h.mybins hsame) hb
    · exact absurd rfl hb
  · intro hvalue
    have hneg := (lt_offset_iff hunits hclear.1).mp hvalue
    rcases hcases with ⟨-, hbin⟩ | ⟨⟨hnonneg, -⟩, -⟩ | ⟨hhigh, -⟩
    · rw [hlower, if_pos hbin]
    · exact absurd hneg (not_lt.mpr hnonneg)
    · exact absurd hneg (not_lt.mpr (hzero.trans hhigh))
  · intro hvalue
    have hhigh := (top_le_iff hunits hclear.1).mp hvalue
    rcases hcases with ⟨hneg, -⟩ | ⟨⟨-, hlt⟩, -⟩ | ⟨-, hbin⟩
    · exact absurd (hzero.trans hhigh) (not_le.mpr hneg)
    · exact absurd hhigh (not_le.mpr hlt)
    · rw [hupper, if_pos hbin]

/-- The conversion that makes `d` of everything that C leaves open. -/
def convertOr (d : Int) (x : Rat) (w : Int) : Int :=
  if w ≠ 0 ∧ -2147483649 < x / w ∧ x / w < 2147483648 then truncate (x / w) else d

theorem convertOr_conversion (d : Int) : Conversion (convertOr d) :=
  fun _ _ hw hlow hhigh => if_pos ⟨hw, hlow, hhigh⟩

/-- A value below the offset is counted wrong if its bin is not negative. -/
theorem not_counted_low {toInt : Rat → Int → Int} {h' : Histogram} (hvalue : value < h.offset)
    (hbin : 0 ≤ toInt (h.units * (value - h.offset)) h.binwidth) (hbounds : SameBounds h h') (ts : Option Timeval) :
    ¬ CountedRight h' (histogramInsertAs toInt h' value ts) value := by
  intro hcounted
  have hlower := congrArg Counters.lower (insert_cases toInt h' value ts).2
  simp only [Histogram.counters, hbounds.units, hbounds.offset, hbounds.binwidth] at hlower
  rw [if_neg (by omega), hcounted.lower (by rwa [hbounds.offset])] at hlower
  omega

/-- A value from the top on is counted wrong if its bin is not past the bins. -/
theorem not_counted_high {toInt : Rat → Int → Int} {h' : Histogram} (hvalue : h.top ≤ value)
    (hbin : toInt (h.units * (value - h.offset)) h.binwidth ≤ max (-1) (int32 h.bincount))
    (hbounds : SameBounds h h') (ts : Option Timeval) :
    ¬ CountedRight h' (histogramInsertAs toInt h' value ts) value := by
  intro hcounted
  have htop : h'.top = h.top := by
    simp only [Histogram.top, hbounds.units, hbounds.offset, hbounds.binwidth, hbounds.bincount]
  have hupper := congrArg Counters.upper (insert_cases toInt h' value ts).2
  simp only [Histogram.counters, hbounds.units, hbounds.offset, hbounds.binwidth, hbounds.bincount] at hupper
  rw [if_neg (by omega), hcounted.upper (by rwa [htop])] at hupper
  omega

/-- A value that is not clear is counted wrong on some platform, in every state of the histogram. -/
theorem not_clear (hclear : ¬ Clear h value) (hcount : 0 ≤ h.bincount) (hwidth : 0 ≤ h.binwidth)
    (hunits : 0 < h.units) :
    ∃ d, ∀ h', SameBounds h h' → ∀ ts, ¬ CountedRight h' (histogramInsertAs (convertOr d) h' value ts) value := by
  rcases hwidth.lt_or_eq with hpos | hzero
  · by_cases hneg : h.quotient value < 0
    · refine ⟨0, fun _ => not_counted_low ((lt_offset_iff hunits hpos).mpr hneg) ?_⟩
      unfold convertOr
      split_ifs with hrange
      · have habove : ¬ h.quotient value ≤ -1 := fun hle => hclear ⟨hpos, .inl ⟨hrange.2.1, hle⟩⟩
        exact (truncate_zero (not_le.mp habove) hneg.le).ge
      · exact le_refl 0
    · have hpast : (h.bincount : Rat) ≤ h.quotient value := by
        by_contra hlt
        exact hclear ⟨hpos, .inr (.inl ⟨not_lt.mp hneg, not_le.mp hlt⟩)⟩
      refine ⟨-1, fun _ => not_counted_high ((top_le_iff hunits hpos).mpr hpast) ?_⟩
      unfold convertOr
      split_ifs with hrange
      · have hnext : h.quotient value < h.bincount + 1 := by
          by_contra hge
          exact hclear ⟨hpos, .inr (.inr ⟨not_lt.mp hge, hrange.2.2⟩)⟩
        have hsmall : h.bincount < 2147483648 := by exact_mod_cast hpast.trans_lt hrange.2.2
        rw [int32_of_lt hcount hsmall]
        exact (truncate_eq hcount hpast hnext).le.trans (le_max_right _ _)
      · exact le_max_left _ _
  · have hopen : ∀ d, convertOr d (h.units * (value - h.offset)) h.binwidth = d :=
      fun d => if_neg fun hne => hne.1 hzero.symm
    by_cases hvalue : value < h.offset
    · exact ⟨0, fun _ => not_counted_low hvalue (hopen 0).ge⟩
    · refine ⟨-1, fun _ => not_counted_high ?_ ((hopen (-1)).le.trans (le_max_left _ _))⟩
      rw [Histogram.top, ← hzero, Int.cast_zero, mul_zero, zero_div, add_zero]
      exact not_lt.mp hvalue

end

/-! ## Sequences of values -/

/-- A histogram after values. -/
def inserts (toInt : Rat → Int → Int) (h : Histogram) (values : List (Rat × Option Timeval)) : Histogram :=
  values.foldl (fun h v => histogramInsertAs toInt h v.1 v.2) h

/-- Every value of the sequence is counted right, and the population is right after it. -/
def AllCounted (toInt : Rat → Int → Int) (h : Histogram) (values : List (Rat × Option Timeval)) : Prop :=
  ∀ before v after, values = before ++ v :: after →
    let h' := inserts toInt h before
    CountedRight h' (histogramInsertAs toInt h' v.1 v.2) v.1 ∧ Populated (histogramInsertAs toInt h' v.1 v.2)

theorem inserts_bounds (toInt : Rat → Int → Int) (h : Histogram) (values : List (Rat × Option Timeval)) :
    SameBounds h (inserts toInt h values) := by
  induction values generalizing h with
  | nil => exact SameBounds.refl h
  | cons v values ih => exact (insert_cases toInt h v.1 v.2).1.trans (ih _)

/-- The bounds are all that matters. -/
theorem Clear.congr {h h' : Histogram} (hbounds : SameBounds h h') {value : Rat} : Clear h' value ↔ Clear h value := by
  simp only [Clear, Histogram.quotient, hbounds.bincount, hbounds.binwidth, hbounds.offset, hbounds.units]

section
variable {toInt : Rat → Int → Int} {h : Histogram}

theorem histogramNew_populated {bincount binwidth : Int} {offset units : Rat} :
    Populated (histogramNew bincount binwidth offset units) := by
  simp [Populated, histogramNew]

theorem inserts_populated (hconv : Conversion toInt) (hcount : 0 ≤ h.bincount) (hunits : 0 < h.units)
    (hpopulated : Populated h) {values : List (Rat × Option Timeval)} (hclear : ∀ v ∈ values, Clear h v.1) :
    Populated (inserts toInt h values) := by
  induction values generalizing h with
  | nil => exact hpopulated
  | cons v values ih =>
    have hbounds := (insert_cases toInt h v.1 v.2).1
    apply ih
    · rw [hbounds.bincount]
      exact hcount
    · rw [hbounds.units]
      exact hunits
    · exact ((hclear v List.mem_cons_self).counted hconv hcount hunits hpopulated).2
    · intro u hu
      exact (Clear.congr hbounds).mpr (hclear u (List.mem_cons_of_mem v hu))

end

end Iperf2.Report
