import Iperf2.Lib.First
import Iperf2.Report.HistogramPrint
import Mathlib.Algebra.BigOperators.Intervals
import Mathlib.Algebra.Order.BigOperators.Group.Finset
import Mathlib.Tactic.NormNum
import Mathlib.Tactic.Positivity

/-!
# Percentiles of a printed histogram

`histogram_print` adds up the samples since the last print, bin by bin, and keeps the numbers of the first bins at
which they exceed the percentages of `ci_lower` and `ci_upper`. The counters are `unsigned int`, and the sums and
differences of them `int`. A sum that is no `int` is undefined.

* `PrintLoop.round` : a bin; `Percentiles.histogramPrint` : the loop and what is printed;
* `exceeds`, `percentile` : the bins that a histogram has its percentages at; `RightPercentiles` : what a print should
  give;
* `Scanned` : what the loop knows behind some bins; `Scanned.round` and, over all bins, `scanned_scan`;
* `percentiles_right_iff` : the prints that are right.
-/

namespace Iperf2.Report.Percentiles
open First Finset

/-! ## The loop -/

/-- The fields of a `struct histogram` that the loop reads. -/
structure Counters where
  bincount : Nat
  mybins : Nat → BitVec 32
  populationcnt : BitVec 32
  cntloweroutofbounds : BitVec 32
  cntupperoutofbounds : BitVec 32
  ciLower : Rat
  ciUpper : Rat
  final : Bool

/-- `histogram_init` and `histogram_clear` : the counters are zero. -/
def Counters.clear (h : Counters) : Counters :=
  { h with
    mybins := fun _ => 0
    populationcnt := 0
    cntloweroutofbounds := 0
    cntupperoutofbounds := 0 }

/-- The copy of the counters that the loop starts with, from `h->prev`. -/
def copyOf (h : Counters) (prev : Option Counters) : Counters :=
  let prev := if h.final then prev.map Counters.clear else prev
  prev.getD h.clear

/-- A sum of two `int`. -/
def addInt (m n : Int) : Option Int := if -2147483648 ≤ m + n ∧ m + n < 2147483648 then some (m + n) else none

/-- The variables of the loop, with the bins of the copy. -/
structure PrintLoop where
  running : Int
  lowerci : Int
  upperci : Int
  upper3stdev : Int
  fenceLower : Int
  fenceUpper : Int
  outside3fences : Int
  outliercnt : Int
  prevBins : Nat → BitVec 32

/-- The body of the loop. -/
def PrintLoop.round (h : Counters) (intervalpopulation : Int) (s : PrintLoop) (ix : Nat) : Option PrintLoop :=
  let delta := (h.mybins ix - s.prevBins ix).toInt
  if delta > 0 then
    (addInt s.running delta).map fun running : Int =>
      let share : Rat := (running : Rat) / intervalpopulation
      -- use 10% and 90% for inner fence post, then 3 times for outlier
      let fenceLower := if share < 1 / 10 then (ix + 1 : Int) else s.fenceLower
      { running
        lowerci := if s.lowerci = 0 ∧ h.ciLower / 100 < share then (ix + 1 : Int) else s.lowerci
        upperci := if s.upperci = 0 ∧ h.ciUpper / 100 < share then (ix + 1 : Int) else s.upperci
        upper3stdev := if s.upper3stdev = 0 ∧ 997 / 10 / 100 < share then (ix + 1 : Int) else s.upper3stdev
        fenceLower
        fenceUpper := if share < 9 / 10 then (ix + 1 : Int) else s.fenceUpper
        outside3fences :=
          if ¬ share < 9 / 10 ∧ s.outside3fences = 0 then s.fenceUpper + 3 * (s.fenceUpper - fenceLower)
          else s.outside3fences
        outliercnt :=
          if ¬ share < 9 / 10 ∧ s.outside3fences ≠ 0 ∧ ix > s.outside3fences then s.outliercnt + delta
          else s.outliercnt
        prevBins := fun j => if j = ix then h.mybins ix else s.prevBins j }
  else some s

def PrintLoop.start (copy : Counters) : PrintLoop where
  running := 0
  lowerci := 0
  upperci := 0
  upper3stdev := 0
  fenceLower := 0
  fenceUpper := 0
  outside3fences := 0
  outliercnt := 0
  prevBins := copy.mybins

/-- The first `n` rounds. -/
def scan (h copy : Counters) (intervalpopulation : Int) : Nat → Option PrintLoop
  | 0 => some (.start copy)
  | n + 1 => (scan h copy intervalpopulation n).bind fun s => s.round h intervalpopulation n

/-- What is printed behind the bins, and the copy that is left. -/
structure Printed where
  intervalpopulation : Int
  lowerci : Int
  upperci : Int
  upper3stdev : Int
  outliercnt : Int
  oobLower : Int
  oobUpper : Int
  prev : Counters

/-- `histogram_print` -/
def histogramPrint (h : Counters) (prev : Option Counters) : Option Printed :=
  let copy := copyOf h prev
  let intervalpopulation := (h.populationcnt - copy.populationcnt).toInt
  (scan h copy intervalpopulation h.bincount).map fun s : PrintLoop =>
    { intervalpopulation
      lowerci := s.lowerci
      upperci := if s.upperci = 0 then (h.bincount : Int) else s.upperci
      upper3stdev := if s.upper3stdev = 0 then (h.bincount : Int) else s.upper3stdev
      outliercnt := s.outliercnt
      oobLower := (h.cntloweroutofbounds - copy.cntloweroutofbounds).toInt
      oobUpper := (h.cntupperoutofbounds - copy.cntupperoutofbounds).toInt
      prev := { copy with
        populationcnt := h.populationcnt
        cntloweroutofbounds := h.cntloweroutofbounds
        cntupperoutofbounds := h.cntupperoutofbounds
        mybins := s.prevBins } }

/-! ## Percentiles -/

/-- The samples in bin `ix` since the copy. -/
def since (h copy : Counters) (ix : Nat) : Nat := (h.mybins ix).toNat - (copy.mybins ix).toNat

/-- The samples in the first `n` bins. -/
def cumulative (h copy : Counters) (n : Nat) : Nat := ∑ ix ∈ range n, since h copy ix

/-- All samples, those out of bounds too. -/
def population (h copy : Counters) : Nat := h.populationcnt.toNat - copy.populationcnt.toNat

/-- The samples up to bin `ix` are more than `ci` percent of so many. -/
def exceeds (h copy : Counters) (among : Int) (ci : Rat) (ix : Nat) : Bool :=
  decide (ci / 100 < (cumulative h copy (ix + 1) : Rat) / among)

/-- The number of the first bin at which the samples exceed `ci` percent, or `others` if there is none. -/
def percentile (h copy : Counters) (ci : Rat) (others : Int) : Int :=
  match first (exceeds h copy (population h copy) ci) h.bincount with
  | some ix => ix + 1
  | none => others

/-- No counter of the copy exceeds the one that it is a copy of. -/
structure Before (copy h : Counters) : Prop where
  mybins : ∀ ix < h.bincount, copy.mybins ix ≤ h.mybins ix
  populationcnt : copy.populationcnt ≤ h.populationcnt
  cntloweroutofbounds : copy.cntloweroutofbounds ≤ h.cntloweroutofbounds
  cntupperoutofbounds : copy.cntupperoutofbounds ≤ h.cntupperoutofbounds

theorem before_clear (h : Counters) : Before h.clear h where
  mybins _ _ := BitVec.le_def.mpr (Nat.zero_le _)
  populationcnt := BitVec.le_def.mpr (Nat.zero_le _)
  cntloweroutofbounds := BitVec.le_def.mpr (Nat.zero_le _)
  cntupperoutofbounds := BitVec.le_def.mpr (Nat.zero_le _)

/-- What a print should give: its percentiles, in order, and a copy of the bins. -/
structure RightPercentiles (h copy : Counters) (printed : Printed) : Prop where
  lowerci : printed.lowerci = percentile h copy h.ciLower 0
  upperci : printed.upperci = percentile h copy h.ciUpper h.bincount
  ordered : printed.lowerci ≤ printed.upperci
  bins : ∀ ix < h.bincount, printed.prev.mybins ix = h.mybins ix

/-! ## Differences and sums -/

section
variable {h copy : Counters} {among : Int} {ci : Rat} {n ix : Nat}

/-- A difference of counters, as an `int`. -/
theorem sub_toInt {a b : BitVec 32} (hle : b ≤ a) :
    (a - b).toInt = if a.toNat - b.toNat < 2147483648 then ((a.toNat - b.toNat : Nat) : Int)
      else ((a.toNat - b.toNat : Nat) : Int) - 4294967296 := by
  have hsub : (a - b).toNat = a.toNat - b.toNat := BitVec.toNat_sub_of_le hle
  rw [BitVec.toInt_eq_toNat_cond, hsub]
  split <;> split <;> first | rfl | omega

theorem addInt_eq_some {m k r : Int} : addInt m k = some r ↔ r = m + k ∧ -2147483648 ≤ r ∧ r < 2147483648 := by
  unfold addInt
  split
  · rename_i hrange
    rw [Option.some.injEq]
    constructor
    · rintro rfl
      exact ⟨rfl, hrange⟩
    · rintro ⟨rfl, -⟩
      rfl
  · rename_i hrange
    constructor
    · intro hnone
      cases hnone
    · rintro ⟨rfl, hrange'⟩
      exact absurd hrange' hrange

theorem cumulative_succ (h copy : Counters) (n : Nat) :
    cumulative h copy (n + 1) = cumulative h copy n + since h copy n := sum_range_succ _ _

theorem cumulative_mono {m : Nat} (hle : n ≤ m) : cumulative h copy n ≤ cumulative h copy m :=
  sum_le_sum_of_subset (range_subset_range.mpr hle)

/-- A bin without samples exceeds a percentage only if the one before it does. -/
theorem exceeds_skip (hci : 0 < ci) (hsince : since h copy n = 0) (hexceeds : exceeds h copy among ci n = true) :
    ∃ j < n, exceeds h copy among ci j = true := by
  unfold exceeds at hexceeds ⊢
  rw [cumulative_succ, hsince, Nat.add_zero] at hexceeds
  cases n with
  | zero =>
    have hzero : cumulative h copy 0 = 0 := rfl
    rw [hzero, decide_eq_true_eq, Nat.cast_zero, zero_div] at hexceeds
    have hpos : 0 < ci / 100 := by positivity
    exact absurd hexceeds (not_lt.mpr hpos.le)
  | succ n => exact ⟨n, Nat.lt_succ_self n, hexceeds⟩

end

/-! ## Percentiles in order -/

section
variable {h copy : Counters} {ci ci' : Rat}

theorem percentile_eq (h copy : Counters) (ci : Rat) (others : Int) :
    percentile h copy ci others =
      if number (first (exceeds h copy (population h copy) ci) h.bincount) = 0 then others
      else number (first (exceeds h copy (population h copy) ci) h.bincount) := by
  unfold percentile
  cases hfirst : first (exceeds h copy (population h copy) ci) h.bincount with
  | none => rfl
  | some ix => exact (if_neg (Nat.succ_ne_zero ix)).symm

/-- A larger percentage is exceeded by fewer bins. -/
theorem exceeds_of_le {among : Int} {ix : Nat} (hle : ci ≤ ci') (h' : exceeds h copy among ci' ix = true) :
    exceeds h copy among ci ix = true := by
  unfold exceeds at h' ⊢
  rw [decide_eq_true_eq] at h' ⊢
  have hdiv : ci / 100 ≤ ci' / 100 := by gcongr
  exact lt_of_le_of_lt hdiv h'

theorem percentile_le (hle : ci ≤ ci') : percentile h copy ci 0 ≤ percentile h copy ci' h.bincount := by
  rw [percentile_eq, percentile_eq]
  have hbound := number_first_bound (exceeds h copy (population h copy) ci) h.bincount
  have hfirst := number_first_le (n := h.bincount) (p := exceeds h copy (population h copy) ci)
    (q := exceeds h copy (population h copy) ci') fun ix _ => exceeds_of_le hle
  split <;> split <;> omega

/-- No bin exceeds a percentage that all samples do not exceed. -/
theorem first_exceeds_eq_none_iff (hci : 0 < ci) (hpopulation : 0 < population h copy) :
    first (exceeds h copy (population h copy) ci) h.bincount = none ↔
      100 * (cumulative h copy h.bincount : Rat) ≤ ci * population h copy := by
  have hpos : (0 : Rat) < population h copy := by exact_mod_cast hpopulation
  have hexceeds : ∀ ix, exceeds h copy (population h copy) ci ix = false ↔
      100 * (cumulative h copy (ix + 1) : Rat) ≤ ci * population h copy := by
    intro ix
    unfold exceeds
    rw [decide_eq_false_iff_not, not_lt, Int.cast_natCast, div_le_div_iff₀ hpos (by norm_num)]
    constructor
    · intro hle
      linarith
    · intro hle
      linarith
  rw [first_eq_none_iff]
  constructor
  · intro hnone
    cases hcount : h.bincount with
    | zero =>
      have hzero : cumulative h copy 0 = 0 := rfl
      rw [hzero, Nat.cast_zero, mul_zero]
      positivity
    | succ n => exact (hexceeds n).mp (hnone n (by omega))
  · intro hle ix hix
    rw [hexceeds]
    have hmono : (cumulative h copy (ix + 1) : Rat) ≤ cumulative h copy h.bincount := by
      exact_mod_cast cumulative_mono hix
    linarith

/-- Among a negative number there is no percentage. -/
theorem first_exceeds_of_neg {among : Int} (hci : 0 < ci) (hamong : among < 0) (n : Nat) :
    first (exceeds h copy among ci) n = none := by
  rw [first_eq_none_iff]
  intro ix _
  unfold exceeds
  rw [decide_eq_false_iff_not, not_lt]
  have hneg : (among : Rat) ≤ 0 := by exact_mod_cast hamong.le
  have hshare : (cumulative h copy (ix + 1) : Rat) / among ≤ 0 :=
    div_nonpos_of_nonneg_of_nonpos (Nat.cast_nonneg _) hneg
  have hpos : 0 < ci / 100 := by positivity
  linarith

end

/-! ## Rounds -/

section
variable {h copy : Counters} {among : Int} {s s' : PrintLoop} {n ix : Nat}

/-- A bin is skipped, or its samples are added and its copy is made. -/
theorem round_cases (hround : s.round h among ix = some s') :
    ((h.mybins ix - s.prevBins ix).toInt ≤ 0 ∧ s' = s) ∨
    (0 < (h.mybins ix - s.prevBins ix).toInt ∧
      s'.running = s.running + (h.mybins ix - s.prevBins ix).toInt ∧ s'.running < 2147483648 ∧
      s'.lowerci = (if s.lowerci = 0 ∧ h.ciLower / 100 < (s'.running : Rat) / among then (ix + 1 : Int)
        else s.lowerci) ∧
      s'.upperci = (if s.upperci = 0 ∧ h.ciUpper / 100 < (s'.running : Rat) / among then (ix + 1 : Int)
        else s.upperci) ∧
      s'.prevBins = fun j => if j = ix then h.mybins ix else s.prevBins j) := by
  unfold PrintLoop.round at hround
  dsimp only at hround
  split at hround
  · rename_i hpos
    obtain ⟨running, hrunning, rfl⟩ := Option.map_eq_some_iff.mp hround
    obtain ⟨hsum, -, hlt⟩ := addInt_eq_some.mp hrunning
    exact .inr ⟨hpos, hsum, hlt, rfl, rfl, rfl⟩
  · rename_i hpos
    exact .inl ⟨by omega, (Option.some.inj hround).symm⟩

/-- What the loop knows behind `n` bins. It has their percentiles if it made a copy of all of them. -/
structure Scanned (h copy : Counters) (among : Int) (n : Nat) (s : PrintLoop) : Prop where
  running_lt : s.running < 2147483648
  kept : ∀ ix, n ≤ ix → s.prevBins ix = copy.mybins ix
  known : (∀ ix < n, s.prevBins ix = h.mybins ix) →
    s.running = cumulative h copy n ∧ s.lowerci = number (first (exceeds h copy among h.ciLower) n) ∧
      s.upperci = number (first (exceeds h copy among h.ciUpper) n)

theorem scanned_start (h copy : Counters) (among : Int) : Scanned h copy among 0 (.start copy) where
  running_lt := show (0 : Int) < 2147483648 by decide
  kept _ _ := rfl
  known _ := ⟨rfl, rfl, rfl⟩

/-- A number that a round sets. -/
theorem number_round {ci : Rat} {found : Int} (hfound : found = number (first (exceeds h copy among ci) n))
    {running : Int} (hrunning : running = cumulative h copy (n + 1)) :
    (if found = 0 ∧ ci / 100 < (running : Rat) / among then (n + 1 : Int) else found) =
      number (first (exceeds h copy among ci) (n + 1)) := by
  have hexceeds : ci / 100 < (running : Rat) / among ↔ exceeds h copy among ci n = true := by
    unfold exceeds
    rw [decide_eq_true_eq, hrunning, Int.cast_natCast]
  rw [number_first_succ, hfound]
  by_cases hset : number (first (exceeds h copy among ci) n) = 0 ∧ exceeds h copy among ci n = true
  · rw [if_pos hset, if_pos ⟨by exact_mod_cast hset.1, hexceeds.mpr hset.2⟩]
    push_cast
    rfl
  · rw [if_neg hset, if_neg fun hset' => hset ⟨by exact_mod_cast hset'.1, hexceeds.mp hset'.2⟩]

theorem Scanned.round (hlower : 0 < h.ciLower) (hupper : 0 < h.ciUpper) (hle : copy.mybins n ≤ h.mybins n)
    (hs : Scanned h copy among n s) (hround : s.round h among n = some s') : Scanned h copy among (n + 1) s' := by
  have hcopy := hs.kept n (Nat.le_refl n)
  rcases round_cases hround with ⟨-, rfl⟩ | ⟨hpos, hrunning, hlt, hlowerci, hupperci, hbins⟩
  · refine ⟨hs.running_lt, fun ix hix => hs.kept ix (by omega), fun hall => ?_⟩
    obtain ⟨hcumulative, hlo, hup⟩ := hs.known fun ix hix => hall ix (by omega)
    -- a bin that is skipped and has a copy has no samples
    have hsince : since h copy n = 0 := by
      unfold since
      rw [← hcopy, hall n (Nat.lt_succ_self n), Nat.sub_self]
    refine ⟨?_, ?_, ?_⟩
    · rw [cumulative_succ, hsince, Nat.add_zero]
      exact hcumulative
    · rw [number_first_skip (exceeds_skip hlower hsince)]
      exact hlo
    · rw [number_first_skip (exceeds_skip hupper hsince)]
      exact hup
  · refine ⟨hlt, fun ix hix => ?_, fun hall => ?_⟩
    · rw [hbins]
      exact (if_neg (by omega)).trans (hs.kept ix (by omega))
    · obtain ⟨hcumulative, hlo, hup⟩ := hs.known fun ix hix => by
        have hbin := hall ix (by omega)
        rw [hbins] at hbin
        exact (if_neg (show ix ≠ n by omega)).symm.trans hbin
      have hsince : (h.mybins n - s.prevBins n).toInt = since h copy n := by
        have hlt' := (h.mybins n).isLt
        rw [hcopy] at hpos ⊢
        rw [sub_toInt hle] at hpos ⊢
        by_cases hsmall : (h.mybins n).toNat - (copy.mybins n).toNat < 2147483648
        · exact if_pos hsmall
        · rw [if_neg hsmall] at hpos
          omega
      have hsum : s'.running = cumulative h copy (n + 1) := by
        rw [hrunning, hcumulative, hsince, cumulative_succ]
        push_cast
        rfl
      refine ⟨hsum, ?_, ?_⟩
      · rw [hlowerci]
        exact number_round hlo hsum
      · rw [hupperci]
        exact number_round hup hsum

theorem scanned_scan (hlower : 0 < h.ciLower) (hupper : 0 < h.ciUpper)
    (hle : ∀ ix < n, copy.mybins ix ≤ h.mybins ix) (hscan : scan h copy among n = some s) :
    Scanned h copy among n s := by
  induction n generalizing s with
  | zero =>
    obtain rfl : PrintLoop.start copy = s := Option.some.inj hscan
    exact scanned_start h copy among
  | succ n ih =>
    rw [scan] at hscan
    obtain ⟨mid, hmid, hround⟩ := Option.bind_eq_some_iff.mp hscan
    exact (ih (fun ix hix => hle ix (by omega)) hmid).round hlower hupper (hle n (Nat.lt_succ_self n)) hround

/-- The loop gets behind `n` bins, with a copy of them, if their samples are an `int`. -/
theorem scan_of_lt (among : Int) (hlower : 0 < h.ciLower) (hupper : 0 < h.ciUpper)
    (hle : ∀ ix < n, copy.mybins ix ≤ h.mybins ix) (hlt : cumulative h copy n < 2147483648) :
    ∃ s, scan h copy among n = some s ∧ ∀ ix < n, s.prevBins ix = h.mybins ix := by
  induction n with
  | zero => exact ⟨.start copy, rfl, fun ix hix => absurd hix (Nat.not_lt_zero ix)⟩
  | succ n ih =>
    rw [cumulative_succ] at hlt
    obtain ⟨s, hscan, hbins⟩ := ih (fun ix hix => hle ix (by omega)) (by omega)
    have hs := scanned_scan hlower hupper (fun ix hix => hle ix (by omega)) hscan
    have hrunning := (hs.known hbins).1
    have hcopy := hs.kept n (Nat.le_refl n)
    have hdelta : (h.mybins n - s.prevBins n).toInt = since h copy n := by
      rw [hcopy, sub_toInt (hle n (Nat.lt_succ_self n))]
      exact if_pos (show since h copy n < 2147483648 by omega)
    have hadd : addInt s.running (h.mybins n - s.prevBins n).toInt = some (s.running + since h copy n) := by
      rw [hdelta, addInt_eq_some]
      omega
    rw [scan, hscan, Option.bind_some]
    unfold PrintLoop.round
    by_cases hpos : (h.mybins n - s.prevBins n).toInt > 0
    · rw [if_pos hpos, hadd]
      refine ⟨_, rfl, fun ix hix => ?_⟩
      dsimp only
      split
      · rename_i heq
        rw [heq]
      · exact hbins ix (by omega)
    · rw [if_neg hpos]
      refine ⟨s, rfl, fun ix hix => ?_⟩
      by_cases heq : ix = n
      · -- no samples: the bin is its copy
        have hsince : (h.mybins n).toNat - (copy.mybins n).toNat = 0 := by
          have hzero : since h copy n = 0 := by omega
          exact hzero
        have hge := hle n (Nat.lt_succ_self n)
        rw [BitVec.le_def] at hge
        rw [heq, hcopy]
        exact BitVec.eq_of_toNat_eq (by omega)
      · exact hbins ix (by omega)

end

/-! ## Prints that are right -/

section
variable {h copy : Counters} {s : PrintLoop}

/-- The interval population, as an `int`. -/
theorem intervalpopulation_eq (hle : copy.populationcnt ≤ h.populationcnt) :
    (h.populationcnt - copy.populationcnt).toInt =
      if population h copy < 2147483648 then (population h copy : Int) else population h copy - 4294967296 :=
  sub_toInt hle

/-- With fewer than `2 ^ 31` samples in the population the loop finds the percentiles. -/
theorem percentiles_of_lt (hs : Scanned h copy (population h copy) h.bincount s)
    (hbins : ∀ ix < h.bincount, s.prevBins ix = h.mybins ix) :
    s.lowerci = percentile h copy h.ciLower 0 ∧
      (if s.upperci = 0 then (h.bincount : Int) else s.upperci) = percentile h copy h.ciUpper h.bincount := by
  obtain ⟨-, hlo, hup⟩ := hs.known hbins
  rw [percentile_eq, percentile_eq, hlo, hup]
  refine ⟨?_, by simp only [Int.natCast_eq_zero]⟩
  split
  · rename_i hzero
    rw [hzero]
    rfl
  · rfl

/-- With more it finds none. -/
theorem percentiles_of_neg {among : Int} (hlower : 0 < h.ciLower) (hupper : 0 < h.ciUpper) (hamong : among < 0)
    (hs : Scanned h copy among h.bincount s) (hbins : ∀ ix < h.bincount, s.prevBins ix = h.mybins ix) :
    s.lowerci = 0 ∧ (if s.upperci = 0 then (h.bincount : Int) else s.upperci) = h.bincount := by
  obtain ⟨-, hlo, hup⟩ := hs.known hbins
  rw [first_exceeds_of_neg hlower hamong] at hlo
  rw [first_exceeds_of_neg hupper hamong] at hup
  exact ⟨hlo, if_pos hup⟩

theorem percentile_eq_others {ci : Rat} {others : Int}
    (hnone : first (exceeds h copy (population h copy) ci) h.bincount = none) :
    percentile h copy ci others = others := by
  unfold percentile
  rw [hnone]

end

/-- If no bin exceeds a percentage, none exceeds a larger one. -/
theorem first_exceeds_mono {h copy : Counters} {among : Int} {ci ci' : Rat} {n : Nat} (hle : ci ≤ ci')
    (hnone : first (exceeds h copy among ci) n = none) : first (exceeds h copy among ci') n = none := by
  rw [first_eq_none_iff] at hnone ⊢
  intro ix hix
  rw [← Bool.not_eq_true]
  intro hexceeds
  have hnot := hnone ix hix
  rw [exceeds_of_le hle hexceeds] at hnot
  cases hnot

/-- The loop finds the percentiles, if there is an `int` for the population or nothing to be found. -/
theorem percentiles_of_scanned {h copy : Counters} {s : PrintLoop} (hlower : 0 < h.ciLower)
    (hle : h.ciLower ≤ h.ciUpper) (hpopulation : 0 < population h copy)
    (hcounter : copy.populationcnt ≤ h.populationcnt)
    (hs : Scanned h copy (h.populationcnt - copy.populationcnt).toInt h.bincount s)
    (hbins : ∀ ix < h.bincount, s.prevBins ix = h.mybins ix)
    (hsmall : population h copy < 2147483648 ∨
      100 * (cumulative h copy h.bincount : Rat) ≤ h.ciLower * population h copy) :
    s.lowerci = percentile h copy h.ciLower 0 ∧
      (if s.upperci = 0 then (h.bincount : Int) else s.upperci) = percentile h copy h.ciUpper h.bincount := by
  have hpopulation' := intervalpopulation_eq hcounter
  have hlt := (h.populationcnt).isLt
  have hbound : population h copy ≤ h.populationcnt.toNat := Nat.sub_le _ _
  by_cases hlarge : population h copy < 2147483648
  · rw [if_pos hlarge] at hpopulation'
    rw [hpopulation'] at hs
    exact percentiles_of_lt hs hbins
  · rw [if_neg hlarge] at hpopulation'
    rw [hpopulation'] at hs
    have hnone := (first_exceeds_eq_none_iff hlower hpopulation).mpr (hsmall.resolve_left hlarge)
    rw [percentile_eq_others hnone, percentile_eq_others (first_exceeds_mono hle hnone)]
    exact percentiles_of_neg hlower (lt_of_lt_of_le hlower hle) (by omega) hs hbins

/-- **The prints that are right** have fewer than `2 ^ 31` samples in the bins, and in the population, too, unless the
bins have none of the percentiles. -/
theorem percentiles_right_iff (h : Counters) (prev : Option Counters) (hbefore : Before (copyOf h prev) h)
    (hpopulation : 0 < population h (copyOf h prev)) (hlower : 0 < h.ciLower) (hle : h.ciLower ≤ h.ciUpper) :
    (∃ printed, histogramPrint h prev = some printed ∧ RightPercentiles h (copyOf h prev) printed) ↔
      cumulative h (copyOf h prev) h.bincount < 2147483648 ∧
        (population h (copyOf h prev) < 2147483648 ∨
          100 * (cumulative h (copyOf h prev) h.bincount : Rat) ≤ h.ciLower * population h (copyOf h prev)) := by
  unfold histogramPrint
  dsimp only
  generalize copyOf h prev = copy at hbefore hpopulation ⊢
  have hupper : 0 < h.ciUpper := lt_of_lt_of_le hlower hle
  constructor
  · rintro ⟨printed, hprinted, hright⟩
    obtain ⟨s, hscan, rfl⟩ := Option.map_eq_some_iff.mp hprinted
    have hs := scanned_scan hlower hupper hbefore.mybins hscan
    have hrunning := (hs.known hright.bins).1
    have hlt := hs.running_lt
    refine ⟨by omega, or_iff_not_imp_left.mpr fun hlarge => ?_⟩
    -- the population is negative, and there must be no percentile
    have hpopulation' := intervalpopulation_eq hbefore.populationcnt
    have hcounter := (h.populationcnt).isLt
    have hbound : population h copy ≤ h.populationcnt.toNat := Nat.sub_le _ _
    rw [if_neg hlarge] at hpopulation'
    rw [hpopulation'] at hs
    have hnone := (percentiles_of_neg hlower hupper (by omega) hs hright.bins).1
    rw [← first_exceeds_eq_none_iff hlower hpopulation, ← number_eq_zero_iff]
    have hlowerci : s.lowerci = percentile h copy h.ciLower 0 := hright.lowerci
    rw [hnone, percentile_eq] at hlowerci
    split at hlowerci
    · assumption
    · omega
  · rintro ⟨hcumulative, hsmall⟩
    obtain ⟨s, hscan, hbins⟩ := scan_of_lt (h.populationcnt - copy.populationcnt).toInt hlower hupper hbefore.mybins
      hcumulative
    have hs := scanned_scan hlower hupper hbefore.mybins hscan
    have hci := percentiles_of_scanned hlower hle hpopulation hbefore.populationcnt hs hbins hsmall
    rw [hscan]
    refine ⟨_, rfl, hci.1, hci.2, ?_, hbins⟩
    change s.lowerci ≤ (if s.upperci = 0 then (h.bincount : Int) else s.upperci)
    rw [hci.1, hci.2]
    exact percentile_le hle

/-- A final histogram of `n` bins with `samples` samples, all in bin 5. -/
def oneBin (samples : BitVec 32) : Counters where
  bincount := 10
  mybins ix := if ix = 5 then samples else 0
  populationcnt := samples
  cntloweroutofbounds := 0
  cntupperoutofbounds := 0
  ciLower := 5
  ciUpper := 95
  final := true

/-- A thousand samples. -/
theorem percentiles_right_oneBin :
    ∃ printed, histogramPrint (oneBin 1000) none = some printed ∧
      RightPercentiles (oneBin 1000) (copyOf (oneBin 1000) none) printed :=
  (percentiles_right_iff (oneBin 1000) none
    (before_clear (oneBin 1000)) (by decide) (by decide +kernel) (by decide +kernel)).mpr ⟨by decide, .inl (by decide)⟩

/-- `2 ^ 31` samples: the bin is skipped, its number is not found, and there is no copy of it. -/
theorem percentiles_wrong_oneBin :
    (histogramPrint (oneBin 2147483648) none).map (fun printed =>
      (printed.lowerci, printed.upperci, printed.prev.mybins 5)) = some (0, 10, 0) ∧
    percentile (oneBin 2147483648) (copyOf (oneBin 2147483648) none) 5 0 = 6 ∧
    ¬ ∃ printed, histogramPrint (oneBin 2147483648) none = some printed ∧
      RightPercentiles (oneBin 2147483648) (copyOf (oneBin 2147483648) none) printed := by
  have hprint : (histogramPrint (oneBin 2147483648) none).map (fun printed =>
      (printed.lowerci, printed.upperci, printed.prev.mybins 5)) = some (0, 10, 0) := by decide +kernel
  refine ⟨hprint, by decide +kernel, ?_⟩
  rintro ⟨printed, hprinted, hright⟩
  rw [hprinted, Option.map_some, Option.some.injEq, Prod.mk.injEq, Prod.mk.injEq] at hprint
  have hbin := hright.bins 5 (by decide)
  rw [hprint.2.2] at hbin
  revert hbin
  decide

/-! ## Counters without bounds -/

/-- The same counters, as numbers. -/
structure Counts (h' : Histogram) (h : Counters) : Prop where
  bincount : h'.bincount = h.bincount
  mybins : ∀ ix : Nat, h'.mybins ix = (h.mybins ix).toNat
  final : h'.final = h.final

/-- A print that is right leaves the copy that it would leave with counters of any size. -/
theorem RightPercentiles.copy_eq {h prev : Counters} {h' prev' : Histogram} {printed : Printed} (hh : Counts h' h)
    (hprev : Counts prev' prev) (hbefore : Before (copyOf h (some prev)) h)
    (hright : RightPercentiles h (copyOf h (some prev)) printed) {ix : Nat} (hix : ix < h.bincount) :
    (Report.histogramPrint h' (some prev')).2.mybins ix = (printed.prev.mybins ix).toNat := by
  -- the counter of the copy is zero or that of `prev`
  have hcopy : ((if h'.final then (some prev').map histogramClear else some prev').getD
      (histogramNew h'.bincount h'.binwidth h'.offset h'.units)).mybins ix =
        ((copyOf h (some prev)).mybins ix).toNat := by
    unfold copyOf
    rw [hh.final]
    cases h.final with
    | true => rfl
    | false => exact hprev.mybins ix
  have hle := hbefore.mybins ix hix
  rw [BitVec.le_def, ← hcopy] at hle
  have hbin := hh.mybins ix
  have hcount := hh.bincount
  rw [hright.bins ix hix, ← hbin]
  unfold Report.histogramPrint
  dsimp only
  generalize (if h'.final then (some prev').map histogramClear else some prev').getD
    (histogramNew h'.bincount h'.binwidth h'.offset h'.units) = copy' at hle ⊢
  split
  · rfl
  · rename_i hskip
    have hzero : ¬ (h'.mybins ix : Int) - copy'.mybins ix > 0 := fun hpos => hskip ⟨by omega, by omega, hpos⟩
    omega

end Iperf2.Report.Percentiles
