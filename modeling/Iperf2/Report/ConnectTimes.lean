import Iperf2.Report.Types
import Iperf2.Lib.Running

/-!
# Connect times

`reporter_update_connect_time` keeps the statistics of the connect times of a client. Its test for the first connect
time looks at the count before it is incremented and compares it with one, so the second connect time starts mean and
deviations anew.

* `connectTimes_of` : from the second one on mean and deviations are of a list in which it stands for the first one, too;
* `connectTimes_right_iff` : the statistics are right for a single connect time only.
-/

namespace Iperf2.Report
open Running

/-- `struct MeanMinMaxStats`, without `last` which nothing reads. -/
structure MeanMinMaxStats where
  max : Rat
  min : Rat
  sum : Rat
  mean : Rat
  m2 : Rat
  vd : Rat
  cnt : Int
  err : Int

/-- The connect times of `InitConnectOnlyReport`. -/
def initConnectTimes : MeanMinMaxStats where
  max := fltMin
  min := fltMax
  sum := 0
  mean := 0
  m2 := 0
  vd := 0
  cnt := 0
  err := 0

/-- `reporter_update_connect_time` -/
def reporterUpdateConnectTime (connectTimes : MeanMinMaxStats) (connectTime : Rat) : MeanMinMaxStats :=
  if connectTime > 0 then
    let cnt := connectTimes.cnt + 1
    let sum := connectTimes.sum + connectTime
    let connectTimes :=
      if connectTimes.cnt = 1 then
        { connectTimes with
          sum
          cnt
          vd := connectTime
          mean := connectTime
          m2 := connectTime * connectTime }
      else
        let vd := connectTime - connectTimes.mean
        let mean := connectTimes.mean + vd / cnt
        { connectTimes with
          sum
          cnt
          vd
          mean
          m2 := connectTimes.m2 + vd * (connectTime - mean) }
    { connectTimes with
      min := if connectTime < connectTimes.min then connectTime else connectTimes.min
      max := if connectTime > connectTimes.max then connectTime else connectTimes.max }
  else { connectTimes with err := connectTimes.err + 1 }

def MeanMinMaxStats.summary (connectTimes : MeanMinMaxStats) : Summary Rat where
  cnt := connectTimes.cnt
  sum := connectTimes.sum
  min := connectTimes.min
  max := connectTimes.max
  mean := connectTimes.mean
  m2 := connectTimes.m2

/-- The statistics after connect times. -/
def updateConnectTimes (connectTimes : MeanMinMaxStats) (times : List Rat) : MeanMinMaxStats :=
  times.foldl reporterUpdateConnectTime connectTimes

/-! ## One connect time -/

section
variable {connectTimes : MeanMinMaxStats} {x : Rat}

/-- Every connect time but the second one is one more sample. -/
theorem update_sample (hx : 0 < x) (hcnt : connectTimes.cnt ≠ 1) :
    (reporterUpdateConnectTime connectTimes x).summary = connectTimes.summary.add 1 x := by
  unfold reporterUpdateConnectTime
  rw [if_pos hx]
  simp only [if_neg hcnt, MeanMinMaxStats.summary, Summary.add, mul_one]
  rfl

/-- The second one starts mean and deviations as if both were the same. -/
theorem update_second {a b : Rat} (hb : 0 < b) (h : connectTimes.summary.Of 1 [a] [fltMax, a] [fltMin, a] [a] 0) :
    (reporterUpdateConnectTime connectTimes b).summary.Of 1 [a, b] [fltMax, a, b] [fltMin, a, b] [b, b] (b * b) := by
  have hcnt : connectTimes.cnt = 1 := h.cnt
  unfold reporterUpdateConnectTime
  rw [if_pos hb]
  simp only [if_pos hcnt]
  refine ⟨?_, ?_, isLeast_concat h.min b, isGreatest_concat h.max b, ?_, ?_⟩
  · simp [MeanMinMaxStats.summary, hcnt]
  · have hsum : connectTimes.sum = a := h.sum.trans List.sum_singleton
    simp [MeanMinMaxStats.summary, hsum]
  · simp [MeanMinMaxStats.summary, mean]
  · simp [MeanMinMaxStats.summary, mean, deviation]

end

/-! ## Runs -/

theorem initConnectTimes_of : initConnectTimes.summary.Of 1 [] [fltMax] [fltMin] [] 0 := .seeded fltMax fltMin

/-- From the second connect time on there is no exception any more. -/
theorem updateConnectTimes_summary (times : List Rat) {connectTimes : MeanMinMaxStats} (hpos : ∀ x ∈ times, 0 < x)
    (hcnt : 1 < connectTimes.cnt) :
    (updateConnectTimes connectTimes times).summary = times.foldl (Summary.add 1) connectTimes.summary := by
  induction times generalizing connectTimes with
  | nil => rfl
  | cons x times ih =>
    have hstep := update_sample (hpos x List.mem_cons_self) hcnt.ne'
    have hgrown : (reporterUpdateConnectTime connectTimes x).cnt = connectTimes.cnt + 1 :=
      congrArg Summary.cnt hstep
    rw [List.foldl_cons, ← hstep]
    apply ih
    · exact fun y hy => hpos y (List.mem_cons_of_mem x hy)
    · omega

/-- A single connect time. -/
theorem connectTimes_single {x : Rat} (hx : 0 < x) :
    (updateConnectTimes initConnectTimes [x]).summary.Of 1 [x] [fltMax, x] [fltMin, x] [x] 0 := by
  change (reporterUpdateConnectTime initConnectTimes x).summary.Of 1 _ _ _ _ _
  rw [update_sample hx (by decide)]
  exact initConnectTimes_of.add x

/-- Two and more connect times. -/
theorem connectTimes_of {a b : Rat} {times : List Rat} (hpos : ∀ x ∈ a :: b :: times, 0 < x) :
    (updateConnectTimes initConnectTimes (a :: b :: times)).summary.Of 1 (a :: b :: times)
      (fltMax :: a :: b :: times) (fltMin :: a :: b :: times) (b :: b :: times) (b * b) := by
  have ha : 0 < a := hpos a List.mem_cons_self
  have hb : 0 < b := hpos b (List.mem_cons_of_mem a List.mem_cons_self)
  have htimes : ∀ x ∈ times, 0 < x := fun x hx => hpos x (List.mem_cons_of_mem a (List.mem_cons_of_mem b hx))
  have hsecond := update_second hb (connectTimes_single ha)
  have hcnt : (updateConnectTimes initConnectTimes [a, b]).cnt = 2 := hsecond.cnt
  have hrest := updateConnectTimes_summary times htimes (lt_of_lt_of_eq one_lt_two hcnt.symm)
  change (updateConnectTimes (updateConnectTimes initConnectTimes [a, b]) times).summary.Of _ _ _ _ _ _
  rw [hrest]
  exact hsecond.foldl times

/-- Two and more connect times have wrong statistics: if the mean is right, then the deviations are too large. -/
theorem connectTimes_not_right {a b : Rat} {times : List Rat} (hpos : ∀ x ∈ a :: b :: times, 0 < x) :
    ¬ (updateConnectTimes initConnectTimes (a :: b :: times)).summary.Right 1 (a :: b :: times) := by
  have hof := connectTimes_of hpos
  have hb : 0 < b := hpos b (List.mem_cons_of_mem a List.mem_cons_self)
  intro hright
  have hab : a = b := by
    have hmean := hof.mean.symm.trans hright.mean
    simp only [mul_one, List.map_id'] at hmean
    simp only [mean, List.length_cons] at hmean
    have hlength : ((times.length + 1 + 1 : Nat) : Rat) ≠ 0 := Nat.cast_ne_zero.mpr (Nat.succ_ne_zero _)
    have hsum := (div_left_inj' hlength).mp hmean
    simp only [List.sum_cons] at hsum
    exact (add_right_cancel hsum).symm
  subst hab
  have hzero : a * a = 0 := (hof.right_iff.mp hright).2.2
  exact absurd (mul_self_eq_zero.mp hzero) hb.ne'

/-- **The statistics of the connect times** are right for a single one only (which `FLT_MIN` and `FLT_MAX` are on the
right sides of). -/
theorem connectTimes_right_iff (times : List Rat) (hne : times ≠ []) (hpos : ∀ x ∈ times, 0 < x) :
    (updateConnectTimes initConnectTimes times).summary.Right 1 times ↔
      ∃ x, times = [x] ∧ fltMin ≤ x ∧ x ≤ fltMax := by
  cases times with
  | nil => exact absurd rfl hne
  | cons a rest =>
    cases rest with
    | nil =>
      have hof := connectTimes_single (hpos a List.mem_cons_self)
      rw [hof.right_iff, isLeast_cons_iff hof.min, isGreatest_cons_iff hof.max]
      simp only [List.mem_singleton, exists_eq_left, and_true, List.cons.injEq, exists_eq_left']
      exact and_comm
    | cons b times =>
      constructor
      · exact fun hright => absurd hright (connectTimes_not_right hpos)
      · rintro ⟨x, hsingle, -⟩
        exact absurd (List.cons.inj hsingle).2 (List.cons_ne_nil b times)

theorem connectTimes_right_one : (updateConnectTimes initConnectTimes [1]).summary.Right 1 [1] :=
  (connectTimes_right_iff [1] (by decide) (by decide)).mpr ⟨1, rfl, by decide +kernel, by decide +kernel⟩

/-- Connect times of 1 and 3: the mean is 3 in place of 2. -/
theorem connectTimes_not_right_two : ¬ ∀ times : List Rat, times ≠ [] → (∀ x ∈ times, 0 < x) →
    (updateConnectTimes initConnectTimes times).summary.Right 1 times := by
  intro hall
  have hpos : ∀ x ∈ ([1, 3] : List Rat), 0 < x := by decide
  exact connectTimes_not_right hpos (hall [1, 3] (by decide) hpos)

end Iperf2.Report
