import Iperf2.Report.Catchup
import Iperf2.Lib.Tiling

/-!
# The grid of report times

`reporter_set_timestamps_time` ends an interval at `nextTime`, which `TimeAdd` moves on by the interval, and starts the
next one where it ended; the partial interval at the end of the traffic goes on to the last packet. `TimeAdd` carries
when the microseconds are more than a million, and leaves a whole million as it is.

* `Grid.step` : the grid after one more interval;
* `report_grid` : when all times of the grid are normalised and the intervals cover the time of the traffic.
-/

namespace Iperf2.Report
open Tiling

/-! ## Normalised times -/

/-- `SMALLEST_INTERVAL`, which depends on `HAVE_FASTSAMPLING`. -/
def smallestInterval (fastsampling : Bool) : Int := if fastsampling then 100 else 5000

def Timeval.Normalised (t : Timeval) : Prop := 0 ≤ t.usec ∧ t.usec < rMillion

/-- A time in microseconds. -/
def Timeval.micros (t : Timeval) : Int := t.sec * rMillion + t.usec

theorem timeDouble_micros (t : Timeval) : timeDouble t = t.micros / rMillion := by
  simp only [timeDouble, Timeval.micros, rMillion]
  push_cast
  ring

/-- The microseconds that `TimeAdd` leaves of a sum: a whole million is not carried. -/
def carried (usec added : Int) : Int := if added ≠ 0 ∧ usec % rMillion = 0 then rMillion else usec % rMillion

theorem carried_cases (usec added : Int) :
    (added ≠ 0 ∧ usec % 1000000 = 0 ∧ carried usec added = 1000000) ∨
      ((added = 0 ∨ usec % 1000000 ≠ 0) ∧ carried usec added = usec % 1000000) := by
  by_cases hwhole : added ≠ 0 ∧ usec % rMillion = 0
  · exact .inl ⟨hwhole.1, hwhole.2, if_pos hwhole⟩
  · refine .inr ⟨?_, if_neg hwhole⟩
    by_contra hboth
    rw [not_or, not_not] at hboth
    exact hwhole ⟨hboth.1, hboth.2⟩

theorem timeAdd_usec (left right : Timeval) :
    (timeAdd left right).usec =
      if left.usec + right.usec > 1000000 then left.usec + right.usec - 1000000 else left.usec + right.usec :=
  apply_ite Timeval.usec _ _ _

theorem timeAdd_first {t interval : Timeval} (ht : t.Normalised) (hinterval : interval.Normalised) :
    (timeAdd t interval).usec = carried (t.usec + interval.usec) interval.usec := by
  obtain ⟨hlow, hhigh⟩ := ht
  obtain ⟨hlow', hhigh'⟩ := hinterval
  simp only [rMillion] at hhigh hhigh'
  rw [timeAdd_usec]
  rcases carried_cases (t.usec + interval.usec) interval.usec with ⟨hne, hwhole, heq⟩ | ⟨hrest, heq⟩
  · rw [heq]
    split <;> omega
  · rw [heq]
    split <;> omega

theorem timeAdd_carried {t interval : Timeval} {usec : Int} (ht : t.usec = carried usec interval.usec)
    (hinterval : interval.Normalised) :
    (timeAdd t interval).usec = carried (usec + interval.usec) interval.usec := by
  obtain ⟨hlow, hhigh⟩ := hinterval
  simp only [rMillion] at hhigh
  have hbefore := carried_cases usec interval.usec
  have hafter := carried_cases (usec + interval.usec) interval.usec
  rw [← ht] at hbefore
  rw [timeAdd_usec]
  split <;> omega

/-- The microseconds are normalised unless a whole million was left. -/
theorem carried_lt (usec added : Int) :
    (0 ≤ carried usec added ∧ carried usec added < rMillion) ↔ added = 0 ∨ usec % rMillion ≠ 0 := by
  have hcases := carried_cases usec added
  simp only [rMillion]
  omega

theorem timeAdd_micros (left right : Timeval) : (timeAdd left right).micros = left.micros + right.micros := by
  simp only [timeAdd, Timeval.micros]
  split
  · simp only [rMillion]
    ring
  · ring

/-! ## Steps -/

/-- The times of an interval report, when the report has this packet time. -/
def intervalStep (ts : ReportTimeStamps) (packetTime : Timeval) : ReportTimeStamps :=
  reporterSetTimestampsTime { ts with packetTime } .interval

def intervalSteps (ts : ReportTimeStamps) (packetTimes : List Timeval) : ReportTimeStamps :=
  packetTimes.foldl intervalStep ts

/-- The times of the partial report at the end. -/
def closingStep (ts : ReportTimeStamps) (packetTime : Timeval) : ReportTimeStamps :=
  reporterSetTimestampsTime { ts with packetTime } .finalpartialStamp

/-- The bounds that a report shows. -/
def bounds (ts : ReportTimeStamps) : Rat × Rat := (ts.iStart, ts.iEnd)

def intervalBounds (ts : ReportTimeStamps) : List Timeval → List (Rat × Rat)
  | [] => []
  | packetTime :: rest => bounds (intervalStep ts packetTime) :: intervalBounds (intervalStep ts packetTime) rest

/-- The bounds of all interval reports and of the partial one. -/
def reportBounds (ts : ReportTimeStamps) (packetTimes : List Timeval) (last : Timeval) : List (Rat × Rat) :=
  intervalBounds ts packetTimes ++ [bounds (closingStep (intervalSteps ts packetTimes) last)]

/-- The times after `n` intervals. -/
structure Grid (startTime intervalTime : Timeval) (n : Nat) (ts : ReportTimeStamps) : Prop where
  starts : ts.startTime = startTime
  length : ts.intervalTime = intervalTime
  iEnd : ts.iEnd = n * timeDouble intervalTime
  next : ts.nextTime.micros = startTime.micros + (n + 1) * intervalTime.micros
  usec : ts.nextTime.usec = carried (startTime.usec + (n + 1) * intervalTime.usec) intervalTime.usec

section
variable {startTime intervalTime : Timeval} {n : Nat} {ts : ReportTimeStamps}

/-- The traffic starts on the grid. -/
theorem Grid.start (hstart : startTime.Normalised) (hinterval : intervalTime.Normalised)
    (hpos : 0 < intervalTime.micros) (threadMode : ThreadMode) (hlength : ts.intervalTime = intervalTime)
    (hend : ts.iEnd = 0) : Grid startTime intervalTime 0 (setReportStartTime threadMode startTime ts) := by
  have hnonzero : timeZero ts.intervalTime = false := by
    by_contra hzero
    simp only [Bool.not_eq_false, timeZero, Bool.and_eq_true, beq_iff_eq] at hzero
    rw [Timeval.micros, ← hlength, hzero.1, hzero.2] at hpos
    simp at hpos
  have hnext : (setReportStartTime threadMode startTime ts).nextTime = timeAdd startTime intervalTime := by
    rw [← hlength]
    simp only [setReportStartTime, hnonzero, Bool.false_eq_true, if_false]
  refine ⟨rfl, hlength, ?_, ?_, ?_⟩
  · simp [setReportStartTime, hend]
  · rw [hnext, timeAdd_micros]
    simp
  · rw [hnext, timeAdd_first hstart hinterval]
    simp

theorem Grid.nextTime (h : Grid startTime intervalTime n ts) :
    timeDouble ts.nextTime = timeDouble startTime + (n + 1) * timeDouble intervalTime := by
  rw [timeDouble_micros, timeDouble_micros, timeDouble_micros, h.next]
  push_cast
  ring

/-- **One interval.** -/
theorem Grid.step (h : Grid startTime intervalTime n ts) (hinterval : intervalTime.Normalised) {packetTime : Timeval}
    (hbegun : timeDouble startTime ≤ timeDouble packetTime) :
    Grid startTime intervalTime (n + 1) (intervalStep ts packetTime) ∧
      bounds (intervalStep ts packetTime) =
        (n * timeDouble intervalTime, ((n + 1 : Nat) : Rat) * timeDouble intervalTime) := by
  have hnot : ¬ timeDifference packetTime ts.startTime < 0 := by
    rw [timeDifference_eq, h.starts]
    linarith
  have hstep : intervalStep ts packetTime = { ts with
      packetTime
      iStart := ts.iEnd
      iEnd := timeDifference ts.nextTime ts.startTime
      nextTime := timeAdd ts.nextTime ts.intervalTime } := by
    simp only [intervalStep, reporterSetTimestampsTime, if_neg hnot]
  have hlength : timeDifference ts.nextTime ts.startTime = ((n + 1 : Nat) : Rat) * timeDouble intervalTime := by
    rw [timeDifference_eq, h.nextTime, h.starts]
    push_cast
    ring
  rw [hstep]
  refine ⟨⟨h.starts, h.length, hlength, ?_, ?_⟩, ?_⟩
  · show (timeAdd ts.nextTime ts.intervalTime).micros = _
    rw [timeAdd_micros, h.next, h.length]
    push_cast
    ring
  · show (timeAdd ts.nextTime ts.intervalTime).usec = _
    rw [h.length, timeAdd_carried h.usec hinterval]
    congr 1
    push_cast
    ring
  · rw [bounds, hlength, h.iEnd]

/-- **All intervals.** -/
theorem Grid.steps (h : Grid startTime intervalTime n ts) (hinterval : intervalTime.Normalised)
    (hpos : 0 < timeDouble intervalTime) {packetTimes : List Timeval}
    (hbegun : ∀ t ∈ packetTimes, timeDouble startTime ≤ timeDouble t) :
    Grid startTime intervalTime (n + packetTimes.length) (intervalSteps ts packetTimes) ∧
      Tiles (n * timeDouble intervalTime) (intervalBounds ts packetTimes)
        (((n + packetTimes.length : Nat) : Rat) * timeDouble intervalTime) := by
  induction packetTimes generalizing ts n with
  | nil => exact ⟨h, rfl, fun p hp => by cases hp⟩
  | cons packetTime rest ih =>
    obtain ⟨hgrid, hbounds⟩ := h.step hinterval (hbegun packetTime List.mem_cons_self)
    obtain ⟨hrest, htiles⟩ := ih hgrid fun t ht => hbegun t (List.mem_cons_of_mem packetTime ht)
    have hcount : n + 1 + rest.length = n + (packetTime :: rest).length := by
      rw [List.length_cons]
      omega
    rw [hcount] at hrest htiles
    refine ⟨hrest, ⟨?_, ?_⟩, fun p hp => ?_⟩
    · rw [hbounds]
    · rw [hbounds]
      exact htiles.linked
    · rcases List.mem_cons.mp hp with rfl | hp
      · rw [hbounds]
        push_cast
        linarith
      · exact htiles.forward p hp

theorem Grid.closing (h : Grid startTime intervalTime n ts) {last : Timeval}
    (hbegun : timeDouble startTime ≤ timeDouble last) :
    bounds (closingStep ts last) = (n * timeDouble intervalTime, timeDifference last startTime) := by
  have hnot : ¬ timeDifference last ts.startTime < 0 := by
    rw [timeDifference_eq, h.starts]
    linarith
  have hstep : closingStep ts last = { ts with
      packetTime := last
      iStart := ts.iEnd
      iEnd := timeDifference last ts.startTime } := by
    simp only [closingStep, reporterSetTimestampsTime, if_neg hnot]
  rw [hstep, bounds, h.iEnd, h.starts]

end

/-! ## The grid of a run -/

/-- The times of the reports are those of the grid, every interval starts where the one before it ended, and they cover
the traffic. -/
structure OnGrid (startTime intervalTime : Timeval) (ts : ReportTimeStamps) (packetTimes : List Timeval)
    (last : Timeval) : Prop where
  next : ∀ n ≤ packetTimes.length,
    timeDouble (intervalSteps ts (packetTimes.take n)).nextTime =
      timeDouble startTime + (n + 1) * timeDouble intervalTime
  normalised : ∀ n ≤ packetTimes.length, (intervalSteps ts (packetTimes.take n)).nextTime.Normalised
  linked : Linked 0 (reportBounds ts packetTimes last) (timeDifference last startTime)
  covers : Covers 0 (reportBounds ts packetTimes last) (timeDifference last startTime)

/-- Every interval report is made by a packet after the end of its interval. -/
def Crossed (ts : ReportTimeStamps) (packetTimes : List Timeval) : Prop :=
  ∀ n, ∀ _ : n < packetTimes.length,
    timeDouble (intervalSteps ts (packetTimes.take n)).nextTime < timeDouble packetTimes[n]

section
variable {startTime intervalTime : Timeval} {ts : ReportTimeStamps} {packetTimes : List Timeval} {last : Timeval}

theorem take_begun (hbegun : ∀ t ∈ packetTimes, timeDouble startTime ≤ timeDouble t) (n : Nat) :
    ∀ t ∈ packetTimes.take n, timeDouble startTime ≤ timeDouble t :=
  fun t ht => hbegun t (List.mem_of_mem_take ht)

/-- The grid after the first intervals. -/
theorem Grid.take (h : Grid startTime intervalTime 0 ts) (hinterval : intervalTime.Normalised)
    (hpos : 0 < timeDouble intervalTime) (hbegun : ∀ t ∈ packetTimes, timeDouble startTime ≤ timeDouble t) {n : Nat}
    (hn : n ≤ packetTimes.length) : Grid startTime intervalTime n (intervalSteps ts (packetTimes.take n)) := by
  have hgrid := (h.steps hinterval hpos (take_begun hbegun n)).1
  rwa [List.length_take, Nat.min_eq_left hn, Nat.zero_add] at hgrid

/-- Packets after the intervals that they report, none of them later than the last one. -/
theorem Grid.closes (h : Grid startTime intervalTime 0 ts) (hinterval : intervalTime.Normalised)
    (hpos : 0 < timeDouble intervalTime) (hbegun : ∀ t ∈ packetTimes, timeDouble startTime ≤ timeDouble t)
    (hlast : timeDouble startTime ≤ timeDouble last) (hcrossed : Crossed ts packetTimes)
    (hsorted : ∀ t ∈ packetTimes, timeDouble t ≤ timeDouble last) :
    timeDouble startTime + packetTimes.length * timeDouble intervalTime ≤ timeDouble last := by
  rcases Nat.eq_zero_or_pos packetTimes.length with hnone | hsome
  · rw [hnone, Nat.cast_zero, zero_mul, add_zero]
    exact hlast
  · -- the last interval report was made by a packet after its interval
    obtain ⟨n, hn⟩ : ∃ n, packetTimes.length = n + 1 := ⟨packetTimes.length - 1, by omega⟩
    have hlt : n < packetTimes.length := by omega
    have hafter := hcrossed n hlt
    rw [(h.take hinterval hpos hbegun hlt.le).nextTime] at hafter
    have hbefore := hsorted _ (List.getElem_mem hlt)
    rw [hn]
    push_cast
    linarith

/-- **The grid of report times.** For every start and every interval, normalised, and interval reports and a partial
report that are made from packets after the start: the times are on the grid just if no sum of microseconds is a whole
million that the interval brings about, and the last packet is not before the end of the last interval. It is not if
every interval report is made by a packet after the interval and none of these is later than the last one. -/
theorem report_grid (fastsampling : Bool) (threadMode : ThreadMode) (hstart : startTime.Normalised)
    (hinterval : intervalTime.Normalised) (hsmallest : smallestInterval fastsampling ≤ intervalTime.micros)
    (hlength : ts.intervalTime = intervalTime) (hend : ts.iEnd = 0)
    (hbegun : ∀ t ∈ packetTimes ++ [last], timeDouble startTime ≤ timeDouble t) :
    let started := setReportStartTime threadMode startTime ts
    let closes := timeDouble startTime + packetTimes.length * timeDouble intervalTime ≤ timeDouble last
    (OnGrid startTime intervalTime started packetTimes last ↔
        (∀ n : Nat, n ≤ packetTimes.length →
          intervalTime.usec = 0 ∨ (startTime.usec + (n + 1) * intervalTime.usec) % rMillion ≠ 0) ∧ closes) ∧
      (Crossed started packetTimes → (∀ t ∈ packetTimes, timeDouble t ≤ timeDouble last) → closes) := by
  intro started closes
  have hmicros : 0 < intervalTime.micros := by
    refine lt_of_lt_of_le ?_ hsmallest
    cases fastsampling <;> decide
  have hpos : 0 < timeDouble intervalTime := by
    have hmicros' : (0 : Rat) < intervalTime.micros := by exact_mod_cast hmicros
    rw [timeDouble_micros]
    simp only [rMillion]
    positivity
  have hpackets : ∀ t ∈ packetTimes, timeDouble startTime ≤ timeDouble t :=
    fun t ht => hbegun t (List.mem_append_left _ ht)
  have hlast : timeDouble startTime ≤ timeDouble last :=
    hbegun last (List.mem_append_right _ (List.mem_singleton_self last))
  have hgrid : Grid startTime intervalTime 0 started := .start hstart hinterval hmicros threadMode hlength hend
  obtain ⟨hall, htiles⟩ := hgrid.steps hinterval hpos hpackets
  rw [Nat.zero_add] at hall htiles
  have hclosing : reportBounds started packetTimes last = intervalBounds started packetTimes ++
      [(packetTimes.length * timeDouble intervalTime, timeDifference last startTime)] := by
    rw [reportBounds, hall.closing hlast]
  rw [Nat.cast_zero, zero_mul] at htiles
  have hcloses : closes ↔ packetTimes.length * timeDouble intervalTime ≤ timeDifference last startTime := by
    rw [timeDifference_eq]
    simp only [closes]
    constructor <;> intro h <;> linarith
  refine ⟨⟨?_, ?_⟩, fun hcrossed hsorted => ?_⟩
  · intro hon
    constructor
    · intro n hn
      have hnormal := hon.normalised n hn
      rw [Timeval.Normalised, (hgrid.take hinterval hpos hpackets hn).usec] at hnormal
      exact (carried_lt _ _).mp hnormal
    · rw [hcloses]
      by_contra hlate
      have hcovers := hon.covers
      rw [hclosing] at hcovers
      refine not_covers_of_lt htiles ?_ (not_le.mp hlate) hcovers
      rw [timeDifference_eq]
      linarith
  · rintro ⟨hwhole, hclosed⟩
    refine ⟨fun n hn => ?_, fun n hn => ?_, ?_, ?_⟩
    · exact (hgrid.take hinterval hpos hpackets hn).nextTime
    · rw [Timeval.Normalised, (hgrid.take hinterval hpos hpackets hn).usec]
      exact (carried_lt _ _).mpr (hwhole n hn)
    · rw [hclosing]
      exact htiles.linked.append (linked_single _ _)
    · rw [hclosing]
      refine (htiles.append ⟨linked_single _ _, fun p hp => ?_⟩).covers
      rw [List.mem_singleton.mp hp]
      exact hcloses.mp hclosed
  · exact hgrid.closes hinterval hpos hpackets hlast hcrossed hsorted

end

/-! A flow that starts at half a second, with a report every half second. -/

def halfSeconds : ReportTimeStamps := { (default : ReportTimeStamps) with intervalTime := ⟨0, 500000⟩ }

/-- A start a microsecond later has no whole million. -/
theorem report_grid_half :
    OnGrid ⟨10, 500001⟩ ⟨0, 500000⟩ (setReportStartTime .server ⟨10, 500001⟩ halfSeconds) [⟨11, 100000⟩] ⟨11, 200000⟩ := by
  have hbegun : ∀ t ∈ [(⟨11, 100000⟩ : Timeval)] ++ [⟨11, 200000⟩], timeDouble ⟨10, 500001⟩ ≤ timeDouble t := by
    decide +kernel
  have hstart : Timeval.Normalised ⟨10, 500001⟩ := ⟨by decide, by decide⟩
  have hinterval : Timeval.Normalised ⟨0, 500000⟩ := ⟨by decide, by decide⟩
  have hlength : halfSeconds.intervalTime = ⟨0, 500000⟩ := rfl
  have hgrid := report_grid false .server hstart hinterval (by decide) hlength rfl hbegun
  refine hgrid.1.mpr ⟨fun n hn => ?_, by decide +kernel⟩
  have hcases : n = 0 ∨ n = 1 := by
    rw [List.length_singleton] at hn
    omega
  rcases hcases with rfl | rfl <;> decide

/-- The end of the first interval is a million microseconds. -/
theorem report_grid_not_normalised :
    (setReportStartTime .server ⟨10, 500000⟩ halfSeconds).nextTime = ⟨10, 1000000⟩ ∧
      ¬ OnGrid ⟨10, 500000⟩ ⟨0, 500000⟩ (setReportStartTime .server ⟨10, 500000⟩ halfSeconds) [] ⟨10, 900000⟩ := by
  refine ⟨by decide, fun hon => ?_⟩
  exact absurd (hon.normalised 0 (le_refl 0)).2 (by decide)

end Iperf2.Report
