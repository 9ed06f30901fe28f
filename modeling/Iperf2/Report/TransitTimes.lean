import Iperf2.Report.Run
import Iperf2.Lib.Running

/-!
# Statistics of the transit times

`reporter_handle_packet_oneway_transit` keeps the statistics of all transit times of a flow and those of the current
interval. The first transit time of the flow sets both; a new interval starts from `FLT_MAX`, `FLT_MIN` and zeros.

* `totalTransit_right_iff` : the statistics of a flow are those of its transit times just if the first one is zero;
* `Tracks` : what the statistics of an interval are of; `Tracks.flowRun` : in every run of a UDP server;
* `intervalTransit_right_iff` : when an interval report shows the statistics of its transit times.
-/

namespace Iperf2.Report
open Running

/-- The transit time of a packet. -/
def ReportStruct.transit (packet : ReportStruct) : Rat := timeDifference packet.packetTime packet.sentTime

/-- Means and deviations are in microseconds. -/
def microseconds : Rat := 1000000

/-- The statistics of all transit times. -/
def TransitStats.total (t : TransitStats) : Summary Rat where
  cnt := t.totcntTransit
  sum := t.totsumTransit
  min := t.totminTransit
  max := t.totmaxTransit
  mean := t.totmeanTransit
  m2 := t.totm2Transit

/-- The statistics of the interval. -/
def TransitStats.interval (t : TransitStats) : Summary Rat where
  cnt := t.cntTransit
  sum := t.sumTransit
  min := t.minTransit
  max := t.maxTransit
  mean := t.meanTransit
  m2 := t.m2Transit

/-! ## One transit time -/

section
variable {t : TransitStats}

theorem update_total (h : t.totcntTransit ≠ 0) (x : Rat) : (t.update x).total = t.total.add microseconds x := by
  unfold TransitStats.update
  rw [if_neg h]
  rfl

theorem update_interval (h : t.totcntTransit ≠ 0) (x : Rat) :
    (t.update x).interval = t.interval.add microseconds x := by
  unfold TransitStats.update
  rw [if_neg h]
  rfl

/-- What the very first transit time sets. -/
def firstSummary (x : Rat) : Summary Rat where
  cnt := 1
  sum := x
  min := x
  max := x
  mean := x * microseconds
  m2 := x * microseconds * (x * microseconds)

theorem update_first (h : t.totcntTransit = 0) (x : Rat) :
    (t.update x).total = firstSummary x ∧ (t.update x).interval = firstSummary x := by
  unfold TransitStats.update
  rw [if_pos h]
  exact ⟨rfl, rfl⟩

/-- The deviations of the first transit time start from its square. -/
theorem firstSummary_of (x : Rat) :
    (firstSummary x).Of microseconds [x] [x] [x] [x] (x * microseconds * (x * microseconds)) where
  cnt := rfl
  sum := by simp [firstSummary]
  min := isLeast_seed x
  max := isGreatest_seed x
  mean := by simp [firstSummary, mean]
  m2 := by simp [firstSummary, mean, deviation]

/-- The statistics that the first transit time has set are right just if it is zero. -/
theorem first_right_iff {s : Summary Rat} {x : Rat} {xs : List Rat}
    (h : s.Of microseconds (x :: xs) (x :: xs) (x :: xs) (x :: xs) (x * microseconds * (x * microseconds))) :
    s.Right microseconds (x :: xs) ↔ x = 0 := by
  have hzero : x * microseconds * (x * microseconds) = 0 ↔ x = 0 := by
    rw [mul_self_eq_zero, mul_eq_zero]
    exact or_iff_left (by decide)
  rw [h.right_iff, hzero]
  exact ⟨fun hall => hall.2.2, fun hx => ⟨h.min, h.max, hx⟩⟩

end

/-! ## All transit times of a flow -/

/-- The statistics after packets with transit times. -/
def onewayTransits (stats : TransferInfo) (packets : List ReportStruct) : TransferInfo :=
  packets.foldl (fun stats packet => (reporterHandlePacketOnewayTransit stats packet).1) stats

/-- After the first one every transit time is one more sample. -/
theorem onewayTransits_total (packets : List ReportStruct) {stats : TransferInfo}
    (h : 0 < stats.transit.totcntTransit) :
    (onewayTransits stats packets).transit.total =
      (packets.map ReportStruct.transit).foldl (Summary.add microseconds) stats.transit.total := by
  induction packets generalizing stats with
  | nil => rfl
  | cons packet packets ih =>
    have hupdate := update_total h.ne' packet.transit
    have hpos : 0 < (stats.transit.update packet.transit).totcntTransit := by
      have hcnt := congrArg Summary.cnt hupdate
      simp only [TransitStats.total, Summary.add] at hcnt
      omega
    rw [List.map_cons, List.foldl_cons, ← hupdate]
    exact ih hpos

theorem onewayTransits_of {stats : TransferInfo} (h : stats.transit.totcntTransit = 0) (packet : ReportStruct)
    (packets : List ReportStruct) :
    let xs := (packet :: packets).map ReportStruct.transit
    (onewayTransits stats (packet :: packets)).transit.total.Of microseconds xs xs xs xs
      (packet.transit * microseconds * (packet.transit * microseconds)) := by
  have hfirst := (update_first h packet.transit).1
  have hcnt : (stats.transit.update packet.transit).totcntTransit = 1 := congrArg Summary.cnt hfirst
  have hrest : (onewayTransits (reporterHandlePacketOnewayTransit stats packet).1 packets).transit.total =
      (packets.map ReportStruct.transit).foldl (Summary.add microseconds)
        (stats.transit.update packet.transit).total :=
    onewayTransits_total packets (lt_of_lt_of_eq one_pos hcnt.symm)
  rw [hfirst] at hrest
  intro xs
  change (onewayTransits (reporterHandlePacketOnewayTransit stats packet).1 packets).transit.total.Of _ _ _ _ _ _
  rw [hrest]
  exact (firstSummary_of packet.transit).foldl (packets.map ReportStruct.transit)

/-- The final report shows the statistics of all transit times. -/
theorem finalValues_transit (stats : TransferInfo) :
    (finalValues .serverUdp stats).transit.interval = stats.transit.total := by
  simp only [finalValues, TransferProtocolHandler.parts, serverUdpParts, if_true]
  rw [partialReport_ite]
  rfl

/-- **The statistics of all transit times** are those of the samples just if the first one is zero, and so are those of
the final report. -/
theorem totalTransit_right_iff {stats : TransferInfo} (h : stats.transit.totcntTransit = 0) (packet : ReportStruct)
    (packets : List ReportStruct) :
    let after := onewayTransits stats (packet :: packets)
    let xs := (packet :: packets).map ReportStruct.transit
    (after.transit.total.Right microseconds xs ↔ packet.transit = 0) ∧
      ((finalValues .serverUdp after).transit.interval.Right microseconds xs ↔ packet.transit = 0) := by
  intro after xs
  have htotal : after.transit.total.Right microseconds xs ↔ packet.transit = 0 :=
    first_right_iff (onewayTransits_of h packet packets)
  refine ⟨htotal, ?_⟩
  rw [finalValues_transit]
  exact htotal

/-- A packet that was received one second after it was sent. -/
def secondPacket : ReportStruct :=
  { (default : ReportStruct) with
    packetID := 1
    packetTime := ⟨1, 0⟩ }

theorem totalTransit_right_zero :
    (onewayTransits default [default, secondPacket]).transit.total.Right microseconds
      ([default, secondPacket].map ReportStruct.transit) :=
  (totalTransit_right_iff rfl default [secondPacket]).1.mpr (by decide +kernel)

/-- One sample of a second has no deviation, but the code keeps its square. -/
theorem totalTransit_not_right : ¬ ∀ packets : List ReportStruct, packets ≠ [] →
    (onewayTransits default packets).transit.total.Right microseconds (packets.map ReportStruct.transit) := by
  intro hall
  have hzero : secondPacket.transit = 0 :=
    (first_right_iff (onewayTransits_of rfl secondPacket [])).mp (hall [secondPacket] (List.cons_ne_nil _ _))
  exact absurd hzero (by decide +kernel)

/-! ## Intervals -/

/-- The transit times of a flow: those before its last interval report, and those since. -/
structure Samples where
  before : List Rat
  since : List Rat
  deriving DecidableEq

/-- The packets with a transit time are those with an id, but for empty reports that no packet of the interval is in
front of. -/
def Samples.step (s : Samples) : FlowEvent → Samples
  | .packet packet =>
    if packet.emptyreport ∧ s.since = [] then s
    else if packet.packetID > 0 then { s with since := s.since ++ [packet.transit] }
    else s
  | .tcpistats _ => s
  | .interval => ⟨s.before ++ s.since, []⟩
  | .clock _ => s

def samples (events : List FlowEvent) : Samples := events.foldl Samples.step ⟨[], []⟩

/-- What the statistics of an interval are of. -/
structure TransitStats.Tracks (t : TransitStats) (s : Samples) : Prop where
  totcnt : t.totcntTransit = (s.before ++ s.since).length
  cnt : t.cntTransit = s.since.length
  /-- the interval of the very first transit time -/
  first : ∀ x xs, s.before = [] → s.since = x :: xs →
    t.interval.Of microseconds s.since s.since s.since s.since (x * microseconds * (x * microseconds))
  later : s.before ≠ [] →
    t.interval.Of microseconds s.since (fltMax :: s.since) (fltMin :: s.since) s.since 0

section
variable {t : TransitStats} {s : Samples}

/-- A new interval. -/
theorem resetInterval_of (t : TransitStats) :
    t.resetInterval.interval.Of microseconds [] [fltMax] [fltMin] [] 0 := .seeded fltMax fltMin

theorem clearInterval_eq (h : t.cntTransit = 0) : t.clearInterval = t.resetInterval := by
  simp only [TransitStats.resetInterval, TransitStats.clearInterval, h]

theorem TransitStats.Tracks.reset (h : t.Tracks s) : t.resetInterval.Tracks ⟨s.before ++ s.since, []⟩ where
  totcnt := by
    rw [List.append_nil]
    exact h.totcnt
  cnt := rfl
  first := fun x xs _ hnil => absurd hnil.symm (List.cons_ne_nil x xs)
  later := fun _ => resetInterval_of t

/-- An empty report in an interval without samples. -/
theorem TransitStats.Tracks.clear (h : t.Tracks s) (hsince : s.since = []) : t.clearInterval.Tracks s where
  totcnt := h.totcnt
  cnt := h.cnt
  first := fun x xs _ hcons => absurd (hcons.symm.trans hsince) (List.cons_ne_nil x xs)
  later := fun _ => by
    have hcnt : t.cntTransit = 0 := by
      rw [h.cnt, hsince]
      rfl
    rw [hsince, clearInterval_eq hcnt]
    exact resetInterval_of t

/-- The very first sample. -/
theorem TransitStats.Tracks.updateFirst (h : t.Tracks ⟨[], []⟩) (x : Rat) : (t.update x).Tracks ⟨[], [x]⟩ := by
  obtain ⟨htotal, hinterval⟩ := update_first h.totcnt x
  have htotcnt : (t.update x).totcntTransit = 1 := congrArg Summary.cnt htotal
  have hcnt : (t.update x).cntTransit = 1 := congrArg Summary.cnt hinterval
  refine ⟨htotcnt, hcnt, ?_, ?_⟩
  · intro y ys _ hcons
    obtain ⟨rfl, -⟩ := List.cons.inj hcons
    rw [hinterval]
    exact firstSummary_of x
  · intro hne
    exact absurd rfl hne

/-- A sample after others. -/
theorem TransitStats.Tracks.updateNext (h : t.Tracks s) (hsome : s.before ++ s.since ≠ []) (x : Rat) :
    (t.update x).Tracks { s with since := s.since ++ [x] } := by
  have hpos : t.totcntTransit ≠ 0 := by
    rw [h.totcnt]
    have := List.length_pos_iff.mpr hsome
    omega
  have hinterval := update_interval hpos x
  have htotcnt : (t.update x).totcntTransit = t.totcntTransit + 1 := congrArg Summary.cnt (update_total hpos x)
  have hcnt : (t.update x).cntTransit = t.cntTransit + 1 := congrArg Summary.cnt hinterval
  refine ⟨?_, ?_, ?_, ?_⟩
  · have hlength : (s.before ++ (s.since ++ [x])).length = (s.before ++ s.since).length + 1 := by
      rw [← List.append_assoc]
      exact List.length_append
    rw [htotcnt, h.totcnt, hlength]
    rfl
  · rw [hcnt, h.cnt, List.length_append, List.length_singleton]
    rfl
  · intro y ys hbefore hcons
    rw [hinterval]
    cases hsince : s.since with
    | nil => exact absurd (by rw [hbefore, hsince]; rfl) hsome
    | cons z zs =>
      obtain ⟨rfl, -⟩ : z = y ∧ zs ++ [x] = ys := by
        simpa only [hsince, List.cons_append, List.cons.injEq] using hcons
      rw [← hsince]
      exact (h.first z zs hbefore hsince).add x
  · intro hne
    rw [hinterval]
    exact (h.later hne).add x

theorem TransitStats.Tracks.update (h : t.Tracks s) (x : Rat) :
    (t.update x).Tracks { s with since := s.since ++ [x] } := by
  by_cases hnone : s.before ++ s.since = []
  · obtain ⟨before, since⟩ := s
    obtain ⟨rfl, rfl⟩ := List.append_eq_nil_iff.mp hnone
    exact h.updateFirst x
  · exact h.updateNext hnone x

end

/-! ### Runs of a UDP server -/

section
variable {stats : TransferInfo} {s : Samples}

/-- What a packet does to the statistics of the transit times. -/
theorem handlePacketServerUdp_transit (stats : TransferInfo) (packet : ReportStruct) :
    (reporterHandlePacketServerUdp stats packet).transit =
      if packet.emptyreport ∧ stats.transit.cntTransit = 0 then stats.transit.clearInterval
      else if packet.packetID > 0 then stats.transit.update packet.transit
      else stats.transit := by
  unfold reporterHandlePacketServerUdp
  simp only
  split_ifs <;> rfl

theorem Tracks.step (h : stats.transit.Tracks s) (e : FlowEvent) :
    (flowStep .serverUdp stats e).transit.Tracks (s.step e) := by
  cases e with
  | packet packet =>
    have hcnt : stats.transit.cntTransit = 0 ↔ s.since = [] := by
      rw [h.cnt, Int.natCast_eq_zero, List.length_eq_zero_iff]
    simp only [flowStep, TransferProtocolHandler.packetHandler, PacketHandler.handle, Samples.step]
    rw [handlePacketServerUdp_transit]
    simp only [hcnt]
    split_ifs with hempty hid
    · exact h.clear hempty.2
    · exact h.update packet.transit
    · exact h
  | tcpistats packet =>
    have htransit : (handleTcpistats stats packet).transit = stats.transit := by
      unfold handleTcpistats
      split_ifs <;> rfl
    simp only [flowStep, htransit]
    exact h
  | interval => exact h.reset
  | clock ts => exact h

theorem Tracks.flowRun (h : stats.transit.Tracks s) (events : List FlowEvent) :
    (flowRun .serverUdp stats events).transit.Tracks (events.foldl Samples.step s) := by
  induction events generalizing stats s with
  | nil => exact h
  | cons e events ih => exact ih (Tracks.step h e)

theorem Tracks.fresh (h : stats.transit = default) : stats.transit.Tracks ⟨[], []⟩ where
  totcnt := by
    rw [h]
    rfl
  cnt := by
    rw [h]
    rfl
  first := fun x xs _ hnil => absurd hnil.symm (List.cons_ne_nil x xs)
  later := fun hne => absurd rfl hne

theorem Tracks.right_iff (h : stats.transit.Tracks s) :
    stats.transit.interval.Right microseconds s.since ↔
      if s.before = [] then s.since.head? = some 0
      else (∃ x ∈ s.since, x ≤ fltMax) ∧ ∃ x ∈ s.since, fltMin ≤ x := by
  split_ifs with hbefore
  · cases hsince : s.since with
    | nil => exact ⟨fun hright => absurd hright.min.1 List.not_mem_nil, fun hhead => absurd hhead (Option.some_ne_none _).symm⟩
    | cons x xs =>
      have hof := h.first x xs hbefore hsince
      rw [hsince] at hof
      rw [first_right_iff hof, List.head?_cons, Option.some.injEq]
  · have hof := h.later hbefore
    rw [hof.right_iff, isLeast_cons_iff hof.min, isGreatest_cons_iff hof.max]
    exact ⟨fun hall => ⟨hall.1, hall.2.1⟩, fun hall => ⟨hall.1, hall.2, rfl⟩⟩

end

section
variable (inSettings : Settings) (groupSumReport fullDuplexReport : Option SumReport)

theorem tracks_samples (events : List FlowEvent) :
    (flowRun .serverUdp (initIndividualReport inSettings groupSumReport fullDuplexReport).info events).transit.Tracks
      (samples events) :=
  Tracks.flowRun (Tracks.fresh rfl) events

/-- **The interval statistics.** In the first interval with samples they are right just if the very first sample is
zero, in a later one just if some sample is not below `FLT_MIN` (and some not above `FLT_MAX`). -/
theorem intervalTransit_right_iff (events : List FlowEvent) :
    let stats := (initIndividualReport inSettings groupSumReport fullDuplexReport).info
    let s := samples events
    (intervalValues .serverUdp (flowRun .serverUdp stats events)).transit.interval.Right microseconds s.since ↔
      if s.before = [] then s.since.head? = some 0
      else (∃ x ∈ s.since, x ≤ fltMax) ∧ ∃ x ∈ s.since, fltMin ≤ x :=
  Tracks.right_iff (tracks_samples inSettings groupSumReport fullDuplexReport events)

/-- A packet of a sender whose clock is a second ahead. -/
def aheadPacket : ReportStruct :=
  { (default : ReportStruct) with
    packetID := 2
    sentTime := ⟨1, 0⟩ }

/-- After a report, an interval with one negative sample has the maximum `FLT_MIN`. -/
theorem intervalTransit_not_right : ¬ ∀ events : List FlowEvent, (samples events).since ≠ [] →
    (intervalValues .serverUdp
      (flowRun .serverUdp (initIndividualReport default none none).info events)).transit.interval.Right microseconds
        (samples events).since := by
  intro hall
  let events : List FlowEvent := [.packet secondPacket, .interval, .packet aheadPacket]
  have hsamples : samples events = ⟨[1], [-1]⟩ := by decide +kernel
  have hright := hall events (by rw [hsamples]; exact List.cons_ne_nil _ _)
  have hiff := Tracks.right_iff (tracks_samples default none none events)
  rw [hsamples] at hiff hright
  obtain ⟨-, x, hx, hle⟩ := hiff.mp hright
  rw [List.mem_singleton.mp hx] at hle
  exact absurd hle (by decide +kernel)

end

end Iperf2.Report
