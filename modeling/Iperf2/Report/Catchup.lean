import Iperf2.Report.Run
import Mathlib.Algebra.Order.Floor.Ring
import Mathlib.Algebra.Order.Ring.Rat
import Mathlib.Data.List.Induction
import Mathlib.Data.Rat.Floor
import Mathlib.Tactic.FieldSimp
import Mathlib.Tactic.Linarith
import Mathlib.Tactic.Ring

/-!
# The interval that a packet is accounted in

A packet after the end of the interval makes the interval report first, then the reports that were missed, and is
accounted last. The reports are made by `nextTime < packetTime`, the missed ones as long as `nextTime` is more than an
interval before the packet, so they stop one interval too early.

* `missedReports_spec` : the loop of missed reports ends, and where;
* `timeInterval_spec` : the end of the interval after the reports of a packet;
* `packet_interval` : a packet is accounted in its own interval just if it comes at most an interval after the end of
  the one that is open.
-/

namespace Iperf2.Report

/-! ## Times -/

theorem timeDifference_eq (left right : Timeval) : timeDifference left right = timeDouble left - timeDouble right := by
  simp only [timeDifference, timeDouble]
  push_cast
  ring

@[simp] theorem timeDouble_timeAdd (left right : Timeval) :
    timeDouble (timeAdd left right) = timeDouble left + timeDouble right := by
  simp only [timeAdd]
  split
  · simp only [timeDouble, rMillion]
    push_cast
    ring
  · simp only [timeDouble]
    push_cast
    ring

/-- The clock of a report, and whether it is printed. -/
structure Clock where
  startTime : Timeval
  intervalTime : Timeval
  nextTime : Timeval
  printable : Bool

def TransferInfo.clock (stats : TransferInfo) : Clock where
  startTime := stats.ts.startTime
  intervalTime := stats.ts.intervalTime
  nextTime := stats.ts.nextTime
  printable := stats.printable

theorem burstTcpServer_clock (stats : TransferInfo) (packet : ReportStruct) :
    (reporterHandleBurstTcpServerTransit stats packet).clock = stats.clock := by
  unfold reporterHandleBurstTcpServerTransit reporterHandlePacketOnewayTransit
  simp only
  split_ifs <;> rfl

theorem burstTcpClient_clock (stats : TransferInfo) (packet : ReportStruct) :
    (reporterHandleBurstTcpClientTransit stats packet).clock = stats.clock := by
  unfold reporterHandleBurstTcpClientTransit
  simp only
  split_ifs <;> rfl

theorem clientAccount_clock (stats : TransferInfo) (packet : ReportStruct) :
    (clientAccount stats packet).clock = stats.clock := by
  unfold clientAccount
  simp only
  split_ifs
  · rfl
  · rw [burstTcpClient_clock]
    rfl
  · rfl

/-- The packet handlers leave the clock alone. -/
theorem handle_clock (handler : PacketHandler) (stats : TransferInfo) (packet : ReportStruct) :
    (handler.handle stats packet).clock = stats.clock := by
  cases handler with
  | serverUdp =>
    simp only [PacketHandler.handle, reporterHandlePacketServerUdp]
    split_ifs <;> rfl
  | serverTcp =>
    simp only [PacketHandler.handle, reporterHandlePacketServerTcp]
    split_ifs
    · rw [burstTcpServer_clock]
      rfl
    · rfl
    · rfl
  | client =>
    let timed := { stats with ts := { stats.ts with packetTime := packet.packetTime } }
    have haccount : (clientAccount timed packet).clock = stats.clock := clientAccount_clock timed packet
    simp only [PacketHandler.handle, reporterHandlePacketClient]
    by_cases hempty : packet.emptyreport
    · simp only [hempty, if_true]
      split <;> rfl
    · simp only [hempty, Bool.false_eq_true, if_false]
      split
      · exact haccount
      · exact haccount

theorem handleTcpistats_clock (stats : TransferInfo) (packet : ReportStruct) :
    (handleTcpistats stats packet).clock = stats.clock := by
  simp only [handleTcpistats]
  split <;> rfl

/-- What an interval report does after its time stamps. -/
theorem interval_clock (handler : TransferProtocolHandler) (stats : TransferInfo) :
    (flowStep handler stats .interval).clock = stats.clock ∧
      (flowStep handler stats .interval).ts.packetTime = stats.ts.packetTime := by
  cases handler <;> exact ⟨rfl, rfl⟩

/-! ## Missed reports -/

/-- The report was made at or after the start. -/
def Begun (stats : TransferInfo) : Prop := timeDouble stats.ts.startTime ≤ timeDouble stats.ts.packetTime

/-- An interval report takes the end of the interval on by its length. -/
theorem stamp_interval {stats : TransferInfo} (hbegun : Begun stats) :
    let after := stats.stamp .interval
    after.clock = { stats.clock with nextTime := timeAdd stats.ts.nextTime stats.ts.intervalTime } ∧ Begun after := by
  have hnot : ¬ timeDifference stats.ts.packetTime stats.ts.startTime < 0 := by
    rw [timeDifference_eq]
    unfold Begun at hbegun
    linarith
  simp only [TransferInfo.stamp, reporterSetTimestampsTime, if_neg hnot]
  exact ⟨rfl, hbegun⟩

section
variable {stats : TransferInfo} {packetTime : Timeval}

/-- The time that is missing in the reports. -/
def gap (stats : TransferInfo) (packetTime : Timeval) : Rat :=
  timeDouble packetTime - timeDouble stats.ts.nextTime

theorem gap_stamp (hbegun : Begun stats) (packetTime : Timeval) :
    gap (stats.stamp .interval) packetTime = gap stats packetTime - timeDouble stats.ts.intervalTime := by
  have hnext := congrArg Clock.nextTime (stamp_interval hbegun).1
  simp only [TransferInfo.clock] at hnext
  rw [gap, hnext, timeDouble_timeAdd, gap]
  ring

theorem intervalTime_stamp (hbegun : Begun stats) :
    (stats.stamp .interval).ts.intervalTime = stats.ts.intervalTime :=
  congrArg Clock.intervalTime (stamp_interval hbegun).1

/-- With rounds for the whole gap the loop ends by its test. A gap of at most an interval is left as it is; of a longer
one something is left too. -/
theorem missedReports_spec (hbegun : Begun stats) (fuel : Nat)
    (hfuel : gap stats packetTime < fuel * timeDouble stats.ts.intervalTime)
    (hpos : 0 < timeDouble stats.ts.intervalTime) :
    let after := (missedReports packetTime fuel stats).1
    after.clock = { stats.clock with nextTime := after.ts.nextTime } ∧
      gap after packetTime ≤ timeDouble stats.ts.intervalTime ∧
      (gap stats packetTime ≤ timeDouble stats.ts.intervalTime → after = stats) ∧
      (timeDouble stats.ts.intervalTime < gap stats packetTime → 0 < gap after packetTime) := by
  induction fuel generalizing stats with
  | zero =>
    have hdone : gap stats packetTime < timeDouble stats.ts.intervalTime := by
      simp only [Nat.cast_zero, zero_mul] at hfuel
      linarith
    exact ⟨rfl, hdone.le, fun _ => rfl, fun hmissed => absurd hmissed (not_lt.mpr hdone.le)⟩
  | succ fuel ih =>
    have hgap := gap_stamp hbegun packetTime
    have hinterval := intervalTime_stamp hbegun
    obtain ⟨hclock, hbegun'⟩ := stamp_interval hbegun
    simp only [missedReports, timeDifference_eq]
    split
    · rename_i hmissed
      obtain ⟨hclock', hend, hsame, hleft⟩ := ih hbegun' (by
        rw [hgap, hinterval]
        push_cast at hfuel
        linarith) (by rwa [hinterval])
      rw [hinterval] at hend hsame hleft
      refine ⟨?_, hend, fun hdone => absurd hmissed (not_lt.mpr hdone), fun _ => ?_⟩
      · rw [hclock', hclock]
      · -- the last round leaves what it found over an interval
        rcases le_or_gt (gap (stats.stamp .interval) packetTime) (timeDouble stats.ts.intervalTime) with hdone | hmore
        · rw [hsame hdone, hgap]
          exact sub_pos.mpr hmissed
        · exact hleft hmore
    · rename_i hdone
      exact ⟨rfl, not_lt.mp hdone, fun _ => rfl, fun hmissed => absurd hmissed hdone⟩

/-- More rounds change nothing. -/
theorem missedReports_fuel (hbegun : Begun stats) {fuel more : Nat} (hle : fuel ≤ more)
    (hfuel : gap stats packetTime < fuel * timeDouble stats.ts.intervalTime)
    (hpos : 0 < timeDouble stats.ts.intervalTime) :
    missedReports packetTime more stats = missedReports packetTime fuel stats := by
  induction fuel generalizing stats more with
  | zero =>
    have hdone : ¬ timeDifference packetTime stats.ts.nextTime > timeDouble stats.ts.intervalTime := by
      simp only [Nat.cast_zero, zero_mul, gap] at hfuel
      rw [timeDifference_eq]
      linarith
    cases more with
    | zero => rfl
    | succ more =>
      simp only [missedReports]
      rw [if_neg hdone]
  | succ fuel ih =>
    obtain ⟨more, rfl⟩ : ∃ n, more = n + 1 := ⟨more - 1, by omega⟩
    have hrest : missedReports packetTime more (stats.stamp .interval) =
        missedReports packetTime fuel (stats.stamp .interval) := by
      apply ih (stamp_interval hbegun).2 (by omega)
      · rw [gap_stamp hbegun packetTime, intervalTime_stamp hbegun]
        push_cast at hfuel
        linarith
      · rwa [intervalTime_stamp hbegun]
    simp only [missedReports, hrest]

/-- The rounds of `reporterTransferProtocolMissedReports` are as many as the gap needs. -/
theorem gap_lt_rounds (hpos : 0 < timeDouble stats.ts.intervalTime) (packetTime : Timeval) :
    let rounds := timeDifference packetTime stats.ts.nextTime / timeDouble stats.ts.intervalTime
    gap stats packetTime < ((rounds.floor.toNat + 1 : Nat) : Rat) * timeDouble stats.ts.intervalTime := by
  intro rounds
  have hfloor : rounds < (rounds.floor.toNat + 1 : Nat) := by
    have hlt : rounds < (rounds.floor : Rat) + 1 := Int.lt_floor_add_one rounds
    have hle : (rounds.floor : Rat) ≤ (rounds.floor.toNat : Rat) := by
      exact_mod_cast Int.self_le_toNat rounds.floor
    push_cast
    linarith
  calc
    gap stats packetTime = rounds * timeDouble stats.ts.intervalTime := by
      rw [div_mul_cancel₀ _ hpos.ne', timeDifference_eq, gap]
    _ < (rounds.floor.toNat + 1 : Nat) * timeDouble stats.ts.intervalTime := mul_lt_mul_of_pos_right hfloor hpos

end

/-- The loop of missed reports ends by its test, and no more rounds are left. -/
structure Ends (stats : TransferInfo) (packet : ReportStruct) : Prop where
  rounds : ∃ rounds, ∀ fuel, rounds ≤ fuel →
    missedReports packet.packetTime fuel stats = reporterTransferProtocolMissedReports stats packet
  test : let after := (reporterTransferProtocolMissedReports stats packet).1
    ¬ timeDifference packet.packetTime after.ts.nextTime > timeDouble after.ts.intervalTime

theorem missedReports_ends {stats : TransferInfo} {packet : ReportStruct} (hbegun : Begun stats)
    (hpos : 0 < timeDouble stats.ts.intervalTime) : Ends stats packet := by
  have hrounds := gap_lt_rounds hpos packet.packetTime
  refine ⟨⟨_, fun fuel hle => missedReports_fuel hbegun hle hrounds hpos⟩, ?_⟩
  obtain ⟨hclock, hend, -, -⟩ := missedReports_spec hbegun _ hrounds hpos
  have hinterval := congrArg Clock.intervalTime hclock
  simp only [TransferInfo.clock] at hinterval
  simp only [reporterTransferProtocolMissedReports]
  rw [hinterval, timeDifference_eq, not_lt]
  exact hend

/-! ## The reports of a packet -/

/-- The interval report of a flow takes the end of the interval on by its length. -/
theorem intervalReport_clock (data : ReporterData) (packetTime : Timeval)
    (hstart : timeDouble data.info.ts.startTime ≤ timeDouble packetTime) :
    let after := (intervalReport data packetTime).1.info
    after.clock = { data.info.clock with nextTime := timeAdd data.info.ts.nextTime data.info.ts.intervalTime } ∧
      Begun after := by
  intro after
  let timed : TransferInfo := { data.info with ts := { data.info.ts with packetTime } }
  have hbegun : Begun timed := hstart
  obtain ⟨hclock, hbegun'⟩ := stamp_interval hbegun
  obtain ⟨hclock', htime'⟩ := interval_clock data.transferProtocolHandler (timed.stamp .interval)
  have hafter : after = flowStep data.transferProtocolHandler (timed.stamp .interval) .interval := rfl
  refine ⟨?_, ?_⟩
  · rw [hafter, hclock', hclock]
    rfl
  · have hstart' := congrArg Clock.startTime hclock'
    simp only [TransferInfo.clock] at hstart'
    rw [hafter, Begun, hstart', htime']
    exact hbegun'

/-- A packet of the open interval changes nothing, one of the next interval makes one report, and a later one leaves
something of the gap. -/
theorem timeInterval_spec (data : ReporterData) (packet : ReportStruct) (hprintable : data.info.printable = true)
    (hstart : timeDouble data.info.ts.startTime ≤ timeDouble packet.packetTime)
    (hpos : 0 < timeDouble data.info.ts.intervalTime) :
    let after := (reporterCondprintTimeIntervalReport data packet).1.info
    let interval := timeDouble data.info.ts.intervalTime
    let before := gap data.info packet.packetTime
    after.clock = { data.info.clock with nextTime := after.ts.nextTime } ∧
      (before ≤ 0 → gap after packet.packetTime = before) ∧
      (0 < before → before ≤ interval → gap after packet.packetTime = before - interval) ∧
      (interval < before → 0 < gap after packet.packetTime) := by
  intro after interval before
  obtain ⟨hclock, hbegun⟩ := intervalReport_clock data packet.packetTime hstart
  let reported := (intervalReport data packet.packetTime).1.info
  have hinterval : reported.ts.intervalTime = data.info.ts.intervalTime := congrArg Clock.intervalTime hclock
  have hnext : reported.ts.nextTime = timeAdd data.info.ts.nextTime data.info.ts.intervalTime :=
    congrArg Clock.nextTime hclock
  have hprints : reported.printable = true := (congrArg Clock.printable hclock).trans hprintable
  have hgap : gap reported packet.packetTime = before - interval := by
    rw [gap, hnext, timeDouble_timeAdd]
    simp only [before, interval, gap]
    ring
  have hafter : after = if 0 < before then (reporterTransferProtocolMissedReports reported packet).1 else data.info := by
    have htest : timeDifference data.info.ts.nextTime packet.packetTime < 0 ↔ 0 < before := by
      rw [timeDifference_eq, sub_neg]
      exact sub_pos.symm
    simp only [after]
    unfold reporterCondprintTimeIntervalReport
    by_cases hcross : 0 < before
    · rw [if_pos (htest.mpr hcross), if_pos hcross]
      show (if reported.printable then reporterTransferProtocolMissedReports reported packet
        else (reported, [])).1 = _
      rw [if_pos hprints]
    · rw [if_neg (fun h => hcross (htest.mp h)), if_neg hcross]
  by_cases hcross : 0 < before
  · rw [if_pos hcross] at hafter
    have hpos' : 0 < timeDouble reported.ts.intervalTime := by rwa [hinterval]
    obtain ⟨hclock', -, hsame, hleft⟩ := missedReports_spec hbegun _ (gap_lt_rounds hpos' packet.packetTime) hpos'
    refine ⟨?_, fun hopen => absurd hcross (not_lt.mpr hopen), fun _ hshort => ?_, fun hlong => ?_⟩
    · rw [hafter]
      refine hclock'.trans ?_
      rw [hclock]
      rfl
    · have hdone : gap reported packet.packetTime ≤ timeDouble reported.ts.intervalTime := by
        rw [hgap, hinterval]
        exact (sub_le_self _ hpos.le).trans hshort
      rw [hafter]
      refine Eq.trans ?_ hgap
      exact congrArg (gap · packet.packetTime) (hsame hdone)
    · rw [hafter]
      rcases le_or_gt (gap reported packet.packetTime) (timeDouble reported.ts.intervalTime) with hdone | hmore
      · have heq : (reporterTransferProtocolMissedReports reported packet).1 = reported := hsame hdone
        rw [heq, hgap]
        exact sub_pos.mpr hlong
      · exact hleft hmore
  · rw [if_neg hcross] at hafter
    refine ⟨?_, fun _ => ?_, fun h => absurd h hcross, fun hlong => absurd (hpos.trans hlong) hcross⟩
    · rw [hafter]
      rfl
    · rw [hafter]

/-! ## The packets of a flow -/

/-- `Client::SetReportStartTime` and `Server::SetReportStartTime`, for the flow. -/
def setReportStartTime (threadMode : ThreadMode) (startTime : Timeval) (ts : ReportTimeStamps) : ReportTimeStamps :=
  { ts with
    startTime
    IPGstart := startTime
    prevpacketTime := if threadMode = .client then startTime else ts.prevpacketTime
    nextTime := if timeZero ts.intervalTime then ts.nextTime else timeAdd startTime ts.intervalTime }

/-- The report of a flow that starts its traffic. -/
def startReport (inSettings : Settings) (groupSumReport fullDuplexReport : Option SumReport) (startTime : Timeval) :
    ReporterData :=
  let data := initIndividualReport inSettings groupSumReport fullDuplexReport
  { data with
    info := { data.info with ts := setReportStartTime inSettings.threadMode startTime data.info.ts } }

/-- The report after the packets that the reporter took. -/
def takePackets (data : ReporterData) (packets : List ReportStruct) : ReporterData :=
  packets.foldl (fun data packet => (reporterProcessTransferReport data packet).1) data

/-- The interval that is open, from one end of the interval to the next, has this time. -/
def InInterval (stats : TransferInfo) (packetTime : Timeval) : Prop :=
  timeDouble stats.ts.nextTime - timeDouble stats.ts.intervalTime ≤ timeDouble packetTime ∧
    timeDouble packetTime ≤ timeDouble stats.ts.nextTime

/-- Between two packets: the handlers are those of time intervals, and the open interval does not begin after what was
taken last. -/
structure Taking (startTime intervalTime : Timeval) (last : Rat) (data : ReporterData) : Prop where
  handler : data.transferIntervalHandler = some .timeInterval
  pre : data.packetHandlerPreReport = none
  printable : data.info.printable = true
  starts : data.info.ts.startTime = startTime
  interval : data.info.ts.intervalTime = intervalTime
  begun : timeDouble data.info.ts.nextTime - timeDouble intervalTime ≤ last

theorem initTransferIntervalHandler_time {inSettings : Settings}
    (htime : initTransferIntervalHandler inSettings = some .timeInterval) :
    inSettings.intervalMode = .time ∧ accountsBefore inSettings = false := by
  unfold initTransferIntervalHandler at htime
  unfold accountsBefore
  cases hmode : inSettings.threadMode <;> cases hudp : inSettings.isUDP <;>
    simp only [hmode, hudp] at htime ⊢ <;> split_ifs at htime <;> simp_all

theorem intervalTime_double (inSettings : Settings) :
    timeDouble (intervalTimeStamps inSettings).intervalTime = inSettings.interval / 1000000 := by
  have hsplit : (inSettings.interval : Rat) =
      1000000 * (inSettings.interval / 1000000 : Int) + (inSettings.interval % 1000000 : Int) := by
    exact_mod_cast (Int.mul_ediv_add_emod inSettings.interval 1000000).symm
  simp only [intervalTimeStamps, timeDouble, rMillion]
  push_cast
  linarith

theorem intervalTime_pos {inSettings : Settings} (hpos : 0 < inSettings.interval) :
    0 < timeDouble (intervalTimeStamps inSettings).intervalTime := by
  rw [intervalTime_double]
  have hpos' : (0 : Rat) < inSettings.interval := by exact_mod_cast hpos
  positivity

section
variable {inSettings : Settings} {groupSumReport fullDuplexReport : Option SumReport} {startTime : Timeval}

theorem startReport_taking (htime : initTransferIntervalHandler inSettings = some .timeInterval)
    (hpos : 0 < inSettings.interval) (hout : initOutputHandler inSettings = true) :
    Taking startTime (intervalTimeStamps inSettings).intervalTime (timeDouble startTime)
      (startReport inSettings groupSumReport fullDuplexReport startTime) := by
  obtain ⟨hmode, hbefore⟩ := initTransferIntervalHandler_time htime
  have hinterval := intervalTime_pos hpos
  have hnonzero : timeZero (intervalTimeStamps inSettings).intervalTime = false := by
    by_contra hzero
    simp only [Bool.not_eq_false, timeZero, Bool.and_eq_true, beq_iff_eq] at hzero
    rw [timeDouble, hzero.1, hzero.2] at hinterval
    simp at hinterval
  refine ⟨htime, ?_, ?_, rfl, ?_, ?_⟩
  · simp [startReport, initIndividualReport, hbefore]
  · simp only [startReport, initIndividualReport, TransferInfo.printable, hout, Bool.true_and]
    rfl
  · simp [startReport, initIndividualReport, setReportStartTime, hmode]
  · simp [startReport, initIndividualReport, setReportStartTime, hmode, hnonzero]

variable {intervalTime : Timeval} {last : Rat} {data : ReporterData} {packet : ReportStruct}

/-- A packet of the traffic is accounted after the reports that its time asks for. -/
theorem process_clock (h : Taking startTime intervalTime last data) (htraffic : 0 ≤ packet.packetID) :
    let sampled : ReporterData := { data with info := handleTcpistats data.info packet }
    let after := (reporterProcessTransferReport data packet).1
    after.info.clock = (reporterCondprintTimeIntervalReport sampled packet).1.info.clock ∧
      after.transferIntervalHandler = data.transferIntervalHandler ∧
      after.packetHandlerPreReport = data.packetHandlerPreReport := by
  intro sampled after
  have hafter : after = (processPacket sampled packet).1 := by
    simp only [after]
    unfold reporterProcessTransferReport
    rw [if_neg (not_lt.mpr htraffic)]
  have hpost : ∀ data' : ReporterData, (handlePacket data.packetHandlerPostReport packet data').info.clock =
      data'.info.clock := by
    intro data'
    cases data.packetHandlerPostReport with
    | none => rfl
    | some handler => exact handle_clock handler data'.info packet
  have hkeeps : ∀ post (data' : ReporterData),
      (handlePacket post packet data').transferIntervalHandler = data'.transferIntervalHandler ∧
        (handlePacket post packet data').packetHandlerPreReport = data'.packetHandlerPreReport := by
    intro post data'
    cases post <;> exact ⟨rfl, rfl⟩
  have hreports : ∀ data' : ReporterData,
      (reporterCondprintTimeIntervalReport data' packet).1.transferIntervalHandler = data'.transferIntervalHandler ∧
        (reporterCondprintTimeIntervalReport data' packet).1.packetHandlerPreReport =
          data'.packetHandlerPreReport := by
    intro data'
    unfold reporterCondprintTimeIntervalReport
    split <;> exact ⟨rfl, rfl⟩
  rw [hafter]
  simp only [processPacket, sampled, h.pre, h.handler, handlePacket_none, TransferIntervalHandler.handle]
  rw [timeInterval_postReport]
  refine ⟨hpost _, ?_, ?_⟩
  · exact (hkeeps _ _).1.trans (hreports _).1
  · exact (hkeeps _ _).2.trans (hreports _).2

/-- **One packet.** It is in its interval just if it comes at most an interval after the end of the open one. -/
theorem Taking.next (h : Taking startTime intervalTime last data) (htraffic : 0 ≤ packet.packetID)
    (hpos : 0 < timeDouble intervalTime) (hstart : timeDouble startTime ≤ timeDouble packet.packetTime)
    (hlast : last ≤ timeDouble packet.packetTime) :
    let after := (reporterProcessTransferReport data packet).1
    Taking startTime intervalTime (timeDouble packet.packetTime) after ∧
      (InInterval after.info packet.packetTime ↔
        timeDouble packet.packetTime ≤ timeDouble data.info.ts.nextTime + timeDouble intervalTime) := by
  intro after
  let sampled : ReporterData := { data with info := handleTcpistats data.info packet }
  have hsampled : sampled.info.clock = data.info.clock := handleTcpistats_clock data.info packet
  have hprints : sampled.info.printable = true := (congrArg Clock.printable hsampled).trans h.printable
  have hbegins : sampled.info.ts.startTime = startTime := (congrArg Clock.startTime hsampled).trans h.starts
  have hinterval : sampled.info.ts.intervalTime = intervalTime :=
    (congrArg Clock.intervalTime hsampled).trans h.interval
  have hnext : sampled.info.ts.nextTime = data.info.ts.nextTime := congrArg Clock.nextTime hsampled
  obtain ⟨hclock, hhandler, hpre⟩ := process_clock h htraffic
  obtain ⟨hreported, hopen, hshort, hlong⟩ :=
    timeInterval_spec sampled packet hprints (by rwa [hbegins]) (by rwa [hinterval])
  let reported := (reporterCondprintTimeIntervalReport sampled packet).1
  have hclock' : after.info.clock = { data.info.clock with nextTime := reported.info.ts.nextTime } := by
    rw [hclock, hreported, hsampled]
  have hnext' : after.info.ts.nextTime = reported.info.ts.nextTime := congrArg Clock.nextTime hclock'
  have hinterval' : after.info.ts.intervalTime = intervalTime :=
    (congrArg Clock.intervalTime hclock').trans h.interval
  have hgap : gap sampled.info packet.packetTime = timeDouble packet.packetTime - timeDouble data.info.ts.nextTime := by
    rw [gap, hnext]
  have hgap' : gap (reporterCondprintTimeIntervalReport sampled packet).1.info packet.packetTime =
      timeDouble packet.packetTime - timeDouble after.info.ts.nextTime := by
    rw [gap, hnext']
  rw [hgap, hgap'] at hopen
  rw [hinterval, hgap, hgap'] at hshort
  rw [hinterval, hgap, hgap'] at hlong
  have hbegun := h.begun
  have hcase : timeDouble after.info.ts.nextTime - timeDouble intervalTime ≤ timeDouble packet.packetTime ∧
      (timeDouble packet.packetTime ≤ timeDouble after.info.ts.nextTime ↔
        timeDouble packet.packetTime ≤ timeDouble data.info.ts.nextTime + timeDouble intervalTime) := by
    rcases le_or_gt (timeDouble packet.packetTime - timeDouble data.info.ts.nextTime) 0 with hin | hcross
    · have heq := hopen hin
      exact ⟨by linarith, ⟨fun _ => by linarith, fun _ => by linarith⟩⟩
    · rcases le_or_gt (timeDouble packet.packetTime - timeDouble data.info.ts.nextTime) (timeDouble intervalTime)
        with hone | hmore
      · have heq := hshort hcross hone
        exact ⟨by linarith, ⟨fun _ => by linarith, fun _ => by linarith⟩⟩
      · have hleft := hlong hmore
        exact ⟨by linarith, ⟨fun _ => by linarith, fun _ => by linarith⟩⟩
  refine ⟨⟨hhandler.trans h.handler, hpre.trans h.pre, (congrArg Clock.printable hclock').trans h.printable,
    (congrArg Clock.startTime hclock').trans h.starts, hinterval', hcase.1⟩, ?_⟩
  rw [InInterval, hinterval']
  exact (and_iff_right hcase.1).trans hcase.2

/-- The packets of a flow are taken one after the other. -/
theorem takePackets_append (data : ReporterData) (packets : List ReportStruct) (packet : ReportStruct) :
    takePackets data (packets ++ [packet]) = (reporterProcessTransferReport (takePackets data packets) packet).1 := by
  simp only [takePackets, List.foldl_append, List.foldl_cons, List.foldl_nil]

/-- Packets of the traffic in the order of their times, none before the start. -/
structure Timed (startTime : Timeval) (packets : List ReportStruct) : Prop where
  traffic : ∀ p ∈ packets, 0 ≤ p.packetID
  started : ∀ p ∈ packets, timeDouble startTime ≤ timeDouble p.packetTime
  sorted : packets.Pairwise fun p p' => timeDouble p.packetTime ≤ timeDouble p'.packetTime

theorem Timed.init {packets : List ReportStruct} (h : Timed startTime (packets ++ [packet])) :
    Timed startTime packets where
  traffic p hp := h.traffic p (List.mem_append_left _ hp)
  started p hp := h.started p (List.mem_append_left _ hp)
  sorted := (List.pairwise_append.mp h.sorted).1

/-- The last packet comes after the start and after all others. -/
theorem Timed.final {packets : List ReportStruct} (h : Timed startTime (packets ++ [packet])) :
    0 ≤ packet.packetID ∧ timeDouble startTime ≤ timeDouble packet.packetTime ∧
      ∀ p ∈ packets, timeDouble p.packetTime ≤ timeDouble packet.packetTime := by
  have hmem : packet ∈ packets ++ [packet] := List.mem_append_right _ (List.mem_singleton_self packet)
  refine ⟨h.traffic packet hmem, h.started packet hmem, fun p hp => ?_⟩
  exact (List.pairwise_append.mp h.sorted).2.2 p hp packet (List.mem_singleton_self packet)

theorem takePackets_taking {data : ReporterData} (h : Taking startTime intervalTime (timeDouble startTime) data)
    (hpos : 0 < timeDouble intervalTime) (packets : List ReportStruct) (htimed : Timed startTime packets) :
    ∃ last, Taking startTime intervalTime last (takePackets data packets) ∧
      ∀ time, timeDouble startTime ≤ time → (∀ p ∈ packets, timeDouble p.packetTime ≤ time) → last ≤ time := by
  induction packets using List.reverseRecOn with
  | nil => exact ⟨timeDouble startTime, h, fun _ hstart _ => hstart⟩
  | append_singleton packets packet ih =>
    obtain ⟨last, htaking, hlast⟩ := ih htimed.init
    obtain ⟨htraffic, hstart, hsorted⟩ := htimed.final
    have hafter : last ≤ timeDouble packet.packetTime := hlast _ hstart hsorted
    refine ⟨timeDouble packet.packetTime, ?_, fun time _ hall => ?_⟩
    · rw [takePackets_append]
      exact (htaking.next htraffic hpos hstart hafter).1
    · exact hall packet (List.mem_append_right _ (List.mem_singleton_self packet))

/-- **The interval of a packet.** In every sequence of packets the catch-up ends, and a packet is accounted in the
interval that has its time just if it comes at most an interval after the end of the interval that was open. -/
theorem packet_interval (htime : initTransferIntervalHandler inSettings = some .timeInterval)
    (hpos : 0 < inSettings.interval) (hout : initOutputHandler inSettings = true) (packets : List ReportStruct)
    (packet : ReportStruct) (htimed : Timed startTime (packets ++ [packet])) :
    let data := takePackets (startReport inSettings groupSumReport fullDuplexReport startTime) packets
    let after := (reporterProcessTransferReport data packet).1
    let sampled : ReporterData := { data with info := handleTcpistats data.info packet }
    Ends (intervalReport sampled packet.packetTime).1.info packet ∧
      timeDouble after.info.ts.nextTime - timeDouble after.info.ts.intervalTime ≤ timeDouble packet.packetTime ∧
      (InInterval after.info packet.packetTime ↔
        timeDouble packet.packetTime ≤ timeDouble data.info.ts.nextTime + inSettings.interval / 1000000) := by
  intro data after sampled
  have hinterval := intervalTime_pos hpos
  obtain ⟨last, htaking, hlast⟩ :=
    takePackets_taking (startReport_taking htime hpos hout) hinterval packets htimed.init
  obtain ⟨htraffic, hstart, hsorted⟩ := htimed.final
  have hafter : last ≤ timeDouble packet.packetTime := hlast _ hstart hsorted
  obtain ⟨hnext, hiff⟩ := htaking.next htraffic hinterval hstart hafter
  rw [intervalTime_double] at hiff
  have hbegun := hnext.begun
  rw [← hnext.interval] at hbegun
  refine ⟨?_, hbegun, hiff⟩
  -- the reports of the packet are made by the clock of the flow
  have hsampled : sampled.info.clock = data.info.clock := handleTcpistats_clock data.info packet
  have hbegins : sampled.info.ts.startTime = startTime := (congrArg Clock.startTime hsampled).trans htaking.starts
  obtain ⟨hclock, hreported⟩ := intervalReport_clock sampled packet.packetTime (by rwa [hbegins])
  refine missedReports_ends hreported ?_
  have hsame : (intervalReport sampled packet.packetTime).1.info.ts.intervalTime =
      (intervalTimeStamps inSettings).intervalTime :=
    (congrArg Clock.intervalTime hclock).trans
      ((congrArg Clock.intervalTime hsampled).trans htaking.interval)
  rwa [hsame]

end

/-! A client with a report every second: it writes after half a second, and again a second or three seconds later. -/

def everySecond : Settings :=
  { (default : Settings) with
    threadMode := .client
    intervalMode := .time
    interval := 1000000 }

def packetAt (packetTime : Timeval) : ReportStruct := { (default : ReportStruct) with packetTime }

theorem timed_two {startTime first second : Timeval} (hstart : timeDouble startTime ≤ timeDouble first)
    (hle : timeDouble first ≤ timeDouble second) : Timed startTime ([packetAt first] ++ [packetAt second]) where
  traffic p hp := by
    rcases List.mem_pair.mp hp with rfl | rfl <;> exact le_refl 0
  started p hp := by
    rcases List.mem_pair.mp hp with rfl | rfl
    · exact hstart
    · exact hstart.trans hle
  sorted := by simpa [packetAt] using hle

theorem packet_interval_next :
    InInterval (takePackets (startReport everySecond none none ⟨10, 0⟩)
      [packetAt ⟨10, 500000⟩, packetAt ⟨11, 500000⟩]).info ⟨11, 500000⟩ :=
  (packet_interval rfl (by decide) rfl [packetAt ⟨10, 500000⟩] (packetAt ⟨11, 500000⟩)
    (timed_two (by decide +kernel) (by decide +kernel))).2.2.mpr (by decide +kernel)

theorem packet_not_in_interval :
    Timed ⟨10, 0⟩ ([packetAt ⟨10, 500000⟩] ++ [packetAt ⟨13, 500000⟩]) ∧
      ¬ InInterval (takePackets (startReport everySecond none none ⟨10, 0⟩)
        [packetAt ⟨10, 500000⟩, packetAt ⟨13, 500000⟩]).info ⟨13, 500000⟩ ∧
      (takePackets (startReport everySecond none none ⟨10, 0⟩)
        [packetAt ⟨10, 500000⟩, packetAt ⟨13, 500000⟩]).info.ts.nextTime = ⟨13, 0⟩ := by
  refine ⟨timed_two (by decide +kernel) (by decide +kernel), ?_, by decide +kernel⟩
  unfold InInterval
  decide +kernel

end Iperf2.Report
