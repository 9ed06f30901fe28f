import Iperf2.Report.Records
import Iperf2.Lib.Trigger

/-!
# The interval reports of a group

`reporter_condprint_time_interval_report` adds the interval of a flow to its group report and to its full duplex report,
and prints such a report when its counter `threads` says that all members had their interval. The members of one such
report are a system, over the records that the reporter takes and the flows that start and end.

* `record_crosses`, `record_stays`, `record_final` : what one record does to the report that the members share;
* `Members` : the members, with the parts of every report of the group as its history;
* `Members.Follows` : the counter is that of `Trigger`, whose arrivals are the intervals of the members;
  `Members.Follows.next`.
-/

namespace Iperf2.Report
open Transition

/-! ## The report that is shared -/

/-- The two reports that flows share. -/
inductive Shared
  | group
  | fullDuplex
  deriving DecidableEq

namespace Shared

def get : Shared → ReporterData → Option SumReport
  | .group, data => data.groupSumReport
  | .fullDuplex, data => data.fullDuplexReport

/-- A pointer to the report that is shared. -/
def point : Shared → ReporterData → SumReport → ReporterData
  | .group, data, s => { data with groupSumReport := some s }
  | .fullDuplex, data, s => { data with fullDuplexReport := some s }

/-- What the transfer protocol handler of a flow adds. -/
def add : Shared → TransferProtocol → TransferInfo → TransferInfo → TransferInfo
  | .group, p => p.sum
  | .fullDuplex, p => p.fullduplex

/-- What the interval of a flow does after that. -/
def interval : Shared → ReportCommon → SumReport → SumReport
  | .group, common, s => (groupInterval common s).1
  | .fullDuplex, common, s => (fullduplexInterval common s).1

/-- The value of the counter at which the report is printed, if it is not the count of the members. -/
def size : Shared → Option Int
  | .group => none
  | .fullDuplex => some 2

/-- Whether the flow may print the report. -/
def may : Shared → ReportCommon → Bool
  | .group, _ => true
  | .fullDuplex, common => common.isEnhanced

/-- The interval of a flow prints the report. -/
def fires (k : Shared) (common : ReportCommon) (s : SumReport) : Bool :=
  s.threads + 1 = k.size.getD s.count ∧ k.may common

@[simp] theorem get_point (k : Shared) (data : ReporterData) (s : SumReport) : k.get (k.point data s) = some s := by
  cases k <;> rfl

end Shared

/-- A reset shows what was counted, and starts the next interval. -/
def RestartsBytes (reset : TransferInfo → TransferInfo) : Prop :=
  ∀ s, (reset s).cntBytes = s.cntBytes ∧ (reset s).total.Bytes = s.total.Bytes.shift

theorem restarts_serverTcp : RestartsBytes reporterResetTransferStatsServerTcp := fun _ => ⟨rfl, rfl⟩

theorem restarts_clientTcp : RestartsBytes reporterResetTransferStatsClientTcp := fun _ => ⟨rfl, rfl⟩

theorem sumTcp_bytes {reset partialReset totals : TransferInfo → TransferInfo} (hreset : RestartsBytes reset)
    (stats : TransferInfo) :
    (sumTcp reset partialReset totals stats false).1.cntBytes = stats.total.Bytes.delta ∧
      (sumTcp reset partialReset totals stats false).1.total.Bytes.delta = 0 := by
  simp only [sumTcp, sumTcpInterval, Bool.not_false, true_or, if_true, Bool.false_eq_true, if_false]
  rw [(hreset _).1, (hreset _).2]
  split <;> exact ⟨rfl, sub_self _⟩

/-- An interval report of a sum shows the bytes since the last one, and none are left. -/
theorem sumHandle_bytes (handler : TransferProtocolSumHandler) (stats : TransferInfo) :
    (handler.handle stats false).1.cntBytes = stats.total.Bytes.delta ∧
      (handler.handle stats false).1.total.Bytes.delta = 0 := by
  cases handler with
  | sumServerUdp => exact ⟨rfl, sub_self _⟩
  | sumClientUdp => exact ⟨rfl, sub_self _⟩
  | sumServerTcp =>
    simp only [TransferProtocolSumHandler.handle, reporterTransferProtocolSumServerTcp]
    exact sumTcp_bytes restarts_serverTcp stats
  | sumClientTcp =>
    simp only [TransferProtocolSumHandler.handle, reporterTransferProtocolSumClientTcp]
    exact sumTcp_bytes restarts_clientTcp stats
  | fullduplexTcp => exact ⟨rfl, sub_self _⟩
  | fullduplexUdp => exact ⟨rfl, sub_self _⟩

section
variable {k : Shared} {s : SumReport}

theorem add_bytes (handler : TransferProtocolHandler) (stats sum : TransferInfo) :
    (k.add handler.parts (handler.parts.interval stats) sum).total.Bytes.delta =
      sum.total.Bytes.delta + stats.total.Bytes.delta := by
  have hadd : ∀ (c : ShiftCounter) (n : Int), (c.add n).delta = c.delta + n := fun c n => by
    simp only [ShiftCounter.delta, ShiftCounter.add]
    omega
  cases k <;> cases handler <;> exact hadd _ _

theorem interval_fires {common : ReportCommon} (h : k.fires common s = true) :
    let after := k.interval common s
    after.threads = 0 ∧ after.count = s.count ∧ after.info.cntBytes = s.info.total.Bytes.delta ∧
      after.info.total.Bytes.delta = 0 := by
  rw [Shared.fires, decide_eq_true_eq] at h
  cases k with
  | group =>
    have hcount : s.threads + 1 = s.count := h.1
    simp only [Shared.interval, groupInterval, if_pos hcount, true_and]
    exact sumHandle_bytes _ _
  | fullDuplex =>
    have hcount : s.threads + 1 = 2 ∧ common.isEnhanced := h
    simp only [Shared.interval, fullduplexInterval, if_pos hcount, true_and]
    exact sumHandle_bytes _ _

theorem interval_waits {common : ReportCommon} (h : ¬ k.fires common s = true) :
    k.interval common s = { s with threads := s.threads + 1 } := by
  rw [Shared.fires, decide_eq_true_eq] at h
  cases k with
  | group =>
    have hcount : ¬ s.threads + 1 = s.count := fun heq => h ⟨heq, rfl⟩
    simp only [Shared.interval, groupInterval, if_neg hcount]
  | fullDuplex =>
    have hcount : ¬ (s.threads + 1 = 2 ∧ common.isEnhanced) := h
    simp only [Shared.interval, fullduplexInterval, if_neg hcount]

end

/-! ## One record -/

/-- The reports of the flow come with the time, or there are none. -/
structure TimeReports (data : ReporterData) : Prop where
  pre : data.packetHandlerPreReport = none
  interval : ∀ h, data.transferIntervalHandler = some h → h = .timeInterval

/-- The flow with the sampled TCP statistics of the record. -/
def sampled (data : ReporterData) (packet : ReportStruct) : ReporterData :=
  { data with info := handleTcpistats data.info packet }

/-- The record makes an interval report of its flow. -/
def crosses (data : ReporterData) (packet : ReportStruct) : Bool :=
  ¬ packet.packetID < 0 ∧ data.transferIntervalHandler = some .timeInterval ∧
    timeDifference data.info.ts.nextTime packet.packetTime < 0

/-- The missed reports of the flow after that. -/
def missed (data : ReporterData) (packet : ReportStruct) : Nat :=
  let reported := (intervalReport (sampled data packet) packet.packetTime).1.info
  if reported.printable then (reporterTransferProtocolMissedReports reported packet).2.length else 0

/-- The bytes of a flow that its final report adds. -/
def lastBytes (data : ReporterData) (packet : ReportStruct) : Int :=
  (handlePacket data.packetHandlerPostReport packet (sampled data packet)).info.total.Bytes.delta

/-- The flow after the handlers of its last packet, with the time of that. -/
def lastHandled (data : ReporterData) (packet : ReportStruct) : ReporterData :=
  let handled := handlePacket data.packetHandlerPreReport packet (sampled data packet)
  let handled := handlePacket handled.packetHandlerPostReport packet handled
  { handled with
    info := { handled.info with ts := { handled.info.ts with packetTime := packet.packetTime } } }

/-- The flow after its final report. -/
def lastReported (data : ReporterData) (packet : ReportStruct) : ReporterData :=
  ((lastHandled data packet).transferProtocolHandler.parts.handle (lastHandled data packet) true).1

/-- The last packet in the reports that flows share. -/
def lastShared (packet : ReportStruct) (reported : ReporterData) : ReporterData :=
  { reported with
    fullDuplexReport :=
      (if reported.info.common.isEnhanced then
        onReport (finalSum (fun _ => true) packet.packetTime) reported.fullDuplexReport
      else (reported.fullDuplexReport, [])).1
    groupSumReport := (onReport (finalSum (fun s => s.maxcount > 1 || reported.info.common.isSumOnly)
      packet.packetTime) reported.groupSumReport).1 }

section
variable {k : Shared} {data : ReporterData} {packet : ReportStruct} {s : SumReport}

theorem sampled_keeps (data : ReporterData) (packet : ReportStruct) :
    (sampled data packet).info.ts = data.info.ts ∧ (sampled data packet).info.common = data.info.common ∧
      (sampled data packet).info.total = data.info.total := by
  simp only [sampled, handleTcpistats]
  split <;> exact ⟨rfl, rfl, rfl⟩

theorem sampled_shared (hs : k.get data = some s) (packet : ReportStruct) : k.get (sampled data packet) = some s := by
  rw [← hs]
  cases k <;> rfl

/-- No handler comes before the interval report. -/
theorem sampled_pre (h : TimeReports data) (packet : ReportStruct) :
    handlePacket (sampled data packet).packetHandlerPreReport packet (sampled data packet) = sampled data packet :=
  congrArg (handlePacket · packet (sampled data packet)) h.pre

theorem process_final (hlast : packet.packetID < 0) :
    (reporterProcessTransferReport data packet).1 = (processFinalPacket (sampled data packet) packet).1 := by
  unfold reporterProcessTransferReport
  rw [if_pos hlast]
  rfl

theorem process_last (hlast : packet.packetID < 0) :
    (reporterProcessTransferReport data packet).1 = lastShared packet (lastReported data packet) := by
  rw [process_final hlast]
  rfl

theorem lastHandled_eq (hpre : data.packetHandlerPreReport = none) (packet : ReportStruct) :
    lastHandled data packet =
      let handled := handlePacket data.packetHandlerPostReport packet (sampled data packet)
      { handled with
        info := { handled.info with ts := { handled.info.ts with packetTime := packet.packetTime } } } := by
  have hnone : handlePacket data.packetHandlerPreReport packet (sampled data packet) = sampled data packet :=
    congrArg (handlePacket · packet (sampled data packet)) hpre
  unfold lastHandled
  rw [hnone]
  rfl

theorem handlePacket_keeps (handler : Option PacketHandler) (packet : ReportStruct) (data : ReporterData) :
    k.get (handlePacket handler packet data) = k.get data ∧
      (handlePacket handler packet data).packetHandlerPreReport = data.packetHandlerPreReport ∧
      (handlePacket handler packet data).transferIntervalHandler = data.transferIntervalHandler ∧
      (handlePacket handler packet data).transferProtocolHandler = data.transferProtocolHandler := by
  cases handler <;> cases k <;> exact ⟨rfl, rfl, rfl, rfl⟩

theorem timeInterval_keeps (data : ReporterData) (packet : ReportStruct) :
    let after := (reporterCondprintTimeIntervalReport data packet).1
    after.packetHandlerPreReport = data.packetHandlerPreReport ∧
      after.transferIntervalHandler = data.transferIntervalHandler := by
  simp only [reporterCondprintTimeIntervalReport]
  split <;> exact ⟨rfl, rfl⟩

/-- The interval report of a flow adds its bytes. -/
theorem intervalReport_shared (hs : k.get data = some s) (packetTime : Timeval) :
    let reported := (intervalReport data packetTime).1
    reported.info.common = data.info.common ∧ ∃ info, k.get reported = some { s with info } ∧
      info.total.Bytes.delta = s.info.total.Bytes.delta + data.info.total.Bytes.delta := by
  let stamped := ({ data.info with ts := { data.info.ts with packetTime } } : TransferInfo).stamp .interval
  refine ⟨flowStep_common data.transferProtocolHandler stamped .interval,
    k.add data.transferProtocolHandler.parts (data.transferProtocolHandler.parts.interval stamped) s.info, ?_,
    add_bytes data.transferProtocolHandler stamped s.info⟩
  cases k with
  | group =>
    have hgroup : data.groupSumReport = some s := hs
    simp only [Shared.get, intervalReport, TransferProtocol.handle, hgroup, Option.map_some]
    rfl
  | fullDuplex =>
    have hfullduplex : data.fullDuplexReport = some s := hs
    simp only [Shared.get, intervalReport, TransferProtocol.handle, hfullduplex, Option.map_some]
    rfl

/-- The interval handler on a record that crosses. -/
theorem timeInterval_shared (packet : ReportStruct) (hs : k.get data = some s)
    (hcross : timeDifference data.info.ts.nextTime packet.packetTime < 0) :
    ∃ info, k.get (reporterCondprintTimeIntervalReport data packet).1 =
        some (k.interval data.info.common { s with info }) ∧
      info.total.Bytes.delta = s.info.total.Bytes.delta + data.info.total.Bytes.delta := by
  obtain ⟨hcommon, info, hreported, hbytes⟩ := intervalReport_shared hs packet.packetTime
  refine ⟨info, ?_, hbytes⟩
  rw [← hcommon]
  simp only [reporterCondprintTimeIntervalReport, if_pos hcross]
  cases k with
  | group =>
    have hgroup : (intervalReport data packet.packetTime).1.groupSumReport = some { s with info } := hreported
    simp only [Shared.get, hgroup, onReport, Shared.interval]
  | fullDuplex =>
    have hfullduplex : (intervalReport data packet.packetTime).1.fullDuplexReport = some { s with info } := hreported
    simp only [Shared.get, hfullduplex, onReport, Shared.interval]

/-- After the interval handler a record is accounted, and its time is that of the shared report. -/
theorem recordPacket_shared (packet : ReportStruct) (hs : k.get data = some s) :
    ∃ ts, k.get (recordPacket packet data) = some { s with info := { s.info with ts } } := by
  have hkept := (handlePacket_keeps (k := k) data.packetHandlerPostReport packet data).1
  rw [hs] at hkept
  cases k with
  | group =>
    have hgroup : (handlePacket data.packetHandlerPostReport packet data).groupSumReport = some s := hkept
    refine ⟨{ s.info.ts with packetTime := packet.packetTime }, ?_⟩
    simp only [Shared.get, recordPacket, hgroup, Option.map_some]
  | fullDuplex =>
    have hfullduplex : (handlePacket data.packetHandlerPostReport packet data).fullDuplexReport = some s := hkept
    refine ⟨{ s.info.ts with packetTime := packet.packetTime }, ?_⟩
    simp only [Shared.get, recordPacket, hfullduplex, Option.map_some]

/-- A record of the traffic goes through the interval handler, if there is one, and is accounted. -/
theorem process_traffic (h : TimeReports data) (htraffic : ¬ packet.packetID < 0) :
    (reporterProcessTransferReport data packet).1 =
      recordPacket packet (if data.transferIntervalHandler = some .timeInterval then
        (reporterCondprintTimeIntervalReport (sampled data packet) packet).1 else sampled data packet) := by
  have hprocess : (reporterProcessTransferReport data packet).1 = (processPacket (sampled data packet) packet).1 := by
    unfold reporterProcessTransferReport
    rw [if_neg htraffic]
    rfl
  have hsampled : (sampled data packet).transferIntervalHandler = data.transferIntervalHandler := rfl
  rw [hprocess]
  cases hhandler : data.transferIntervalHandler with
  | none =>
    simp only [processPacket]
    rw [sampled_pre h packet, hsampled, hhandler]
    rfl
  | some handler =>
    obtain rfl := h.interval handler hhandler
    simp only [processPacket]
    rw [sampled_pre h packet, hsampled, hhandler]
    rfl

theorem crosses_eq_true :
    crosses data packet = true ↔ ¬ packet.packetID < 0 ∧ data.transferIntervalHandler = some .timeInterval ∧
      timeDifference data.info.ts.nextTime packet.packetTime < 0 := by
  rw [crosses, decide_eq_true_eq]

/-- A record that makes no interval report leaves the shared report alone, apart from its time. -/
theorem record_stays (h : TimeReports data) (hs : k.get data = some s) (htraffic : ¬ packet.packetID < 0)
    (hstays : ¬ crosses data packet = true) :
    ∃ ts, k.get (reporterProcessTransferReport data packet).1 = some { s with info := { s.info with ts } } := by
  rw [process_traffic h htraffic]
  apply recordPacket_shared
  have hsame := sampled_shared hs packet
  split
  · rename_i hhandler
    have hopen : ¬ timeDifference (sampled data packet).info.ts.nextTime packet.packetTime < 0 := by
      rw [(sampled_keeps data packet).1]
      exact fun hcross => hstays (crosses_eq_true.mpr ⟨htraffic, hhandler, hcross⟩)
    rw [reporterCondprintTimeIntervalReport, if_neg hopen]
    exact hsame
  · exact hsame

/-- A record that makes an interval report adds the bytes of its flow, and may print the shared report. -/
theorem record_crosses (h : TimeReports data) (hs : k.get data = some s) (hcross : crosses data packet = true) :
    ∃ sum ts, sum.total.Bytes.delta = s.info.total.Bytes.delta + data.info.total.Bytes.delta ∧
      let reported := k.interval data.info.common { s with info := sum }
      k.get (reporterProcessTransferReport data packet).1 =
        some { reported with info := { reported.info with ts } } := by
  obtain ⟨htraffic, hhandler, htime⟩ := crosses_eq_true.mp hcross
  obtain ⟨hts, hcommon, htotal⟩ := sampled_keeps data packet
  have hsame := sampled_shared hs packet
  obtain ⟨sum, hreported, hbytes⟩ := timeInterval_shared packet hsame (by rwa [hts])
  rw [hcommon] at hreported
  rw [htotal] at hbytes
  obtain ⟨ts, hafter⟩ := recordPacket_shared packet hreported
  refine ⟨sum, ts, hbytes, ?_⟩
  rw [process_traffic h htraffic, if_pos hhandler]
  exact hafter

/-- A shared report that loses a member has the bytes of its other members, as long as there are some. -/
theorem finalSum_keeps (prints : SumReport → Bool) (packetTime : Timeval) (s : SumReport) :
    let after := (finalSum prints packetTime s).1
    after.threads = s.threads ∧ after.count = s.count - 1 ∧
      (after.count ≠ 0 → after.info.total = s.info.total) := by
  simp only [finalSum_fst]
  split
  · rename_i hlast
    exact ⟨rfl, rfl, fun hne => absurd hlast.1 hne⟩
  · exact ⟨rfl, rfl, fun _ => rfl⟩

/-- The last record of a flow adds the rest of its bytes; the group report counts a member less. -/
theorem record_final (h : TimeReports data) (hs : k.get data = some s) (hlast : packet.packetID < 0) :
    ∃ after, k.get (reporterProcessTransferReport data packet).1 = some after ∧ after.threads = s.threads ∧
      (k = .group → after.count = s.count - 1) ∧
      (after.count ≠ 0 →
        after.info.total.Bytes.delta = s.info.total.Bytes.delta + lastBytes data packet) := by
  let handled := handlePacket data.packetHandlerPostReport packet (sampled data packet)
  let stats := { handled.info with ts := { handled.info.ts with packetTime := packet.packetTime } }
  let reported := (handled.transferProtocolHandler.parts.handle { handled with info := stats } true).1
  have hhandled : k.get handled = some s := by
    rw [(handlePacket_keeps data.packetHandlerPostReport packet (sampled data packet)).1]
    exact sampled_shared hs packet
  obtain ⟨sum, hsum, hbytes⟩ : ∃ sum, k.get reported = some { s with info := sum } ∧
      sum.total.Bytes.delta = s.info.total.Bytes.delta + lastBytes data packet := by
    refine ⟨k.add handled.transferProtocolHandler.parts (handled.transferProtocolHandler.parts.interval stats) s.info, ?_,
      add_bytes handled.transferProtocolHandler stats s.info⟩
    cases k with
    | group =>
      have hgroup : handled.groupSumReport = some s := hhandled
      simp only [Shared.get, reported, TransferProtocol.handle, hgroup, Option.map_some]
      rfl
    | fullDuplex =>
      have hfullduplex : handled.fullDuplexReport = some s := hhandled
      simp only [Shared.get, reported, TransferProtocol.handle, hfullduplex, Option.map_some]
      rfl
  have hafter : (reporterProcessTransferReport data packet).1 = lastShared packet reported := by
    rw [process_last hlast, lastReported, lastHandled_eq h.pre]
  cases k with
  | group =>
    have hgroup : reported.groupSumReport = some { s with info := sum } := hsum
    refine ⟨(finalSum (fun s => s.maxcount > 1 || reported.info.common.isSumOnly) packet.packetTime
      { s with info := sum }).1, ?_, ?_⟩
    · rw [hafter]
      simp only [Shared.get, lastShared, hgroup, onReport]
    · obtain ⟨hthreads, hcount, htotal⟩ := finalSum_keeps
        (fun s => s.maxcount > 1 || reported.info.common.isSumOnly) packet.packetTime { s with info := sum }
      exact ⟨hthreads, fun _ => hcount, fun hne => by rw [htotal hne, hbytes]⟩
  | fullDuplex =>
    have hfullduplex : reported.fullDuplexReport = some { s with info := sum } := hsum
    by_cases henhanced : reported.info.common.isEnhanced
    · refine ⟨(finalSum (fun _ => true) packet.packetTime { s with info := sum }).1, ?_, ?_⟩
      · rw [hafter]
        simp only [Shared.get, lastShared, if_pos henhanced, hfullduplex, onReport]
      · obtain ⟨hthreads, -, htotal⟩ := finalSum_keeps (fun _ => true) packet.packetTime { s with info := sum }
        exact ⟨hthreads, (fun hgroup => by cases hgroup), fun hne => by rw [htotal hne, hbytes]⟩
    · refine ⟨{ s with info := sum }, ?_, rfl, (fun hgroup => by cases hgroup), fun _ => hbytes⟩
      rw [hafter]
      simp only [Shared.get, lastShared, if_neg henhanced, hfullduplex]

theorem TimeReports.of_eq {data' : ReporterData} (h : TimeReports data)
    (hpre : data'.packetHandlerPreReport = data.packetHandlerPreReport)
    (hinterval : data'.transferIntervalHandler = data.transferIntervalHandler) : TimeReports data' where
  pre := hpre.trans h.pre
  interval handler hhandler := h.interval handler (hinterval.symm.trans hhandler)

/-- The handlers of a flow stay as they were set. -/
theorem TimeReports.record (h : TimeReports data) (packet : ReportStruct) :
    TimeReports (reporterProcessTransferReport data packet).1 := by
  have hhandled : ∀ handler data', TimeReports data' → TimeReports (handlePacket handler packet data') := by
    intro handler data' h'
    obtain ⟨-, hpre, hinterval, -⟩ := handlePacket_keeps (k := .group) handler packet data'
    exact h'.of_eq hpre hinterval
  have hsampled : TimeReports (sampled data packet) := ⟨h.pre, h.interval⟩
  by_cases hlast : packet.packetID < 0
  · have hboth := hhandled data.packetHandlerPostReport _ (hhandled data.packetHandlerPreReport _ hsampled)
    rw [process_final hlast]
    refine hboth.of_eq ?_ ?_
    · simp only [processFinalPacket, TransferProtocol.handle]
      rw [(handlePacket_keeps (k := .group) _ packet _).2.1, (handlePacket_keeps (k := .group) _ packet _).2.1,
        (handlePacket_keeps (k := .group) _ packet _).2.1, (handlePacket_keeps (k := .group) _ packet _).2.1]
    · simp only [processFinalPacket, TransferProtocol.handle]
      rw [(handlePacket_keeps (k := .group) _ packet _).2.2.1, (handlePacket_keeps (k := .group) _ packet _).2.2.1,
        (handlePacket_keeps (k := .group) _ packet _).2.2.1, (handlePacket_keeps (k := .group) _ packet _).2.2.1]
  · have hreports : TimeReports (if data.transferIntervalHandler = some .timeInterval then
        (reporterCondprintTimeIntervalReport (sampled data packet) packet).1 else sampled data packet) := by
      split
      · obtain ⟨hpre, hinterval⟩ := timeInterval_keeps (sampled data packet) packet
        exact hsampled.of_eq hpre hinterval
      · exact hsampled
    rw [process_traffic h hlast]
    exact (hhandled _ _ hreports).of_eq rfl rfl

end

/-! ## The members -/

/-- The interval of a member that a report of the group takes in: which one it is, and its bytes. -/
structure Part (ι : Type*) where
  member : ι
  number : Nat
  bytes : Int

def Part.arrival {ι : Type*} (p : Part ι) : Trigger.Arrival ι := ⟨p.member, p.number⟩

/-- An interval report of a group: the intervals that were added since the last one, the members that run, and the
bytes that it shows. -/
structure GroupReport (ι : Type*) where
  parts : List (Part ι)
  running : ι → Bool
  cntBytes : Int

def GroupReport.round {ι : Type*} (g : GroupReport ι) : Trigger.Round ι := ⟨g.parts.map Part.arrival, g.running⟩

/-- Flows with the report that they share, which nobody uses after its last member was done. `reported` is the number of
interval reports that a flow made, `parts` is what was added to the shared report since its last interval report, and
`reports` are these. -/
structure Members (ι : Type*) where
  data : ι → ReporterData
  joined : ι → Bool
  done : ι → Bool
  shared : SumReport
  freed : Bool
  reported : ι → Nat
  parts : List (Part ι)
  reports : List (GroupReport ι)

inductive MembersEvent (ι : Type*)
  /-- `InitIndividualReport` counts a flow. -/
  | join (i : ι)
  /-- A traffic thread sets the times of its report and of the shared one when it starts. -/
  | times (i : ι) (ts sumts : ReportTimeStamps)
  /-- The reporter takes the next record of a flow from its ring. -/
  | record (i : ι) (packet : ReportStruct)

section
variable {ι : Type*}

def Members.start (k : Shared) (grp : Settings) (flows : ι → Settings) : Members ι where
  data i := initIndividualReport (flows i) none none
  joined := fun _ => false
  done := fun _ => false
  shared := initSumReport grp (k == .fullDuplex)
  freed := false
  reported := fun _ => 0
  parts := []
  reports := []

def Members.running (r : Members ι) (i : ι) : Bool := r.joined i && !r.done i

/-- The report of a flow, with its pointer to the shared report. -/
def Members.report (k : Shared) (r : Members ι) (i : ι) : ReporterData := k.point (r.data i) r.shared

/-- The shared report after a record of a member. -/
def Members.sharedAfter (k : Shared) (r : Members ι) (i : ι) (packet : ReportStruct) : SumReport :=
  (k.get (reporterProcessTransferReport (r.report k i) packet).1).getD r.shared

theorem Members.sharedAfter_of_get {k : Shared} {r : Members ι} {i : ι} {packet : ReportStruct} {s : SumReport}
    (hget : k.get (reporterProcessTransferReport (r.report k i) packet).1 = some s) :
    r.sharedAfter k i packet = s := by
  rw [Members.sharedAfter, hget, Option.getD_some]

/-- The record of a member. -/
def Members.record [DecidableEq ι] (k : Shared) (r : Members ι) (i : ι) (packet : ReportStruct) : Members ι :=
  let before := r.report k i
  let shared := r.sharedAfter k i packet
  let data := Function.update r.data i (reporterProcessTransferReport before packet).1
  if packet.packetID < 0 then
    { r with
      data
      shared
      done := Function.update r.done i true
      freed := shared.count = 0
      parts := r.parts ++ [⟨i, r.reported i, lastBytes before packet⟩] }
  else if crosses before packet then
    let reported := Function.update r.reported i (r.reported i + 1 + missed before packet)
    let parts := r.parts ++ [⟨i, r.reported i, before.info.total.Bytes.delta⟩]
    if k.fires before.info.common r.shared then
      { r with
        data
        shared
        reported
        parts := []
        reports := r.reports ++ [⟨parts, r.running, shared.info.cntBytes⟩] }
    else
      { r with
        data
        shared
        reported
        parts }
  else
    { r with
      data
      shared }

def Members.step [DecidableEq ι] (k : Shared) (r : Members ι) : MembersEvent ι → Option (Members ι)
  | .join i =>
    if r.joined i || r.freed then none
    else some { r with
      joined := Function.update r.joined i true
      shared := incrSumReportRefCounter r.shared }
  | .times i ts sumts =>
    if r.running i && !r.freed then
      some { r with
        data := Function.update r.data i { r.data i with info := { (r.data i).info with ts } }
        shared := { r.shared with info := { r.shared.info with ts := sumts } } }
    else none
  | .record i packet => if r.running i && !r.freed then some (r.record k i packet) else none

/-! ## The counter of the members -/

/-- What an event is to the counter. -/
def Members.event (k : Shared) (r : Members ι) : MembersEvent ι → Option (Trigger.Event ι)
  | .join i => some (.join i)
  | .times _ _ _ => none
  | .record i packet =>
    let before := r.report k i
    if packet.packetID < 0 then some (.leave i)
    else if crosses before packet then some (.arrive i (k.may before.info.common) (missed before packet))
    else none

/-- The members are those of a counter. -/
structure Members.Follows (k : Shared) (r : Members ι) (t : Trigger.State ι) : Prop where
  flows : ∀ i, TimeReports (r.data i)
  joined : t.joined = r.joined
  gone : t.gone = r.done
  threads : t.threads = r.shared.threads
  count : k = .group → t.count = r.shared.count
  came : t.came = r.reported
  opened : t.opened = r.parts.map Part.arrival
  rounds : t.rounds = r.reports.map GroupReport.round

namespace Members.Follows
variable {k : Shared} {r r' : Members ι} {t : Trigger.State ι} {i : ι} {packet : ReportStruct}

theorem start {grp : Settings} {flows : ι → Settings} (htime : ∀ i, TimeIntervals (flows i)) :
    (Members.start k grp flows).Follows k .empty where
  flows i := by
    obtain ⟨hbefore, hinterval⟩ := (htime i).handlers
    exact ⟨by simp [Members.start, initIndividualReport, hbefore], hinterval⟩
  joined := rfl
  gone := rfl
  threads := rfl
  count _ := rfl
  came := rfl
  opened := rfl
  rounds := rfl

theorem running (h : r.Follows k t) (i : ι) : t.running i = r.running i := by
  rw [Trigger.State.running, h.joined, h.gone, Members.running]

theorem report (h : r.Follows k t) (i : ι) : TimeReports (r.report k i) := by
  obtain ⟨hpre, hinterval⟩ := h.flows i
  cases k <;> exact ⟨hpre, hinterval⟩

theorem size (h : r.Follows k t) : k.size.getD t.count = k.size.getD r.shared.count := by
  cases k with
  | group => exact h.count rfl
  | fullDuplex => rfl

variable [DecidableEq ι]

theorem flows_record (h : r.Follows k t) (i : ι) (packet : ReportStruct) (j : ι) :
    TimeReports (Function.update r.data i (reporterProcessTransferReport (r.report k i) packet).1 j) := by
  by_cases hj : j = i
  · subst hj
    rw [Function.update_self]
    exact (h.report j).record packet
  · rw [Function.update_of_ne hj]
    exact h.flows j

/-- A record that makes no report. -/
theorem stays (h : r.Follows k t) (htraffic : ¬ packet.packetID < 0)
    (hstays : ¬ crosses (r.report k i) packet = true) : (r.record k i packet).Follows k t := by
  obtain ⟨ts, hget⟩ := record_stays (h.report i) (k.get_point (r.data i) r.shared) htraffic hstays
  have hshared : r.sharedAfter k i packet = { r.shared with info := { r.shared.info with ts } } :=
    Members.sharedAfter_of_get hget
  rw [Members.record, if_neg htraffic, if_neg hstays]
  simp only [hshared]
  exact ⟨h.flows_record i packet, h.joined, h.gone, h.threads, h.count, h.came, h.opened, h.rounds⟩

/-- A record that makes an interval report is an arrival. -/
theorem crosses (h : r.Follows k t) (hrunning : r.running i = true) (htraffic : ¬ packet.packetID < 0)
    (hcross : Report.crosses (r.report k i) packet = true) :
    ∃ t', Trigger.step k.size t (.arrive i (k.may (r.report k i).info.common) (missed (r.report k i) packet)) = some t' ∧
      (r.record k i packet).Follows k t' := by
  obtain ⟨sum, ts, -, hget⟩ := record_crosses (h.report i) (k.get_point (r.data i) r.shared) hcross
  have hrunning' : t.running i = true := (h.running i).trans hrunning
  have hfires : k.fires (r.report k i).info.common r.shared = true ↔
      t.threads + 1 = k.size.getD t.count ∧ k.may (r.report k i).info.common = true := by
    rw [Shared.fires, decide_eq_true_eq, h.threads, h.size]
  have hsame : k.fires (r.report k i).info.common { r.shared with info := sum } =
      k.fires (r.report k i).info.common r.shared := rfl
  let reported := k.interval (r.report k i).info.common { r.shared with info := sum }
  have hshared : r.sharedAfter k i packet = { reported with info := { reported.info with ts } } :=
    Members.sharedAfter_of_get hget
  rw [Members.record, if_neg htraffic, if_pos hcross]
  simp only [Trigger.step, if_pos hrunning']
  by_cases hfire : k.fires (r.report k i).info.common r.shared = true
  · obtain ⟨hthreads, hcount, -, -⟩ := interval_fires (hsame.trans hfire)
    rw [if_pos hfire, if_pos (hfires.mp hfire)]
    refine ⟨_, rfl, h.flows_record i packet, h.joined, h.gone, ?_, fun hgroup => ?_, ?_, rfl, ?_⟩
    · simp only [hshared]
      exact hthreads.symm
    · simp only [hshared]
      exact (h.count hgroup).trans hcount.symm
    · rw [h.came]
    · simp only [List.map_append, List.map_cons, List.map_nil, GroupReport.round, h.rounds, h.opened, h.came]
      rw [funext h.running]
      rfl
  · have hwaits := interval_waits (fun hf => hfire (hsame.symm.trans hf))
    rw [if_neg hfire, if_neg (fun hf => hfire (hfires.mpr hf))]
    refine ⟨_, rfl, h.flows_record i packet, h.joined, h.gone, ?_, fun hgroup => ?_, ?_, ?_, h.rounds⟩
    · simp only [hshared, reported, hwaits, h.threads]
    · simp only [hshared, reported, hwaits]
      exact h.count hgroup
    · rw [h.came]
    · simp only [List.map_append, List.map_cons, List.map_nil, h.opened, h.came]
      rfl

/-- The last record of a member takes it out of the group. -/
theorem final (h : r.Follows k t) (hrunning : r.running i = true) (hlast : packet.packetID < 0) :
    ∃ t', Trigger.step k.size t (.leave i) = some t' ∧ (r.record k i packet).Follows k t' := by
  obtain ⟨after, hget, hthreads, hcount, -⟩ := record_final (h.report i) (k.get_point (r.data i) r.shared) hlast
  have hrunning' : t.running i = true := (h.running i).trans hrunning
  have hshared : r.sharedAfter k i packet = after :=
    Members.sharedAfter_of_get hget
  rw [Members.record, if_pos hlast]
  simp only [Trigger.step, if_pos hrunning']
  refine ⟨_, rfl, h.flows_record i packet, h.joined, ?_, ?_, fun hgroup => ?_, h.came, ?_, h.rounds⟩
  · rw [h.gone]
  · simp only [hshared]
    exact h.threads.trans hthreads.symm
  · simp only [hshared]
    rw [hcount hgroup, h.count hgroup]
  · simp only [List.map_append, List.map_cons, List.map_nil, h.opened, h.came]
    rfl

/-- **Every event of the members is one of the counter, or none.** -/
theorem next (h : r.Follows k t) {e : MembersEvent ι} (hstep : r.step k e = some r') :
    (r.event k e = none ∧ r'.Follows k t) ∨
      ∃ e' t', r.event k e = some e' ∧ Trigger.step k.size t e' = some t' ∧ r'.Follows k t' := by
  cases e with
  | join i =>
    simp only [Members.step] at hstep
    split_ifs at hstep with hjoined
    obtain rfl := Option.some.inj hstep
    rw [Bool.or_eq_true, not_or] at hjoined
    have hnot : ¬ t.joined i = true := by
      rw [h.joined]
      exact hjoined.1
    refine .inr ⟨.join i, _, rfl, if_neg hnot, h.flows, ?_, h.gone, h.threads, fun hgroup => ?_, h.came, h.opened,
      h.rounds⟩
    · rw [h.joined]
    · simp only [h.count hgroup, incrSumReportRefCounter]
  | times i ts sumts =>
    simp only [Members.step] at hstep
    split_ifs at hstep with hrunning
    obtain rfl := Option.some.inj hstep
    refine .inl ⟨rfl, fun j => ?_, h.joined, h.gone, h.threads, h.count, h.came, h.opened, h.rounds⟩
    by_cases hj : j = i
    · subst hj
      simp only [Function.update_self]
      exact ⟨(h.flows j).pre, (h.flows j).interval⟩
    · simp only [Function.update_of_ne hj]
      exact h.flows j
  | record i packet =>
    simp only [Members.step] at hstep
    split_ifs at hstep with hrunning
    obtain rfl := Option.some.inj hstep
    rw [Bool.and_eq_true] at hrunning
    by_cases hlast : packet.packetID < 0
    · obtain ⟨t', hstep', hfollows⟩ := h.final hrunning.1 hlast
      exact .inr ⟨_, t', if_pos hlast, hstep', hfollows⟩
    · by_cases hcross : Report.crosses (r.report k i) packet = true
      · obtain ⟨t', hstep', hfollows⟩ := h.crosses hrunning.1 hlast hcross
        exact .inr ⟨_, t', (if_neg hlast).trans (if_pos hcross), hstep', hfollows⟩
      · exact .inl ⟨(if_neg hlast).trans (if_neg hcross), h.stays hlast hcross⟩

end Members.Follows

end

end Iperf2.Report
