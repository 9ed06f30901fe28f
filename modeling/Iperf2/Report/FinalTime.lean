import Iperf2.Report.Pairing
import Iperf2.Lib.Watermark
import Mathlib.Data.Fintype.Card

/-!
# The time of a final group report

`reporter_process_transfer_report` gives a group report, and a full duplex report, the time of every packet of its
members. The final packet of a member is compared with it: the report takes the time of the packet if that is the
earlier one. So the report that is left is a `Watermark`, lowered by the final packets.

* `record_traffic_time`, `record_final_time` : what a record does to the time and to the count of a shared report;
* `Sharing.Follows` : the time of the shared report is the mark of what the reporter took;
* `final_time_latest` : when the final report has the time of the latest final packet.
-/

namespace Iperf2.Report
open Transition

/-! ## The final report -/

/-- The end of the total interval that `reporter_set_timestamps_time` sets. -/
def totalEnd (ts : ReportTimeStamps) : Rat :=
  if timeDifference ts.packetTime ts.startTime < 0 then 0 else timeDifference ts.packetTime ts.startTime

/-- Time stamps with the same start and the same packet time. -/
structure SameTimes (ts ts' : ReportTimeStamps) : Prop where
  startTime : ts'.startTime = ts.startTime
  packetTime : ts'.packetTime = ts.packetTime

namespace SameTimes
variable {ts ts' ts'' : ReportTimeStamps}

theorem refl (ts : ReportTimeStamps) : SameTimes ts ts := ⟨rfl, rfl⟩

theorem trans (h : SameTimes ts ts') (h' : SameTimes ts' ts'') : SameTimes ts ts'' :=
  ⟨h'.startTime.trans h.startTime, h'.packetTime.trans h.packetTime⟩

theorem totalEnd (h : SameTimes ts ts') : totalEnd ts' = Report.totalEnd ts := by
  rw [Report.totalEnd, h.startTime, h.packetTime]
  rfl

/-- New time stamps of a report keep what they are made from. -/
theorem stamp (ts : ReportTimeStamps) (tstype : TimeStampType) :
    SameTimes ts (reporterSetTimestampsTime ts tstype) := by
  unfold reporterSetTimestampsTime
  split
  · exact ⟨rfl, rfl⟩
  · cases tstype <;> exact ⟨rfl, rfl⟩

theorem partialReport (stats : TransferInfo) : SameTimes stats.ts stats.partialReport.1.ts := by
  unfold TransferInfo.partialReport
  split
  · exact stamp stats.ts .finalpartialStamp
  · exact refl stats.ts

end SameTimes

/-- A part of a handler that leaves the times alone. -/
def KeepsTimes (f : TransferInfo → TransferInfo) : Prop := ∀ stats, (f stats).ts = stats.ts

theorem total_iEnd (ts : ReportTimeStamps) : (reporterSetTimestampsTime ts .total).iEnd = totalEnd ts := by
  unfold reporterSetTimestampsTime totalEnd
  split <;> rfl

theorem sumTcp_times {reset partialReset totals : TransferInfo → TransferInfo} (hreset : KeepsTimes reset)
    (hagain : KeepsTimes partialReset) (htotals : KeepsTimes totals) (stats : TransferInfo) :
    ∃ ts, (sumTcp reset partialReset totals stats true).1.ts = reporterSetTimestampsTime ts .total ∧
      SameTimes stats.ts ts := by
  refine ⟨(sumTcpInterval reset partialReset stats true).1.ts, ?_, ?_⟩
  · simp only [sumTcp, if_true, TransferInfo.stamp]
    rw [htotals]
  · simp only [sumTcpInterval, if_true]
    split
    · have hpart := SameTimes.partialReport { stats with cntBytes := stats.total.Bytes.delta }
      rw [hreset]
      split
      · rw [hagain]
        exact hpart
      · exact hpart
    · exact SameTimes.refl stats.ts

theorem fullduplexReport_times {interval shift totals : TransferInfo → TransferInfo} (hinterval : KeepsTimes interval)
    (hshift : KeepsTimes shift) (htotals : KeepsTimes totals) (stats : TransferInfo) :
    ∃ ts, (fullduplexReport interval shift totals stats true).1.ts = reporterSetTimestampsTime ts .total ∧
      SameTimes stats.ts ts := by
  simp only [fullduplexReport, if_true, TransferInfo.stamp]
  refine ⟨_, rfl, ?_⟩
  rw [htotals]
  split
  · have hpart := SameTimes.partialReport (interval stats)
    rw [hinterval] at hpart
    rw [hshift]
    exact hpart
  · exact SameTimes.refl stats.ts

/-- The total interval of a final report ends at the packet time that the report had before. -/
theorem sumHandle_times (handler : TransferProtocolSumHandler) (stats : TransferInfo) :
    ∃ ts, (handler.handle stats true).1.ts = reporterSetTimestampsTime ts .total ∧ SameTimes stats.ts ts := by
  cases handler with
  | sumServerUdp => exact ⟨stats.ts, rfl, SameTimes.refl stats.ts⟩
  | sumClientUdp => exact ⟨stats.ts, rfl, SameTimes.refl stats.ts⟩
  | sumServerTcp => apply sumTcp_times <;> exact fun _ => rfl
  | sumClientTcp => apply sumTcp_times <;> exact fun _ => rfl
  | fullduplexTcp => apply fullduplexReport_times <;> exact fun _ => rfl
  | fullduplexUdp => apply fullduplexReport_times <;> exact fun _ => rfl

/-- The last packet of a member lowers the time of the report; the total interval of a report that is printed ends
there. -/
theorem finalSum_times (prints : SumReport → Bool) (packetTime : Timeval) (s : SumReport) :
    let after := (finalSum prints packetTime s).1
    after.count = s.count - 1 ∧ after.maxcount = s.maxcount ∧
      timeDouble after.info.ts.packetTime = min (timeDouble s.info.ts.packetTime) (timeDouble packetTime) ∧
      (after.count = 0 ∧ prints (s.less packetTime) = true → after.info.ts.iEnd = totalEnd after.info.ts) := by
  have hless : timeDouble (s.less packetTime).info.ts.packetTime =
      min (timeDouble s.info.ts.packetTime) (timeDouble packetTime) := by
    simp only [SumReport.less, timeDifference_eq]
    split
    · rename_i hearlier
      exact (min_eq_right (sub_pos.mp hearlier).le).symm
    · rename_i hlater
      exact (min_eq_left (sub_nonpos.mp (not_lt.mp hlater))).symm
  simp only [finalSum_fst]
  split
  · obtain ⟨ts, hts, hsame⟩ := sumHandle_times s.transferProtocolSumHandler (s.less packetTime).info
    have hall := hsame.trans (SameTimes.stamp ts .total)
    refine ⟨rfl, rfl, ?_, fun _ => ?_⟩
    · rw [hts, hall.packetTime, hless]
    · rw [hts, total_iEnd]
      exact (SameTimes.stamp ts .total).totalEnd.symm
  · rename_i hsilent
    exact ⟨rfl, rfl, hless, fun hprinted => absurd hprinted hsilent⟩

/-! ## One record -/

namespace Shared

/-- The pointers of a flow: to the report that its group shares, and to the other one. -/
def attach : Shared → ReporterData → SumReport → Option SumReport → ReporterData
  | .group, data, s, other => { data with groupSumReport := some s, fullDuplexReport := other }
  | .fullDuplex, data, s, other => { data with groupSumReport := other, fullDuplexReport := some s }

@[simp] theorem get_attach (k : Shared) (data : ReporterData) (s : SumReport) (other : Option SumReport) :
    k.get (k.attach data s other) = some s := by
  cases k <;> rfl

@[simp] theorem attach_common (k : Shared) (data : ReporterData) (s : SumReport) (other : Option SumReport) :
    (k.attach data s other).info.common = data.info.common := by
  cases k <;> rfl

end Shared

/-- The members that a report counts. -/
structure SameMembers (s s' : SumReport) : Prop where
  count : s'.count = s.count
  maxcount : s'.maxcount = s.maxcount

/-- A flow keeps its flags, and the shared report its members. -/
structure KeepsMembers (k : Shared) (s : SumReport) (data data' : ReporterData) : Prop where
  common : data'.info.common = data.info.common
  shared : ∃ s', k.get data' = some s' ∧ SameMembers s s'

section
variable {k : Shared} {data : ReporterData} {packet : ReportStruct} {s : SumReport}

theorem KeepsMembers.refl (hs : k.get data = some s) : KeepsMembers k s data data := ⟨rfl, s, hs, rfl, rfl⟩

theorem KeepsMembers.trans {data' data'' : ReporterData} (h : KeepsMembers k s data data')
    (h' : ∀ s', k.get data' = some s' → KeepsMembers k s' data' data'') : KeepsMembers k s data data'' := by
  obtain ⟨s', hs', hsame⟩ := h.shared
  obtain ⟨s'', hs'', hsame'⟩ := (h' s' hs').shared
  exact ⟨(h' s' hs').common.trans h.common, s'', hs'', hsame'.count.trans hsame.count,
    hsame'.maxcount.trans hsame.maxcount⟩

theorem handlePacket_members (hs : k.get data = some s) (handler : Option PacketHandler) (packet : ReportStruct) :
    KeepsMembers k s data (handlePacket handler packet data) := by
  refine ⟨?_, s, (handlePacket_keeps handler packet data).1.trans hs, rfl, rfl⟩
  cases handler with
  | none => rfl
  | some h => exact (h.handle_keeps data.info packet).1

theorem sampled_members (hs : k.get data = some s) (packet : ReportStruct) :
    KeepsMembers k s data (sampled data packet) :=
  ⟨(sampled_keeps data packet).2.1, s, sampled_shared hs packet, rfl, rfl⟩

theorem interval_members (k : Shared) (common : ReportCommon) (s : SumReport) : SameMembers s (k.interval common s) := by
  cases k with
  | group =>
    simp only [Shared.interval, groupInterval]
    split <;> exact ⟨rfl, rfl⟩
  | fullDuplex =>
    simp only [Shared.interval, fullduplexInterval]
    split <;> exact ⟨rfl, rfl⟩

theorem timeInterval_members (hs : k.get data = some s) (packet : ReportStruct) :
    KeepsMembers k s data (reporterCondprintTimeIntervalReport data packet).1 := by
  by_cases hcross : timeDifference data.info.ts.nextTime packet.packetTime < 0
  · obtain ⟨info, hget, -⟩ := timeInterval_shared packet hs hcross
    have hsame := interval_members k data.info.common { s with info }
    refine ⟨?_, _, hget, hsame.count, hsame.maxcount⟩
    obtain ⟨ts, hmissed⟩ := printableMissed_info (intervalReport data packet.packetTime).1.info packet
    simp only [reporterCondprintTimeIntervalReport, if_pos hcross]
    rw [hmissed]
    exact (intervalReport_shared hs packet.packetTime).1
  · rw [reporterCondprintTimeIntervalReport, if_neg hcross]
    exact KeepsMembers.refl hs

theorem onewayTransit_common (stats : TransferInfo) (packet : ReportStruct) :
    (reporterHandlePacketOnewayTransit stats packet).1.common = stats.common := by
  unfold reporterHandlePacketOnewayTransit
  simp only

theorem intervalHandler_members (hs : k.get data = some s) (handler : TransferIntervalHandler) (packet : ReportStruct) :
    KeepsMembers k s data (handler.handle data packet).1 := by
  have hinfo : ∀ info : TransferInfo, info.common = data.info.common →
      KeepsMembers k s data { data with info } := by
    intro info hcommon
    refine ⟨hcommon, s, ?_, rfl, rfl⟩
    rw [← hs]
    cases k <;> rfl
  cases handler with
  | timeInterval => exact timeInterval_members hs packet
  | frameIntervalServerUdp =>
    unfold TransferIntervalHandler.handle reporterCondprintFrameIntervalReportServerUdp
    simp only
    split_ifs <;> refine hinfo _ ?_ <;> rfl
  | frameIntervalServerTcp => exact KeepsMembers.refl hs
  | burstIntervalServerTcp =>
    simp only [TransferIntervalHandler.handle, reporterCondprintBurstIntervalReportServerTcp]
    split
    · exact hinfo _ (onewayTransit_common data.info packet)
    · exact KeepsMembers.refl hs

/-- The interval reports that a record of the traffic makes. -/
def reportIntervals (packet : ReportStruct) (data : ReporterData) : ReporterData :=
  match data.transferIntervalHandler with
  | none => data
  | some h => (h.handle data packet).1

theorem reportIntervals_members (hs : k.get data = some s) (packet : ReportStruct) :
    KeepsMembers k s data (reportIntervals packet data) := by
  unfold reportIntervals
  split
  · exact KeepsMembers.refl hs
  · exact intervalHandler_members hs _ packet

theorem processPacket_reports (data : ReporterData) (packet : ReportStruct) :
    (processPacket data packet).1 =
      recordPacket packet (reportIntervals packet (handlePacket data.packetHandlerPreReport packet data)) := by
  unfold processPacket reportIntervals
  generalize handlePacket data.packetHandlerPreReport packet data = handled
  cases hhandler : handled.transferIntervalHandler with
  | none =>
    simp only [hhandler]
    rfl
  | some h =>
    simp only [hhandler]
    rfl

theorem recordPacket_time (hs : k.get data = some s) (packet : ReportStruct) :
    let after := recordPacket packet data
    after.info.common = data.info.common ∧
      k.get after = some { s with info := { s.info with ts := { s.info.ts with packetTime := packet.packetTime } } } := by
  have hkept := (handlePacket_keeps (k := k) data.packetHandlerPostReport packet data).1
  refine ⟨(handlePacket_members hs data.packetHandlerPostReport packet).common, ?_⟩
  rw [hs] at hkept
  cases k with
  | group =>
    have hgroup : (handlePacket data.packetHandlerPostReport packet data).groupSumReport = some s := hkept
    simp only [Shared.get, recordPacket, hgroup, Option.map_some]
  | fullDuplex =>
    have hfullduplex : (handlePacket data.packetHandlerPostReport packet data).fullDuplexReport = some s := hkept
    simp only [Shared.get, recordPacket, hfullduplex, Option.map_some]

/-- **A record of the traffic** sets the time of the shared report. -/
theorem record_traffic_time (hs : k.get data = some s) (htraffic : ¬ packet.packetID < 0) :
    let after := (reporterProcessTransferReport data packet).1
    after.info.common = data.info.common ∧ ∃ s', k.get after = some s' ∧ SameMembers s s' ∧
      s'.info.ts.packetTime = packet.packetTime := by
  have hafter : (reporterProcessTransferReport data packet).1 = (processPacket (sampled data packet) packet).1 := by
    unfold reporterProcessTransferReport
    rw [if_neg htraffic]
    rfl
  have hreported := (sampled_members hs packet).trans fun s₁ h₁ =>
    (handlePacket_members h₁ (sampled data packet).packetHandlerPreReport packet).trans fun s₂ h₂ =>
      reportIntervals_members h₂ packet
  obtain ⟨hcommon, s', hs', hsame⟩ := hreported
  obtain ⟨hcommon', hget⟩ := recordPacket_time hs' packet
  rw [hafter, processPacket_reports]
  exact ⟨hcommon'.trans hcommon, _, hget, ⟨hsame.count, hsame.maxcount⟩, rfl⟩

theorem add_ts (k : Shared) (handler : TransferProtocolHandler) (stats sum : TransferInfo) :
    (k.add handler.parts (handler.parts.interval stats) sum).ts = sum.ts := by
  cases k <;> cases handler <;> rfl

/-- A final report of a flow leaves the times of the shared report alone. -/
theorem finalHandle_members (hs : k.get data = some s) :
    let after := (data.transferProtocolHandler.parts.handle data true).1
    after.info.common = data.info.common ∧ ∃ info, k.get after = some { s with info } ∧ info.ts = s.info.ts := by
  let p := data.transferProtocolHandler.parts
  refine ⟨?_, k.add p (p.interval data.info) s.info, ?_, ?_⟩
  · exact (Count.final (c := .Datagrams) (.inl rfl) data.info).1
  · cases k with
    | group =>
      have hgroup : data.groupSumReport = some s := hs
      simp only [Shared.get, TransferProtocol.handle, hgroup, Option.map_some]
      rfl
    | fullDuplex =>
      have hfullduplex : data.fullDuplexReport = some s := hs
      simp only [Shared.get, TransferProtocol.handle, hfullduplex, Option.map_some]
      rfl
  · exact add_ts k data.transferProtocolHandler data.info s.info

theorem lastHandled_members (hs : k.get data = some s) (packet : ReportStruct) :
    (lastHandled data packet).info.common = data.info.common ∧ k.get (lastHandled data packet) = some s := by
  let pre := handlePacket data.packetHandlerPreReport packet (sampled data packet)
  have hpre : k.get pre = some s := (handlePacket_keeps _ packet _).1.trans (sampled_shared hs packet)
  have hpost : k.get (handlePacket pre.packetHandlerPostReport packet pre) = some s :=
    (handlePacket_keeps _ packet _).1.trans hpre
  refine ⟨?_, ?_⟩
  · calc (lastHandled data packet).info.common
      _ = pre.info.common := (handlePacket_members hpre pre.packetHandlerPostReport packet).common
      _ = (sampled data packet).info.common := (handlePacket_members (sampled_shared hs packet) _ packet).common
      _ = data.info.common := (sampled_keeps data packet).2.1
  · rw [← hpost]
    cases k <;> rfl

/-- **The last record of a member** lowers the time of the shared report. -/
theorem record_final_time (hs : k.get data = some s) (hlast : packet.packetID < 0)
    (henhanced : k = .fullDuplex → data.info.common.isEnhanced = true) :
    let after := (reporterProcessTransferReport data packet).1
    after.info.common = data.info.common ∧ ∃ s', k.get after = some s' ∧ s'.count = s.count - 1 ∧
      s'.maxcount = s.maxcount ∧
      timeDouble s'.info.ts.packetTime = min (timeDouble s.info.ts.packetTime) (timeDouble packet.packetTime) ∧
      (s'.count = 0 → k = .fullDuplex ∨ 1 < s.maxcount ∨ data.info.common.isSumOnly = true →
        s'.info.ts.iEnd = totalEnd s'.info.ts) := by
  let handled := lastHandled data packet
  let reported := lastReported data packet
  let prints (s : SumReport) : Bool := s.maxcount > 1 || reported.info.common.isSumOnly
  obtain ⟨hcommon, hhandled⟩ := lastHandled_members hs packet
  obtain ⟨hreported, info, hget, hts⟩ := finalHandle_members hhandled
  have hflags : reported.info.common = data.info.common := hreported.trans hcommon
  have hlowered := fun prints => finalSum_times prints packet.packetTime { s with info }
  simp only [hts] at hlowered
  rw [process_last hlast]
  refine ⟨hflags, ?_⟩
  cases k with
  | group =>
    have hgroup : reported.groupSumReport = some { s with info } := hget
    obtain ⟨hcount, hmaxcount, htime, hend⟩ := hlowered prints
    refine ⟨_, ?_, hcount, hmaxcount, htime, fun hzero hprints => hend ⟨hzero, ?_⟩⟩
    · show (onReport _ reported.groupSumReport).1 = _
      rw [hgroup]
      rfl
    · simp only [prints, SumReport.less, hflags, Bool.or_eq_true, decide_eq_true_eq]
      rcases hprints with hduplex | hprints
      · cases hduplex
      · exact hprints
  | fullDuplex =>
    have hfullduplex : reported.fullDuplexReport = some { s with info } := hget
    have hcompares : reported.info.common.isEnhanced = true := by
      rw [hflags]
      exact henhanced rfl
    obtain ⟨hcount, hmaxcount, htime, hend⟩ := hlowered fun _ => true
    refine ⟨_, ?_, hcount, hmaxcount, htime, fun hzero _ => hend ⟨hzero, rfl⟩⟩
    show (if reported.info.common.isEnhanced then onReport _ reported.fullDuplexReport else _).1 = _
    rw [if_pos hcompares, hfullduplex]
    rfl

end

/-! ## The members -/

/-- Flows with the report that they share, which nobody uses after its last member was done, and the records that the
reporter took from them, in order. -/
structure Sharing (ι : Type*) where
  data : ι → ReporterData
  joined : ι → Bool
  done : ι → Bool
  shared : SumReport
  freed : Bool
  taken : List (ι × ReportStruct)

inductive SharingEvent (ι : Type*)
  /-- `InitIndividualReport` counts a flow. -/
  | join (i : ι)
  /-- `SetReportStartTime` sets the times of a flow, and the start and the end of the interval of the shared report. -/
  | start (i : ι) (ts : ReportTimeStamps) (startTime nextTime : Timeval)
  /-- The reporter takes the next record of a flow from its ring. The other report that the flow shares may be any. -/
  | record (i : ι) (other : Option SumReport) (packet : ReportStruct)

section
variable {ι : Type*}

/-- What a record is to the time of the shared report. -/
def timeEvent (packet : ReportStruct) : Watermark.Event Rat :=
  if packet.packetID < 0 then .lower (timeDouble packet.packetTime) else .write (timeDouble packet.packetTime)

namespace Sharing

def init (k : Shared) (grp : Settings) (flows : ι → Settings) : Sharing ι where
  data i := initIndividualReport (flows i) none none
  joined := fun _ => false
  done := fun _ => false
  shared := initSumReport grp (k == .fullDuplex)
  freed := false
  taken := []

def running (r : Sharing ι) (i : ι) : Bool := r.joined i && !r.done i

variable [DecidableEq ι]

def record (k : Shared) (r : Sharing ι) (i : ι) (other : Option SumReport) (packet : ReportStruct) : Sharing ι :=
  let after := (reporterProcessTransferReport (k.attach (r.data i) r.shared other) packet).1
  let shared := (k.get after).getD r.shared
  { r with
    data := Function.update r.data i after
    done := if packet.packetID < 0 then Function.update r.done i true else r.done
    shared
    freed := packet.packetID < 0 ∧ shared.count = 0
    taken := r.taken ++ [(i, packet)] }

def step (k : Shared) (r : Sharing ι) : SharingEvent ι → Option (Sharing ι)
  | .join i =>
    if r.joined i || r.freed then none
    else some { r with
      joined := Function.update r.joined i true
      shared := incrSumReportRefCounter r.shared }
  | .start i ts startTime nextTime =>
    if r.running i && !r.freed then
      let sumts := { r.shared.info.ts with
        startTime
        nextTime }
      some { r with
        data := Function.update r.data i { r.data i with info := { (r.data i).info with ts } }
        shared := { r.shared with info := { r.shared.info with ts := sumts } } }
    else none
  | .record i other packet => if r.running i && !r.freed then some (r.record k i other packet) else none

/-! ## The time of the shared report -/

omit [DecidableEq ι] in
/-- What the records were to the time of the shared report. -/
def timeEvents (r : Sharing ι) : List (Watermark.Event Rat) := r.taken.map fun p => timeEvent p.2

/-- The times of the final packets. -/
def finalTimes (r : Sharing ι) : Set Rat :=
  {t | ∃ p ∈ r.taken, p.2.packetID < 0 ∧ timeDouble p.2.packetTime = t}

/-- The time of the last packet of the traffic, which is 0 before the first, and the times of the final packets after
it. -/
def openTimes (r : Sharing ι) : List Rat := r.timeEvents.foldl Watermark.sources [0]

/-- The final report is printed: a full duplex report always, that of a group of several flows or of flows without
reports of their own. -/
def PrintsFinal (k : Shared) (flows : ι → Settings) (r : Sharing ι) : Prop :=
  k = .fullDuplex ∨ 1 < r.shared.maxcount ∨ ∀ i, (flows i).isSumOnly = true

variable [Fintype ι]

omit [DecidableEq ι] in
def members (r : Sharing ι) : Finset ι := Finset.univ.filter fun i => r.running i = true

/-- The shared report counts its members and its time is the mark of the records; the last record of the last member
makes the final report. -/
structure Follows (k : Shared) (flows : ι → Settings) (r : Sharing ι) : Prop where
  common : ∀ i, (r.data i).info.common = commonCopy (flows i)
  count : r.shared.count = r.members.card
  joined : ∀ i, r.done i = true → r.joined i = true
  final : ∀ i, r.done i = true → ∃ packet, (i, packet) ∈ r.taken ∧ packet.packetID < 0
  mark : timeDouble r.shared.info.ts.packetTime = r.timeEvents.foldl Watermark.step 0
  freed : r.freed = true → r.shared.count = 0 ∧ (∃ events time, r.timeEvents = events ++ [.lower time]) ∧
    (r.PrintsFinal k flows → r.shared.info.ts.iEnd = totalEnd r.shared.info.ts)

namespace Follows
variable {k : Shared} {grp : Settings} {flows : ι → Settings} {r : Sharing ι} {i : ι} {other : Option SumReport}
  {packet : ReportStruct}

omit [DecidableEq ι] in
theorem init (k : Shared) (grp : Settings) (flows : ι → Settings) : (Sharing.init k grp flows).Follows k flows where
  common _ := rfl
  count := by simp [Sharing.init, initSumReport, members, running]
  joined _ hdone := by cases hdone
  final _ hdone := by cases hdone
  mark := by
    have hzero : (Sharing.init k grp flows).shared.info.ts.packetTime = ⟨0, 0⟩ := by
      simp only [Sharing.init, initSumReport]
      split <;> rfl
    rw [hzero]
    simp [timeDouble, timeEvents, Sharing.init]
  freed hfreed := by cases hfreed

theorem join (h : r.Follows k flows) (hi : r.joined i = false) (hopen : r.freed = false) :
    ({ r with
       joined := Function.update r.joined i true
       shared := incrSumReportRefCounter r.shared } : Sharing ι).Follows k flows := by
  have hnot : r.done i = false := by
    by_contra hdone
    exact absurd (h.joined i (by simpa using hdone)) (by simp [hi])
  have hmembers : ({ r with
       joined := Function.update r.joined i true
       shared := incrSumReportRefCounter r.shared } : Sharing ι).members = insert i r.members := by
    ext j
    by_cases hj : j = i
    · subst hj
      simp [members, running, hnot]
    · simp [members, running, hj]
  refine ⟨h.common, ?_, fun j hdone => ?_, h.final, h.mark, fun hfreed => ?_⟩
  · rw [hmembers, Finset.card_insert_of_notMem (by simp [members, running, hi])]
    simp only [incrSumReportRefCounter, h.count]
    push_cast
    rfl
  · by_cases hj : j = i
    · subst hj
      exact Function.update_self ..
    · exact (Function.update_of_ne hj ..).trans (h.joined j hdone)
  · exact absurd hfreed (by simp [hopen])

theorem start (h : r.Follows k flows) (hopen : r.freed = false) (ts : ReportTimeStamps) (startTime nextTime : Timeval) :
    ({ r with
       data := Function.update r.data i { r.data i with info := { (r.data i).info with ts } }
       shared := { r.shared with info := { r.shared.info with ts := { r.shared.info.ts with
         startTime
         nextTime } } } } : Sharing ι).Follows k flows := by
  refine ⟨fun j => ?_, h.count, h.joined, h.final, h.mark, fun hfreed => ?_⟩
  · by_cases hj : j = i
    · subst hj
      simp only [Function.update_self]
      exact h.common j
    · simp only [Function.update_of_ne hj]
      exact h.common j
  · exact absurd hfreed (by simp [hopen])

omit [Fintype ι] in
theorem timeEvents_record (r : Sharing ι) (i : ι) (other : Option SumReport) (packet : ReportStruct) :
    (r.record k i other packet).timeEvents = r.timeEvents ++ [timeEvent packet] := by
  simp only [timeEvents, Sharing.record, List.map_append, List.map_cons, List.map_nil]

omit [Fintype ι] in
theorem common_record {data : ReporterData} (hcommon : ∀ j, (r.data j).info.common = commonCopy (flows j))
    (hdata : data.info.common = (r.data i).info.common) (j : ι) :
    (Function.update r.data i data j).info.common = commonCopy (flows j) := by
  by_cases hj : j = i
  · subst hj
    rw [Function.update_self, hdata]
    exact hcommon j
  · rw [Function.update_of_ne hj]
    exact hcommon j

omit [Fintype ι] [DecidableEq ι] in
/-- The final packets that were taken before are still there. -/
theorem final_record {j : ι} (h : ∃ packet, (j, packet) ∈ r.taken ∧ packet.packetID < 0) :
    ∃ packet', (j, packet') ∈ r.taken ++ [(i, packet)] ∧ packet'.packetID < 0 := by
  obtain ⟨packet', hmem, hlast⟩ := h
  exact ⟨packet', List.mem_append_left _ hmem, hlast⟩

/-- A record of the traffic. -/
theorem traffic (h : r.Follows k flows) (htraffic : ¬ packet.packetID < 0) :
    (r.record k i other packet).Follows k flows := by
  obtain ⟨hcommon, s', hs', hsame, htime⟩ := record_traffic_time (k.get_attach (r.data i) r.shared other) htraffic
  rw [k.attach_common] at hcommon
  have hshared : (r.record k i other packet).shared = s' := by
    simp only [Sharing.record, hs', Option.getD_some]
  have hmembers : (r.record k i other packet).members = r.members := by
    ext j
    simp [members, running, Sharing.record, htraffic]
  refine ⟨common_record h.common hcommon, ?_, ?_, fun j hdone => ?_, ?_, fun hfreed => ?_⟩
  · rw [hshared, hmembers, hsame.count, h.count]
  · simp only [Sharing.record, if_neg htraffic]
    exact h.joined
  · simp only [Sharing.record, if_neg htraffic] at hdone
    exact final_record (h.final j hdone)
  · rw [hshared, htime, timeEvents_record, List.foldl_append, timeEvent, if_neg htraffic]
    rfl
  · simp only [Sharing.record, decide_eq_true_eq] at hfreed
    exact absurd hfreed.1 htraffic

/-- The last record of a member. -/
theorem last (h : r.Follows k flows) (henhanced : k = .fullDuplex → ∀ i, (flows i).isEnhanced = true)
    (hrunning : r.running i = true) (hlast : packet.packetID < 0) : (r.record k i other packet).Follows k flows := by
  have hflags : (k.attach (r.data i) r.shared other).info.common = commonCopy (flows i) := by
    rw [k.attach_common, h.common i]
  obtain ⟨hcommon, s', hs', hcount, hmaxcount, htime, hend⟩ :=
    record_final_time (k.get_attach (r.data i) r.shared other) hlast fun hduplex => by
      rw [hflags]
      exact henhanced hduplex i
  rw [k.attach_common] at hcommon
  have hshared : (r.record k i other packet).shared = s' := by
    simp only [Sharing.record, hs', Option.getD_some]
  have hmembers : (r.record k i other packet).members = r.members.erase i := by
    ext j
    by_cases hj : j = i
    · subst hj
      simp [members, running, Sharing.record, hlast]
    · simp [members, running, Sharing.record, hlast, hj]
  have hmem : i ∈ r.members := by simpa [members] using hrunning
  have hevents : (r.record k i other packet).timeEvents = r.timeEvents ++ [.lower (timeDouble packet.packetTime)] := by
    rw [timeEvents_record, timeEvent, if_pos hlast]
  refine ⟨common_record h.common hcommon, ?_, fun j hdone => ?_, fun j hdone => ?_, ?_, fun hfreed => ?_⟩
  · have hpos : 0 < r.members.card := Finset.card_pos.mpr ⟨i, hmem⟩
    rw [hshared, hmembers, hcount, Finset.card_erase_of_mem hmem, h.count]
    omega
  · simp only [Sharing.record, if_pos hlast] at hdone ⊢
    by_cases hj : j = i
    · subst hj
      rw [running, Bool.and_eq_true] at hrunning
      exact hrunning.1
    · rw [Function.update_of_ne hj] at hdone
      exact h.joined j hdone
  · simp only [Sharing.record, if_pos hlast] at hdone
    by_cases hj : j = i
    · subst hj
      exact ⟨packet, List.mem_append_right _ (List.mem_singleton_self _), hlast⟩
    · rw [Function.update_of_ne hj] at hdone
      exact final_record (h.final j hdone)
  · rw [hshared, htime, h.mark, hevents, List.foldl_append]
    rfl
  · simp only [Sharing.record, hs', Option.getD_some, decide_eq_true_eq] at hfreed
    refine ⟨by rw [hshared]; exact hfreed.2, ⟨_, _, hevents⟩, fun hprints => ?_⟩
    rw [PrintsFinal, hshared, hmaxcount] at hprints
    rw [hshared]
    refine hend hfreed.2 ?_
    rw [hflags]
    rcases hprints with hduplex | hseveral | hsumonly
    · exact .inl hduplex
    · exact .inr (.inl hseveral)
    · exact .inr (.inr (hsumonly i))

/-- **Every event.** -/
theorem next (henhanced : k = .fullDuplex → ∀ i, (flows i).isEnhanced = true) (h : r.Follows k flows)
    {e : SharingEvent ι} {r' : Sharing ι} (hstep : r.step k e = some r') : r'.Follows k flows := by
  cases e with
  | join i =>
    simp only [Sharing.step] at hstep
    split_ifs at hstep with hjoined
    obtain rfl := Option.some.inj hstep
    rw [Bool.or_eq_true, not_or, Bool.not_eq_true, Bool.not_eq_true] at hjoined
    exact h.join hjoined.1 hjoined.2
  | start i ts startTime nextTime =>
    simp only [Sharing.step] at hstep
    split_ifs at hstep with hrunning
    obtain rfl := Option.some.inj hstep
    rw [Bool.and_eq_true, Bool.not_eq_true'] at hrunning
    exact h.start hrunning.2 ts startTime nextTime
  | record i other packet =>
    simp only [Sharing.step] at hstep
    split_ifs at hstep with hrunning
    obtain rfl := Option.some.inj hstep
    rw [Bool.and_eq_true] at hrunning
    by_cases hlast : packet.packetID < 0
    · exact h.last henhanced hrunning.1 hlast
    · exact h.traffic hlast

end Follows

/-! ## The final time -/

/-- The time of the shared report is that of the latest final packet. -/
def EndsLatest (r : Sharing ι) : Prop := IsGreatest r.finalTimes (timeDouble r.shared.info.ts.packetTime)

/-- No final packet is later than the last packet of the traffic, or than a final packet after that. -/
def LatestLast (r : Sharing ι) : Prop := ∀ t ∈ r.finalTimes, ∀ u ∈ r.openTimes, t ≤ u

omit [DecidableEq ι] [Fintype ι] in
theorem lowered_timeEvents (r : Sharing ι) : Watermark.lowered r.timeEvents = r.finalTimes := by
  ext t
  simp only [Watermark.lowered, timeEvents, finalTimes, List.mem_map, Set.mem_ofPred_eq]
  refine exists_congr fun p => and_congr_right fun _ => ?_
  rw [timeEvent]
  split
  · rename_i hlast
    simp [hlast]
  · rename_i htraffic
    simp [htraffic]

end Sharing

/-- **The final time of a group.** In every run, when the last member of a group, or of an enhanced full duplex test, is
done, all members delivered their final packet and a total interval that is printed ends at the time of the shared
report. That is the time of the latest final packet just if no final packet is later than the last packet of the
traffic, or than a final packet after that. -/
theorem final_time_latest [DecidableEq ι] [Fintype ι] {k : Shared} {grp : Settings} {flows : ι → Settings}
    (henhanced : k = .fullDuplex → ∀ i, (flows i).isEnhanced = true) {r : Sharing ι}
    (h : Reachable (Sharing.step k) Any (.init k grp flows) r) (hfreed : r.freed = true) :
    (∀ i, r.joined i = true → ∃ packet, (i, packet) ∈ r.taken ∧ packet.packetID < 0) ∧
      (r.PrintsFinal k flows → r.shared.info.ts.iEnd = totalEnd r.shared.info.ts) ∧
      (r.EndsLatest ↔ r.LatestLast) := by
  have hfollows : r.Follows k flows := by
    apply h.invariant
    · exact .init k grp flows
    · exact fun r e r' hfollows _ hstep => hfollows.next henhanced hstep
  obtain ⟨hcount, ⟨events, time, hevents⟩, hend⟩ := hfollows.freed hfreed
  refine ⟨fun i hi => hfollows.final i ?_, hend, ?_⟩
  · have hnone : r.members = ∅ := by
      have hcard := hfollows.count
      rw [hcount] at hcard
      exact Finset.card_eq_zero.mp (by omega)
    have hnot : i ∉ r.members := by rw [hnone]; exact Finset.notMem_empty i
    by_contra hopen
    rw [Bool.not_eq_true] at hopen
    exact hnot (by simp [Sharing.members, Sharing.running, hi, hopen])
  · rw [Sharing.EndsLatest, Sharing.LatestLast, Sharing.openTimes, ← Sharing.lowered_timeEvents, hfollows.mark, hevents]
    exact Watermark.run_isGreatest_iff events 0 time

end

/-! Two clients that write after half a second. -/

def sharedClients : Sharing Bool := .init .group everySecond fun _ => everySecond

def bothWrite : List (SharingEvent Bool) :=
  [.join false, .join true, .start false startTimes ⟨10, 0⟩ ⟨11, 0⟩, .start true startTimes ⟨10, 0⟩ ⟨11, 0⟩,
    .record false none (packetAt ⟨10, 500000⟩), .record true none (packetAt ⟨10, 500000⟩)]

/-- Both end at once. -/
theorem final_time_latest_both :
    ∃ r, run (Sharing.step .group) Any sharedClients
        (bothWrite ++ [.record false none (lastAt ⟨10, 500000⟩), .record true none (lastAt ⟨10, 500000⟩)]) = some r ∧
      r.EndsLatest := by
  have hrun : (run (Sharing.step .group) Any sharedClients (bothWrite ++
      [.record false none (lastAt ⟨10, 500000⟩), .record true none (lastAt ⟨10, 500000⟩)])).map
      (fun r => (r.freed, r.taken.all fun p => timeDouble p.2.packetTime = 21 / 2, r.openTimes)) =
      some (true, true, [21 / 2, 21 / 2, 21 / 2]) := by decide +kernel
  obtain ⟨r, hr, hvalues⟩ := Option.map_eq_some_iff.mp hrun
  simp only [Prod.mk.injEq] at hvalues
  obtain ⟨hfreed, htaken, hopen⟩ := hvalues
  have hlatest := (final_time_latest (fun hduplex => by cases hduplex) (.of_run _ _ .start hr) hfreed).2.2
  refine ⟨r, hr, hlatest.mpr fun t ht u hu => ?_⟩
  obtain ⟨p, hp, -, rfl⟩ := ht
  have hsame : timeDouble p.2.packetTime = 21 / 2 := by simpa using List.all_eq_true.mp htaken p hp
  rw [hopen] at hu
  have hu' : u = 21 / 2 := by simpa using hu
  rw [hsame, hu']

/-- One ends at 12 seconds and the other one at 11, and the total interval of both at 10.5 seconds. -/
theorem final_time_not_latest :
    ∃ r, Reachable (Sharing.step .group) Any sharedClients r ∧ r.freed = true ∧ r.shared.maxcount = 2 ∧
      r.shared.info.ts.packetTime = ⟨10, 500000⟩ ∧ ¬ r.EndsLatest := by
  have hrun : (run (Sharing.step .group) Any sharedClients (bothWrite ++
      [.record false none (lastAt ⟨12, 0⟩), .record true none (lastAt ⟨11, 0⟩)])).map
      (fun r => (r.freed, r.shared.maxcount, r.shared.info.ts.packetTime,
        decide ((false, lastAt ⟨12, 0⟩) ∈ r.taken))) = some (true, 2, ⟨10, 500000⟩, true) := by decide +kernel
  obtain ⟨r, hr, hvalues⟩ := Option.map_eq_some_iff.mp hrun
  simp only [Prod.mk.injEq] at hvalues
  obtain ⟨hfreed, hmaxcount, htime, hmem⟩ := hvalues
  refine ⟨r, .of_run _ _ .start hr, hfreed, hmaxcount, htime, fun hlatest => ?_⟩
  have hle := hlatest.2 ⟨_, of_decide_eq_true hmem, by decide, rfl⟩
  rw [htime] at hle
  exact absurd hle (by decide +kernel)

end Iperf2.Report
