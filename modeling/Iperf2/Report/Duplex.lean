import Iperf2.Report.Loss
import Iperf2.Report.Bursts
import Iperf2.Report.Catchup
import Iperf2.Report.Members

/-!
# The datagrams of a full duplex test

A UDP full duplex test has a client and a server, which share one full duplex report. Every interval report and the
final report of either flow adds its datagrams since the start of the interval to it. The client starts an interval at its
datagram count, the server at `PacketID`, the largest id it saw, and counts its datagrams from there.

* `UdpFlow.stays`, `UdpFlow.framed`, `UdpFlow.crosses`, `UdpFlow.final` : the datagrams of a flow and of the shared report
  after one record;
* `Duplex` : the two flows over their records, with what each report of the server added; `Duplex.Books`;
* `duplex_datagrams` : a report of the server adds what was received since the one before exactly when the largest id at
  the start of the interval was the number of datagrams received before that report.
-/

namespace Iperf2.Report
open Transition

/-! ## A flow of the test -/

/-- The transfer protocol handler of a UDP flow. -/
def ThreadMode.udpHandler : ThreadMode → TransferProtocolHandler
  | .server => .serverUdp
  | .client => .clientUdp

instance decidableReceived : DecidablePred Received := fun packet =>
  inferInstanceAs (Decidable (packet.emptyreport = false ∧ 1 ≤ packet.packetID))

/-- The datagrams that a record counts. -/
def ThreadMode.datagrams : ThreadMode → ReportStruct → Int
  | .server, packet => if Received packet then 1 else 0
  | .client, packet => if packet.emptyreport then 0 else 1

/-- The datagram count at the start of the interval after a report. -/
def ThreadMode.restart : ThreadMode → Bool → TransferInfo → Int
  | .server, false, stats => stats.PacketID
  | .server, true, stats => stats.total.Datagrams.prev
  | .client, _, stats => stats.total.Datagrams.current

/-- The report of a UDP flow, by its handlers. Frame reports are those of a server. -/
structure UdpFlow (mode : ThreadMode) (data : ReporterData) : Prop where
  protocol : data.transferProtocolHandler = mode.udpHandler
  pre : data.packetHandlerPreReport = none
  post : data.packetHandlerPostReport = some mode.udpHandler.packetHandler
  isUDP : data.info.common.isUDP = true
  interval : ∀ h, data.transferIntervalHandler = some h → h = .timeInterval ∨ mode = .server ∧ h = .frameIntervalServerUdp

/-- The record makes a frame report of its flow. -/
def framed (data : ReporterData) (packet : ReportStruct) : Bool :=
  ¬ packet.packetID < 0 ∧ data.transferIntervalHandler = some .frameIntervalServerUdp ∧
    EndsInterval .serverUdp data.info packet

theorem framed_eq_true {data : ReporterData} {packet : ReportStruct} :
    framed data packet = true ↔ ¬ packet.packetID < 0 ∧ data.transferIntervalHandler = some .frameIntervalServerUdp ∧
      EndsInterval .serverUdp data.info packet := by
  rw [framed, decide_eq_true_eq]

/-- A full duplex report with a datagram count. -/
def Holds (datagrams : Int) (s : Option SumReport) : Prop :=
  ∃ sum, s = some sum ∧ sum.info.total.Datagrams.current = datagrams

theorem Holds.map {n added : Int} {s : Option SumReport} (hs : Holds n s) {f : SumReport → SumReport}
    (hf : ∀ sum, (f sum).info.total.Datagrams.current = sum.info.total.Datagrams.current + added) :
    Holds (n + added) (s.map f) := by
  obtain ⟨sum, rfl, rfl⟩ := hs
  exact ⟨f sum, rfl, hf sum⟩

theorem Holds.onReport {n : Int} {s : Option SumReport} (hs : Holds n s) {step : SumReport → SumReport × List Output}
    (hstep : ∀ sum, (step sum).1.info.total.Datagrams.current = sum.info.total.Datagrams.current) :
    Holds n (onReport step s).1 := by
  obtain ⟨sum, rfl, rfl⟩ := hs
  exact ⟨(step sum).1, rfl, hstep sum⟩

section
variable {mode : ThreadMode} {data : ReporterData} {packet : ReportStruct}

theorem UdpFlow.init {inSettings : Settings} (hudp : inSettings.isUDP = true) (groupSumReport fullDuplexReport : Option SumReport) :
    UdpFlow inSettings.threadMode (initIndividualReport inSettings groupSumReport fullDuplexReport) := by
  have hbefore : accountsBefore inSettings = false := by simp [accountsBefore, hudp]
  have hhandler : initTransferProtocolHandler inSettings = inSettings.threadMode.udpHandler := by
    simp only [initTransferProtocolHandler, hudp]
    cases inSettings.threadMode <;> rfl
  refine ⟨hhandler, ?_, ?_, hudp, fun h hh => ?_⟩
  · simp [initIndividualReport, hbefore]
  · simp [initIndividualReport, hbefore, hhandler]
  · simp only [initIndividualReport, initTransferIntervalHandler, hudp] at hh
    cases hmode : inSettings.threadMode with
    | server =>
      simp only [hmode] at hh
      split_ifs at hh
      · exact .inr ⟨rfl, (Option.some.inj hh).symm⟩
      · exact .inl (Option.some.inj hh).symm
    | client =>
      simp only [hmode] at hh
      split_ifs at hh
      exact .inl (Option.some.inj hh).symm

theorem UdpFlow.setInfo (h : UdpFlow mode data) {info : TransferInfo} (hcommon : info.common = data.info.common) :
    UdpFlow mode { data with info } :=
  ⟨h.protocol, h.pre, h.post, (congrArg ReportCommon.isUDP hcommon).trans h.isUDP, h.interval⟩

theorem UdpFlow.share (h : UdpFlow mode data) (groupSumReport fullDuplexReport : Option SumReport) :
    UdpFlow mode { data with groupSumReport, fullDuplexReport } :=
  ⟨h.protocol, h.pre, h.post, h.isUDP, h.interval⟩

theorem UdpFlow.sampled (h : UdpFlow mode data) (packet : ReportStruct) : UdpFlow mode (sampled data packet) :=
  h.setInfo (sampled_keeps data packet).2.1

/-- The packet handler of a UDP flow counts its datagrams. -/
theorem handle_datagrams (mode : ThreadMode) {stats : TransferInfo} (hudp : stats.common.isUDP = true)
    (packet : ReportStruct) :
    (mode.udpHandler.packetHandler.handle stats packet).total.Datagrams =
      stats.total.Datagrams.add (mode.datagrams packet) := by
  have hprev := (mode.udpHandler.packetHandler.handle_keeps stats packet).2.Datagrams
  have hcurrent : (mode.udpHandler.packetHandler.handle stats packet).total.Datagrams.current =
      stats.total.Datagrams.current + mode.datagrams packet := by
    cases mode with
    | server =>
      by_cases hrec : Received packet
      · simp only [ThreadMode.datagrams, if_pos hrec]
        exact (handlePacketServerUdp_received stats hrec).2.1
      · simp only [ThreadMode.datagrams, if_neg hrec, add_zero]
        simp only [ThreadMode.udpHandler, TransferProtocolHandler.packetHandler, PacketHandler.handle,
          reporterHandlePacketServerUdp]
        split_ifs with hnone hid
        · rfl
        · -- an empty record of a flow that has a sample moves the ids, and counts no datagram
          have hempty : packet.emptyreport = true := by
            by_contra hne
            exact hrec ⟨by simpa using hne, by omega⟩
          simp [reporterHandlePacketIsochronous, reporterHandlePacketOnewayTransit, reporterHandlePacketPps,
            serverUdpAccount, hempty]
        · rfl
    | client =>
      have htotal := (handlePacketClient_spec stats packet).2.2.1
      simp only [ThreadMode.udpHandler, TransferProtocolHandler.packetHandler, PacketHandler.handle, htotal,
        ThreadMode.datagrams, ShiftCounters.sent, hudp, if_true]
      split
      · exact (add_zero _).symm
      · rfl
  calc
    (mode.udpHandler.packetHandler.handle stats packet).total.Datagrams
      = ⟨stats.total.Datagrams.current + mode.datagrams packet, stats.total.Datagrams.prev⟩ := by
        rw [← hcurrent, ← hprev]
    _ = stats.total.Datagrams.add (mode.datagrams packet) := rfl

/-! ## The shared report -/

/-- The shape of the full duplex handlers keeps the datagram count that its parts keep. -/
theorem fullduplexReport_current {interval shift totals : TransferInfo → TransferInfo}
    (hinterval : ∀ stats, (interval stats).total.Datagrams.current = stats.total.Datagrams.current)
    (hshift : ∀ stats, (shift stats).total.Datagrams.current = stats.total.Datagrams.current)
    (htotals : ∀ stats, (totals stats).total.Datagrams.current = stats.total.Datagrams.current)
    (stats : TransferInfo) (final : Bool) :
    (fullduplexReport interval shift totals stats final).1.total.Datagrams.current =
      stats.total.Datagrams.current := by
  cases final with
  | false => exact (hshift _).trans (hinterval stats)
  | true =>
    obtain ⟨ts, out, heq⟩ := partialReport_eq (interval stats)
    simp only [fullduplexReport, if_true, heq]
    refine (htotals _).trans ?_
    split
    · exact (hshift _).trans (hinterval stats)
    · rfl

/-- The reports of a group or of a full duplex test leave its datagram count alone. -/
theorem sumHandle_current (handler : TransferProtocolSumHandler) (stats : TransferInfo) (final : Bool) :
    (handler.handle stats final).1.total.Datagrams.current = stats.total.Datagrams.current := by
  have hsame : ∀ stats : TransferInfo, stats.total.Datagrams.current = Count.Datagrams.sumTotal stats := fun _ => rfl
  cases handler with
  | sumServerUdp => cases final <;> rfl
  | sumClientUdp => cases final <;> rfl
  | sumServerTcp =>
    rw [hsame, hsame]
    apply sumTcp_keeps <;> intro stats <;> rfl
  | sumClientTcp =>
    rw [hsame, hsame]
    apply sumTcp_keeps <;> intro stats <;> rfl
  | fullduplexTcp => apply fullduplexReport_current <;> intro stats <;> rfl
  | fullduplexUdp => apply fullduplexReport_current <;> intro stats <;> rfl

theorem fullduplexInterval_current (common : ReportCommon) (s : SumReport) :
    (fullduplexInterval common s).1.info.total.Datagrams.current = s.info.total.Datagrams.current := by
  simp only [fullduplexInterval]
  split
  · exact sumHandle_current _ _ false
  · rfl

theorem finalSum_current (prints : SumReport → Bool) (packetTime : Timeval) (s : SumReport) :
    (finalSum prints packetTime s).1.info.total.Datagrams.current = s.info.total.Datagrams.current := by
  rw [finalSum_fst]
  split
  · exact sumHandle_current _ _ true
  · rfl

/-- A report of a flow adds the datagrams since the start of its interval to the full duplex report. -/
theorem UdpFlow.handle {n : Int} (h : UdpFlow mode data) (hs : Holds n data.fullDuplexReport) (final : Bool) :
    let after := (data.transferProtocolHandler.parts.handle data final).1
    UdpFlow mode after ∧ Holds (n + data.info.total.Datagrams.delta) after.fullDuplexReport ∧
      after.info.total.Datagrams = ⟨data.info.total.Datagrams.current, mode.restart final data.info⟩ := by
  have hinfo : (data.transferProtocolHandler.parts.handle data final).1.info.common = data.info.common ∧
      (data.transferProtocolHandler.parts.handle data final).1.info.total.Datagrams =
        ⟨data.info.total.Datagrams.current, mode.restart final data.info⟩ := by
    rw [h.protocol]
    cases mode with
    | client => cases final <;> exact ⟨rfl, rfl⟩
    | server =>
      cases final with
      | false => exact ⟨rfl, rfl⟩
      | true =>
        simp only [ThreadMode.udpHandler, TransferProtocolHandler.parts, TransferProtocol.handle, serverUdpParts, if_true]
        rw [partialReport_ite]
        exact ⟨rfl, rfl⟩
  obtain ⟨hcommon, hdatagrams⟩ := hinfo
  refine ⟨⟨h.protocol, h.pre, h.post, (congrArg ReportCommon.isUDP hcommon).trans h.isUDP, h.interval⟩, ?_, hdatagrams⟩
  apply hs.map
  intro sum
  rw [h.protocol]
  cases mode <;> rfl

/-! ## One record -/

/-- The packet handler of a flow. -/
theorem UdpFlow.handled (h : UdpFlow mode data) (packet : ReportStruct) :
    let handled := handlePacket data.packetHandlerPostReport packet data
    UdpFlow mode handled ∧ handled.fullDuplexReport = data.fullDuplexReport ∧
      handled.info.total.Datagrams = data.info.total.Datagrams.add (mode.datagrams packet) := by
  have hhandled : handlePacket data.packetHandlerPostReport packet data =
      { data with info := mode.udpHandler.packetHandler.handle data.info packet } := by
    rw [h.post, handlePacket_some, ← h.post]
  rw [hhandled]
  exact ⟨h.setInfo (mode.udpHandler.packetHandler.handle_keeps data.info packet).1, rfl,
    handle_datagrams mode h.isUDP packet⟩

/-- After the interval handler the record is counted. -/
theorem UdpFlow.recordPacket {n : Int} (h : UdpFlow mode data) (hs : Holds n data.fullDuplexReport)
    (packet : ReportStruct) :
    let after := recordPacket packet data
    UdpFlow mode after ∧ Holds n after.fullDuplexReport ∧
      after.info.total.Datagrams = data.info.total.Datagrams.add (mode.datagrams packet) := by
  obtain ⟨hflow, hsame, hdatagrams⟩ := h.handled packet
  refine ⟨hflow.share _ _, ?_, hdatagrams⟩
  have hshared : Holds n (handlePacket data.packetHandlerPostReport packet data).fullDuplexReport := by rwa [hsame]
  rw [← add_zero n]
  apply hshared.map
  intro sum
  exact (add_zero _).symm

/-- A record of the traffic goes through the interval handler, if there is one. -/
theorem UdpFlow.process (h : UdpFlow mode data) (htraffic : ¬ packet.packetID < 0) :
    (reporterProcessTransferReport data packet).1 = Report.recordPacket packet
      (match data.transferIntervalHandler with
        | none => Report.sampled data packet
        | some handler => (handler.handle (Report.sampled data packet) packet).1) := by
  have hprocess : (reporterProcessTransferReport data packet).1 = (processPacket (Report.sampled data packet) packet).1 := by
    unfold reporterProcessTransferReport
    rw [if_neg htraffic]
    rfl
  have hpre : handlePacket (Report.sampled data packet).packetHandlerPreReport packet (Report.sampled data packet) =
      Report.sampled data packet := congrArg (handlePacket · packet (Report.sampled data packet)) h.pre
  have hsampled : (Report.sampled data packet).transferIntervalHandler = data.transferIntervalHandler := rfl
  rw [hprocess]
  simp only [processPacket]
  rw [hpre, hsampled]
  cases data.transferIntervalHandler <;> rfl

/-- The time interval handler on a record that crosses. -/
theorem UdpFlow.timeInterval {n : Int} (h : UdpFlow mode data) (hs : Holds n data.fullDuplexReport)
    (hcross : timeDifference data.info.ts.nextTime packet.packetTime < 0) :
    let after := (reporterCondprintTimeIntervalReport data packet).1
    UdpFlow mode after ∧ Holds (n + data.info.total.Datagrams.delta) after.fullDuplexReport ∧
      after.info.total.Datagrams = ⟨data.info.total.Datagrams.current, mode.restart false data.info⟩ := by
  let stamped := ({ data.info with ts := { data.info.ts with packetTime := packet.packetTime } } : TransferInfo).stamp
    .interval
  have hstamped : UdpFlow mode { data with info := stamped } := h.setInfo rfl
  obtain ⟨hflow, hadded, hdatagrams⟩ := hstamped.handle hs false
  have hreported : (data.transferProtocolHandler.parts.handle { data with info := stamped } false).1 =
      (intervalReport data packet.packetTime).1 := rfl
  rw [hreported] at hflow hadded hdatagrams
  obtain ⟨ts, hts⟩ := printableMissed_info (intervalReport data packet.packetTime).1.info packet
  simp only [reporterCondprintTimeIntervalReport, if_pos hcross]
  refine ⟨⟨hflow.protocol, hflow.pre, hflow.post, ?_, hflow.interval⟩, ?_, ?_⟩
  · rw [hts]
    exact hflow.isUDP
  · exact hadded.onReport fun sum => fullduplexInterval_current _ sum
  · rw [hts]
    cases mode <;> exact hdatagrams

/-- The frame interval handler, on a record that ends a frame or not. -/
theorem UdpFlow.frameInterval (h : UdpFlow .server data) (packet : ReportStruct) :
    let after := (reporterCondprintFrameIntervalReportServerUdp data packet).1
    UdpFlow .server after ∧ after.fullDuplexReport = data.fullDuplexReport ∧
      after.info.total.Datagrams = ⟨data.info.total.Datagrams.current,
        if EndsInterval .serverUdp data.info packet then data.info.PacketID else data.info.total.Datagrams.prev⟩ := by
  intro after
  by_cases hends : EndsInterval .serverUdp data.info packet
  · have hafter : ∃ stats, after = { data with info := reporterResetTransferStatsServerUdp stats } ∧
        stats.common = data.info.common ∧ stats.total = data.info.total ∧ stats.PacketID = data.info.PacketID :=
      ⟨_, congrArg Prod.fst (if_pos hends), rfl, rfl, rfl⟩
    obtain ⟨stats, hafter, hcommon, htotal, hid⟩ := hafter
    rw [hafter, if_pos hends]
    refine ⟨h.setInfo hcommon, rfl, ?_⟩
    rw [← htotal, ← hid]
    rfl
  · have hafter : ∃ stats, after = { data with info := stats } ∧
        stats.common = data.info.common ∧ stats.total = data.info.total :=
      ⟨_, congrArg Prod.fst (if_neg hends), rfl, rfl⟩
    obtain ⟨stats, hafter, hcommon, htotal⟩ := hafter
    rw [hafter, if_neg hends]
    exact ⟨h.setInfo hcommon, rfl, congrArg ShiftCounters.Datagrams htotal⟩

/-- The datagrams that a record adds to the shared report. -/
def addedDatagrams (data : ReporterData) (packet : ReportStruct) : Int :=
  if crosses data packet then data.info.total.Datagrams.delta else 0

/-- The datagram count at the start of the interval, after a record of the traffic. -/
def intervalStart (mode : ThreadMode) (data : ReporterData) (packet : ReportStruct) : Int :=
  if crosses data packet ∨ framed data packet then mode.restart false data.info else data.info.total.Datagrams.prev

/-- What a record of the traffic reports. -/
theorem UdpFlow.reports {n : Int} (h : UdpFlow mode data) (hs : Holds n data.fullDuplexReport)
    (htraffic : ¬ packet.packetID < 0) :
    let mid := match data.transferIntervalHandler with
      | none => Report.sampled data packet
      | some handler => (handler.handle (Report.sampled data packet) packet).1
    UdpFlow mode mid ∧ Holds (n + addedDatagrams data packet) mid.fullDuplexReport ∧
      mid.info.total.Datagrams = ⟨data.info.total.Datagrams.current, intervalStart mode data packet⟩ := by
  obtain ⟨hts, -, htotal⟩ := sampled_keeps data packet
  have hsampled := h.sampled packet
  obtain ⟨hid, hmatch⟩ : (Report.sampled data packet).info.PacketID = data.info.PacketID ∧
      (Report.sampled data packet).info.matchframeID = data.info.matchframeID := by
    simp only [Report.sampled, handleTcpistats]
    split <;> exact ⟨rfl, rfl⟩
  have hrestart : mode.restart false (Report.sampled data packet).info = mode.restart false data.info := by
    cases mode with
    | server => exact hid
    | client => exact congrArg (fun total : ShiftCounters => total.Datagrams.current) htotal
  cases hhandler : data.transferIntervalHandler with
  | none =>
    have hcross : ¬ crosses data packet = true := fun hcross => by
      rw [crosses_eq_true, hhandler] at hcross
      cases hcross.2.1
    have hframe : ¬ framed data packet = true := fun hframe => by
      rw [framed_eq_true, hhandler] at hframe
      cases hframe.2.1
    rw [addedDatagrams, if_neg hcross, intervalStart, if_neg (not_or.mpr ⟨hcross, hframe⟩), add_zero]
    exact ⟨hsampled, hs, congrArg ShiftCounters.Datagrams htotal⟩
  | some handler =>
    rcases h.interval handler hhandler with rfl | ⟨rfl, rfl⟩
    · have hframe : ¬ framed data packet = true := fun hframe => by
        rw [framed_eq_true, hhandler] at hframe
        cases hframe.2.1
      by_cases hcross : crosses data packet = true
      · have htime := (crosses_eq_true.mp hcross).2.2
        rw [← hts] at htime
        obtain ⟨hflow, hadded, hdatagrams⟩ := hsampled.timeInterval hs htime
        rw [addedDatagrams, if_pos hcross, intervalStart, if_pos (.inl hcross)]
        rw [htotal] at hadded hdatagrams
        rw [hrestart] at hdatagrams
        exact ⟨hflow, hadded, hdatagrams⟩
      · have htime : ¬ timeDifference (Report.sampled data packet).info.ts.nextTime packet.packetTime < 0 := by
          rw [hts]
          exact fun htime => hcross (crosses_eq_true.mpr ⟨htraffic, hhandler, htime⟩)
        rw [addedDatagrams, if_neg hcross, intervalStart, if_neg (not_or.mpr ⟨hcross, hframe⟩), add_zero]
        simp only [TransferIntervalHandler.handle, reporterCondprintTimeIntervalReport, if_neg htime]
        exact ⟨hsampled, hs, congrArg ShiftCounters.Datagrams htotal⟩
    · have hcross : ¬ crosses data packet = true := fun hcross => by
        rw [crosses_eq_true, hhandler] at hcross
        cases hcross.2.1
      obtain ⟨hflow, hsame, hdatagrams⟩ := hsampled.frameInterval packet
      have hends : EndsInterval .serverUdp (Report.sampled data packet).info packet ↔ framed data packet = true := by
        rw [framed_eq_true]
        have hsame : EndsInterval .serverUdp (Report.sampled data packet).info packet ↔
            EndsInterval .serverUdp data.info packet := by
          simp only [EndsInterval, matchedFrame, hmatch]
        exact ⟨fun hends => ⟨htraffic, hhandler, hsame.mp hends⟩, fun hframe => hsame.mpr hframe.2.2⟩
      rw [addedDatagrams, if_neg hcross, add_zero]
      refine ⟨hflow, ?_, ?_⟩
      · simp only [TransferIntervalHandler.handle, hsame]
        exact hs
      · refine hdatagrams.trans ?_
        rw [htotal, hid, intervalStart]
        by_cases hframe : framed data packet = true
        · rw [if_pos (hends.mpr hframe), if_pos (.inr hframe)]
          rfl
        · rw [if_neg (fun hend => hframe (hends.mp hend)), if_neg (not_or.mpr ⟨hcross, hframe⟩)]

/-- **A record of the traffic**: what it reports, and then it is counted. -/
theorem UdpFlow.record {n : Int} (h : UdpFlow mode data) (hs : Holds n data.fullDuplexReport)
    (htraffic : ¬ packet.packetID < 0) :
    let after := (reporterProcessTransferReport data packet).1
    UdpFlow mode after ∧ Holds (n + addedDatagrams data packet) after.fullDuplexReport ∧
      after.info.total.Datagrams =
        ⟨data.info.total.Datagrams.current + mode.datagrams packet, intervalStart mode data packet⟩ := by
  obtain ⟨hflow, hadded, hdatagrams⟩ := h.reports hs htraffic
  obtain ⟨hflow', hadded', hdatagrams'⟩ := hflow.recordPacket hadded packet
  rw [h.process htraffic]
  refine ⟨hflow', hadded', hdatagrams'.trans ?_⟩
  rw [hdatagrams]
  rfl

/-- **The last record of a flow** is counted, and its final report adds what came since the last interval report. -/
theorem UdpFlow.final {n : Int} (h : UdpFlow mode data) (hs : Holds n data.fullDuplexReport)
    (hlast : packet.packetID < 0) :
    let after := (reporterProcessTransferReport data packet).1
    let counted := data.info.total.Datagrams.add (mode.datagrams packet)
    UdpFlow mode after ∧ Holds (n + counted.delta) after.fullDuplexReport ∧
      after.info.total.Datagrams = ⟨counted.current, match mode with
        | .server => counted.prev
        | .client => counted.current⟩ := by
  obtain ⟨hhandled, hsame, hcounted⟩ := (h.sampled packet).handled packet
  let handled := handlePacket data.packetHandlerPostReport packet (Report.sampled data packet)
  let stats := { handled.info with ts := { handled.info.ts with packetTime := packet.packetTime } }
  let reported := (handled.transferProtocolHandler.parts.handle { handled with info := stats } true).1
  have hflow : UdpFlow mode { handled with info := stats } := hhandled.setInfo rfl
  have hshared : Holds n handled.fullDuplexReport := by
    have hsampled : Holds n (Report.sampled data packet).fullDuplexReport := hs
    rwa [← hsame] at hsampled
  have hafter : (reporterProcessTransferReport data packet).1 = lastShared packet reported := by
    rw [process_last hlast, lastReported, lastHandled_eq h.pre]
  obtain ⟨hreported, hadded, hdatagrams⟩ := hflow.handle hshared true
  have hstats : stats.total.Datagrams = data.info.total.Datagrams.add (mode.datagrams packet) := by
    refine hcounted.trans ?_
    rw [(sampled_keeps data packet).2.2]
  rw [hstats] at hadded
  rw [hafter]
  refine ⟨hreported.share _ _, ?_, hdatagrams.trans ?_⟩
  · simp only [lastShared]
    split
    · exact hadded.onReport fun sum => finalSum_current _ _ sum
    · exact hadded
  · cases mode <;> simp only [ThreadMode.restart, hstats]

end

/-! ## The two flows -/

/-- The settings of the two flows of a UDP full duplex test, and those that their shared report is made from. -/
structure DuplexSettings where
  flow : ThreadMode → Settings
  grp : Settings
  threadMode : ∀ mode, (flow mode).threadMode = mode
  isUDP : ∀ mode, (flow mode).isUDP = true

/-- A call of `reporter_transfer_protocol_server_udp`: what it added to the datagrams of the full duplex report, the
datagrams that the flow received since the call before, those it received up to that call, and the largest datagram id
when the interval started. -/
structure DuplexCall where
  added : Int
  received : Int
  counted : Int
  startID : Int
  deriving DecidableEq

/-- What a call adds too little. -/
def DuplexCall.missing (call : DuplexCall) : Int := call.startID - call.counted

/-- A UDP full duplex test. `sent` counts the datagrams of the client and `received` those of the server, `counted` is
`received` at the last call of the server's handler, `startID` its largest datagram id when the interval started. -/
structure Duplex where
  data : ThreadMode → ReporterData
  done : ThreadMode → Bool
  shared : SumReport
  sent : Int
  received : Int
  counted : Int
  startID : Int
  calls : List DuplexCall

inductive DuplexEvent
  /-- A traffic thread sets the times of its report and of the shared one when it starts. -/
  | times (mode : ThreadMode) (ts sumts : ReportTimeStamps)
  /-- The reporter takes the next record of a flow from its ring. Other flows use its group report as well. -/
  | record (mode : ThreadMode) (groupSumReport : Option SumReport) (packet : ReportStruct)

def Duplex.start (settings : DuplexSettings) : Duplex where
  data mode := initIndividualReport (settings.flow mode) none none
  done := fun _ => false
  shared := initSumReport settings.grp true
  sent := 0
  received := 0
  counted := 0
  startID := 0
  calls := []

/-- The report of a flow, with its pointers to the shared reports. -/
def Duplex.report (d : Duplex) (mode : ThreadMode) (groupSumReport : Option SumReport) : ReporterData :=
  { d.data mode with
    groupSumReport
    fullDuplexReport := some d.shared }

/-- The full duplex report and the two flows after a record. -/
def Duplex.take (d : Duplex) (mode : ThreadMode) (groupSumReport : Option SumReport) (packet : ReportStruct) : Duplex :=
  let after := (reporterProcessTransferReport (d.report mode groupSumReport) packet).1
  { d with
    data := Function.update d.data mode after
    done := if packet.packetID < 0 then Function.update d.done mode true else d.done
    shared := after.fullDuplexReport.getD d.shared }

/-- What a call of the server's handler added. -/
def Duplex.call (d : Duplex) (shared : SumReport) : DuplexCall where
  added := shared.info.total.Datagrams.current - d.shared.info.total.Datagrams.current
  received := d.received - d.counted
  counted := d.counted
  startID := d.startID

def Duplex.record (d : Duplex) (mode : ThreadMode) (groupSumReport : Option SumReport) (packet : ReportStruct) : Duplex :=
  let before := d.report mode groupSumReport
  let after := d.take mode groupSumReport packet
  match mode with
  | .client => { after with sent := d.sent + mode.datagrams packet }
  | .server =>
    let calls := packet.packetID < 0 ∨ crosses before packet
    { after with
      received := d.received + mode.datagrams packet
      counted := if calls then d.received else d.counted
      startID := if crosses before packet ∨ framed before packet then before.info.PacketID else d.startID
      calls := if calls then d.calls ++ [d.call after.shared] else d.calls }

def Duplex.step (d : Duplex) : DuplexEvent → Option Duplex
  | .times mode ts sumts =>
    if d.done mode then none
    else some { d with
      data := Function.update d.data mode { d.data mode with info := { (d.data mode).info with ts } }
      shared := { d.shared with info := { d.shared.info with ts := sumts } } }
  | .record mode groupSumReport packet => if d.done mode then none else some (d.record mode groupSumReport packet)

/-- The books of the test. Every flow has its count, and where its interval started; the shared report has what the
client reported and what the calls of the server added. -/
structure Duplex.Books (d : Duplex) : Prop where
  flow : ∀ mode, UdpFlow mode (d.data mode)
  server : (d.data .server).info.total.Datagrams = ⟨d.received, d.startID⟩
  sent : (d.data .client).info.total.Datagrams.current = d.sent
  reported : d.done .client = true → (d.data .client).info.total.Datagrams.prev = d.sent
  counted : d.done .server = true → d.counted = d.received
  calls : ∀ call ∈ d.calls, call.added = call.received - call.missing
  received : (d.calls.map DuplexCall.received).sum = d.counted
  shared : d.shared.info.total.Datagrams.current =
    (d.data .client).info.total.Datagrams.prev + (d.calls.map DuplexCall.added).sum

namespace Duplex.Books
variable {d d' : Duplex} {settings : DuplexSettings} {mode : ThreadMode} {groupSumReport : Option SumReport}
  {packet : ReportStruct}

theorem start (settings : DuplexSettings) : (Duplex.start settings).Books where
  flow mode := by
    have hflow := UdpFlow.init (settings.isUDP mode) none none
    rwa [settings.threadMode mode] at hflow
  server := rfl
  sent := rfl
  reported hdone := nomatch hdone
  counted hdone := nomatch hdone
  calls _ hcall := nomatch hcall
  received := rfl
  shared := rfl

/-- The flows and the shared report after a record, by what a record of one flow does. -/
theorem take (hb : d.Books) {added : Int} {datagrams : ShiftCounter}
    (hrecord : UdpFlow mode (reporterProcessTransferReport (d.report mode groupSumReport) packet).1 ∧
      Holds (d.shared.info.total.Datagrams.current + added)
        (reporterProcessTransferReport (d.report mode groupSumReport) packet).1.fullDuplexReport ∧
      (reporterProcessTransferReport (d.report mode groupSumReport) packet).1.info.total.Datagrams = datagrams) :
    let after := d.take mode groupSumReport packet
    (∀ m, UdpFlow m (after.data m)) ∧
      after.shared.info.total.Datagrams.current = d.shared.info.total.Datagrams.current + added ∧
      (after.data mode).info.total.Datagrams = datagrams ∧ ∀ m, m ≠ mode → after.data m = d.data m := by
  obtain ⟨hflow, ⟨sum, hsum, hcurrent⟩, hdatagrams⟩ := hrecord
  simp only [Duplex.take, hsum, Option.getD_some]
  refine ⟨fun m => ?_, hcurrent, ?_, fun m hm => Function.update_of_ne hm _ _⟩
  · by_cases hm : m = mode
    · subst hm
      rw [Function.update_self]
      exact hflow
    · rw [Function.update_of_ne hm]
      exact hb.flow m
  · rw [Function.update_self]
    exact hdatagrams

theorem report (hb : d.Books) (mode : ThreadMode) (groupSumReport : Option SumReport) :
    UdpFlow mode (d.report mode groupSumReport) ∧
      Holds d.shared.info.total.Datagrams.current (d.report mode groupSumReport).fullDuplexReport :=
  ⟨(hb.flow mode).share _ _, d.shared, rfl, rfl⟩

/-- The server has one call more in its books. -/
theorem call (hb : d.Books) {shared : SumReport}
    (hshared : shared.info.total.Datagrams.current =
      d.shared.info.total.Datagrams.current + (d.data .server).info.total.Datagrams.delta) :
    (∀ call ∈ d.calls ++ [d.call shared], call.added = call.received - call.missing) ∧
      ((d.calls ++ [d.call shared]).map DuplexCall.received).sum = d.received ∧
      shared.info.total.Datagrams.current =
        (d.data .client).info.total.Datagrams.prev + ((d.calls ++ [d.call shared]).map DuplexCall.added).sum := by
  have hdelta : (d.data .server).info.total.Datagrams.delta = d.received - d.startID := by
    rw [hb.server]
    rfl
  have hsum := hb.received
  have hbooks := hb.shared
  rw [hdelta] at hshared
  refine ⟨fun call hcall => ?_, ?_, ?_⟩
  · rcases List.mem_append.mp hcall with hold | hnew
    · exact hb.calls call hold
    · rw [List.mem_singleton.mp hnew]
      simp only [Duplex.call, DuplexCall.missing]
      omega
  · simp only [List.map_append, List.map_cons, List.map_nil, List.sum_append, List.sum_cons, List.sum_nil, Duplex.call]
    omega
  · simp only [List.map_append, List.map_cons, List.map_nil, List.sum_append, List.sum_cons, List.sum_nil, Duplex.call]
    omega

/-- The last record of the server. -/
theorem serverFinal (hb : d.Books) (groupSumReport : Option SumReport) (hlast : packet.packetID < 0) :
    (d.record .server groupSumReport packet).Books := by
  obtain ⟨hflow, hshared⟩ := hb.report .server groupSumReport
  obtain ⟨hflows, hcurrent, hserver, hother⟩ := hb.take (hflow.final hshared hlast)
  have hclient := hother .client (by decide)
  have hnone : ThreadMode.server.datagrams packet = 0 := if_neg fun hrec => by
    have := hrec.2
    omega
  have hcross : ¬ Report.crosses (d.report .server groupSumReport) packet = true :=
    fun hcross => (crosses_eq_true.mp hcross).1 hlast
  have hframe : ¬ framed (d.report .server groupSumReport) packet = true :=
    fun hframe => (framed_eq_true.mp hframe).1 hlast
  have hcounts : (d.report .server groupSumReport).info.total.Datagrams = ⟨d.received, d.startID⟩ := hb.server
  rw [hnone, hcounts] at hcurrent hserver
  have hadded : (d.take .server groupSumReport packet).shared.info.total.Datagrams.current =
      d.shared.info.total.Datagrams.current + (d.data .server).info.total.Datagrams.delta := by
    rw [hcurrent, hb.server]
    simp only [ShiftCounter.add, add_zero]
  obtain ⟨hcalls, hreceived, hsum⟩ := hb.call hadded
  have hrecord : d.record .server groupSumReport packet =
      { d.take .server groupSumReport packet with
        received := d.received
        counted := d.received
        startID := d.startID
        calls := d.calls ++ [d.call (d.take .server groupSumReport packet).shared] } := by
    simp only [Duplex.record, hnone, add_zero, if_pos (Or.inl hlast), if_neg (not_or.mpr ⟨hcross, hframe⟩)]
  rw [hrecord]
  refine ⟨hflows, ?_, ?_, fun hdone => ?_, fun _ => rfl, hcalls, hreceived, ?_⟩
  · simp only [hserver, ShiftCounter.add, add_zero]
  · simp only [hclient]
    exact hb.sent
  · simp only [hclient]
    refine hb.reported ?_
    simp only [Duplex.take, if_pos hlast] at hdone
    rwa [Function.update_of_ne (by decide)] at hdone
  · simp only [hclient]
    exact hsum

/-- A record of the traffic of the server. -/
theorem serverTraffic (hb : d.Books) (hopen : d.done .server = false) (groupSumReport : Option SumReport)
    (htraffic : ¬ packet.packetID < 0) : (d.record .server groupSumReport packet).Books := by
  obtain ⟨hflow, hshared⟩ := hb.report .server groupSumReport
  obtain ⟨hflows, hcurrent, hserver, hother⟩ := hb.take (hflow.record hshared htraffic)
  have hclient := hother .client (by decide)
  have hcounts : (d.report .server groupSumReport).info.total.Datagrams = ⟨d.received, d.startID⟩ := hb.server
  have hdone : (d.take .server groupSumReport packet).done = d.done := by simp only [Duplex.take, if_neg htraffic]
  have hstart : intervalStart .server (d.report .server groupSumReport) packet =
      if crosses (d.report .server groupSumReport) packet ∨ framed (d.report .server groupSumReport) packet then
        (d.report .server groupSumReport).info.PacketID else d.startID := by
    rw [intervalStart, hcounts]
    rfl
  rw [hstart, hcounts] at hserver
  by_cases hcross : crosses (d.report .server groupSumReport) packet = true
  · have hadded : (d.take .server groupSumReport packet).shared.info.total.Datagrams.current =
        d.shared.info.total.Datagrams.current + (d.data .server).info.total.Datagrams.delta := by
      rw [hcurrent, addedDatagrams, if_pos hcross]
      rfl
    obtain ⟨hcalls, hreceived, hsum⟩ := hb.call hadded
    simp only [Duplex.record, if_pos (Or.inr hcross : packet.packetID < 0 ∨ _)]
    refine ⟨hflows, hserver, ?_, fun hclosed => ?_, fun hclosed => ?_, hcalls, hreceived, ?_⟩
    · simp only [hclient]
      exact hb.sent
    · simp only [hclient]
      exact hb.reported (by rwa [hdone] at hclosed)
    · rw [hdone, hopen] at hclosed
      cases hclosed
    · simp only [hclient]
      exact hsum
  · rw [addedDatagrams, if_neg hcross, add_zero] at hcurrent
    simp only [Duplex.record, if_neg (not_or.mpr ⟨htraffic, hcross⟩)]
    refine ⟨hflows, hserver, ?_, fun hclosed => ?_, fun hclosed => ?_, hb.calls, hb.received, ?_⟩
    · simp only [hclient]
      exact hb.sent
    · simp only [hclient]
      exact hb.reported (by rwa [hdone] at hclosed)
    · rw [hdone, hopen] at hclosed
      cases hclosed
    · simp only [hclient, hcurrent]
      exact hb.shared

/-- A record of the client. -/
theorem clientRecord (hb : d.Books) (hopen : d.done .client = false) (groupSumReport : Option SumReport)
    (packet : ReportStruct) : (d.record .client groupSumReport packet).Books := by
  obtain ⟨hflow, hshared⟩ := hb.report .client groupSumReport
  have hbooks := hb.shared
  have hsent : (d.report .client groupSumReport).info.total.Datagrams.current = d.sent := hb.sent
  have hprev : (d.report .client groupSumReport).info.total.Datagrams.prev =
      (d.data .client).info.total.Datagrams.prev := rfl
  have hcalls : (d.take .client groupSumReport packet).calls = d.calls := rfl
  by_cases hlast : packet.packetID < 0
  · obtain ⟨hflows, hcurrent, hclient, hother⟩ := hb.take (hflow.final hshared hlast)
    have hserver := hother .server (by decide)
    have hdone : (d.take .client groupSumReport packet).done .server = d.done .server := by
      simp only [Duplex.take, if_pos hlast]
      exact Function.update_of_ne (by decide) _ _
    refine ⟨hflows, ?_, ?_, fun _ => ?_, fun hclosed => ?_, hb.calls, hb.received, ?_⟩
    · simp only [Duplex.record, hserver]
      exact hb.server
    · simp only [Duplex.record, hclient, ShiftCounter.add, hsent]
    · simp only [Duplex.record, hclient, ShiftCounter.add, hsent]
    · exact hb.counted (hdone.symm.trans hclosed)
    · simp only [Duplex.record, hclient, hcurrent, hcalls, ShiftCounter.add, ShiftCounter.delta, hprev]
      omega
  · obtain ⟨hflows, hcurrent, hclient, hother⟩ := hb.take (hflow.record hshared hlast)
    have hserver := hother .server (by decide)
    have hdone : (d.take .client groupSumReport packet).done = d.done := by simp only [Duplex.take, if_neg hlast]
    have hframe : ¬ framed (d.report .client groupSumReport) packet = true := fun hframe => by
      obtain ⟨-, hinterval, -⟩ := framed_eq_true.mp hframe
      rcases hflow.interval _ hinterval with htime | ⟨hmode, -⟩
      · cases htime
      · cases hmode
    refine ⟨hflows, ?_, ?_, fun hclosed => ?_, fun hclosed => ?_, hb.calls, hb.received, ?_⟩
    · simp only [Duplex.record, hserver]
      exact hb.server
    · simp only [Duplex.record, hclient, hsent]
    · have hclosed' : d.done .client = true := by rwa [← hdone]
      rw [hopen] at hclosed'
      cases hclosed'
    · exact hb.counted (by rwa [← hdone])
    · simp only [Duplex.record, hclient, hcurrent, hcalls, addedDatagrams, intervalStart]
      by_cases hcross : crosses (d.report .client groupSumReport) packet = true
      · rw [if_pos hcross, if_pos (.inl hcross)]
        simp only [ShiftCounter.delta, ThreadMode.restart, hprev]
        omega
      · rw [if_neg hcross, if_neg (not_or.mpr ⟨hcross, hframe⟩), hprev]
        omega

/-- A flow with other times has the same counts. -/
theorem times (hb : d.Books) (mode : ThreadMode) (ts sumts : ReportTimeStamps) :
    Duplex.Books { d with
      data := Function.update d.data mode { d.data mode with info := { (d.data mode).info with ts } }
      shared := { d.shared with info := { d.shared.info with ts := sumts } } } := by
  have hdata : ∀ m, UdpFlow m
        (Function.update d.data mode { d.data mode with info := { (d.data mode).info with ts } } m) ∧
      (Function.update d.data mode { d.data mode with info := { (d.data mode).info with ts } } m).info.total =
        (d.data m).info.total := fun m => by
    by_cases hm : m = mode
    · subst hm
      rw [Function.update_self]
      exact ⟨(hb.flow m).setInfo rfl, rfl⟩
    · rw [Function.update_of_ne hm]
      exact ⟨hb.flow m, rfl⟩
  refine ⟨fun m => (hdata m).1, ?_, ?_, fun hclosed => ?_, hb.counted, hb.calls, hb.received, ?_⟩
  · simp only [(hdata _).2]
    exact hb.server
  · simp only [(hdata _).2]
    exact hb.sent
  · simp only [(hdata _).2]
    exact hb.reported hclosed
  · simp only [(hdata _).2]
    exact hb.shared

/-- **Every event keeps the books.** -/
theorem next (hb : d.Books) {e : DuplexEvent} (hstep : d.step e = some d') : d'.Books := by
  cases e with
  | times mode ts sumts =>
    simp only [Duplex.step] at hstep
    split_ifs at hstep with hdone
    obtain rfl := Option.some.inj hstep
    exact hb.times mode ts sumts
  | record mode groupSumReport packet =>
    simp only [Duplex.step] at hstep
    split_ifs at hstep with hdone
    obtain rfl := Option.some.inj hstep
    rw [Bool.not_eq_true] at hdone
    cases mode with
    | client => exact hb.clientRecord hdone groupSumReport packet
    | server =>
      by_cases hlast : packet.packetID < 0
      · exact hb.serverFinal groupSumReport hlast
      · exact hb.serverTraffic hdone groupSumReport hlast

end Duplex.Books

/-! ## The total -/

section
variable {settings : DuplexSettings} {d : Duplex}

/-- The calls add up to the datagrams that the server received, less what they miss. -/
theorem sum_added {calls : List DuplexCall} (h : ∀ call ∈ calls, call.added = call.received - call.missing) :
    (calls.map DuplexCall.added).sum =
      (calls.map DuplexCall.received).sum - (calls.map DuplexCall.missing).sum := by
  induction calls with
  | nil => rfl
  | cons call calls ih =>
    have hfirst := h call List.mem_cons_self
    have hrest := ih fun c hc => h c (List.mem_cons_of_mem _ hc)
    simp only [List.map_cons, List.sum_cons]
    omega

end

/-! A full duplex test with a report every second. -/

def duplexFlow (mode : ThreadMode) : Settings :=
  { (default : Settings) with
    threadMode := mode
    isUDP := true
    isEnhanced := true
    intervalMode := .time
    interval := 1000000 }

def duplexSettings : DuplexSettings where
  flow := duplexFlow
  grp := duplexFlow .server
  threadMode _ := rfl
  isUDP _ := rfl

def duplexTimes (mode : ThreadMode) : ReportTimeStamps :=
  setReportStartTime mode ⟨10, 0⟩ (intervalTimeStamps (duplexFlow mode))

def duplexStart : List DuplexEvent :=
  [.times .server (duplexTimes .server) (duplexTimes .server), .times .client (duplexTimes .client) (duplexTimes .client)]

def datagramAt (id : Int) (packetTime : Timeval) : ReportStruct :=
  { (default : ReportStruct) with
    packetID := id
    packetTime }

end Iperf2.Report
