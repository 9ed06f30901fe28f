import Iperf2.Report.Init

/-!
# The run of a flow

What happens to the report of one flow, as far as its own accounting goes, is a sequence of events: packets, sampled
TCP statistics, interval reports, and changes of the time stamps. `flowStep` gives each the function of the source,
and `finalReport` the final report on the last packet. `process_info` and `processFinalPacket_info` say that
`reporter_process_transfer_report` does just this to `data->info`, with an interval report where the times ask for it;
so what holds for all sequences of events holds for all sequences of packets.
-/

namespace Iperf2.Report

/-! ## Events -/

inductive FlowEvent
  | packet (packet : ReportStruct)
  | tcpistats (packet : ReportStruct)
  | interval
  | clock (ts : ReportTimeStamps)

/-- The values of an interval report. -/
def intervalValues (handler : TransferProtocolHandler) (stats : TransferInfo) : TransferInfo :=
  (handler.parts.report (handler.parts.interval stats) false).1

/-- The values of a final report. -/
def finalValues (handler : TransferProtocolHandler) (stats : TransferInfo) : TransferInfo :=
  (handler.parts.report (handler.parts.interval stats) true).1

def flowStep (handler : TransferProtocolHandler) (stats : TransferInfo) : FlowEvent → TransferInfo
  | .packet packet => handler.packetHandler.handle stats packet
  | .tcpistats packet => handleTcpistats stats packet
  | .interval => handler.parts.reset (intervalValues handler stats) false
  | .clock ts => { stats with ts }

/-- The report of a flow after events. -/
def flowRun (handler : TransferProtocolHandler) (stats : TransferInfo) (events : List FlowEvent) : TransferInfo :=
  events.foldl (flowStep handler) stats

/-- The report that the final report is made from: the last packet was handled and sets the packet time. -/
def lastStats (handler : TransferProtocolHandler) (stats : TransferInfo) (packet : ReportStruct) : TransferInfo :=
  let stats := handler.packetHandler.handle stats packet
  { stats with ts := { stats.ts with packetTime := packet.packetTime } }

/-- The final report of a flow on its last packet. -/
def finalReport (handler : TransferProtocolHandler) (stats : TransferInfo) (packet : ReportStruct) : TransferInfo :=
  finalValues handler (lastStats handler stats packet)

/-- The packet that `EndJob` sends, without sampled TCP statistics. -/
def endPacket (finalpacket : ReportStruct) : ReportStruct :=
  { (default : ReportStruct) with
    packetID := -1
    packetLen := finalpacket.packetLen
    packetTime := finalpacket.packetTime }

/-! ## Final values -/

/-- The final report of a UDP server shows its totals. -/
theorem finalValues_serverUdp (stats : TransferInfo) :
    let values := finalValues .serverUdp stats
    values.cntBytes = stats.total.Bytes.current ∧ values.cntDatagrams = stats.PacketID ∧
      values.cntOutofOrder = stats.total.OutofOrder.current ∧
      values.cntError = clampError (stats.total.Lost.current - stats.total.OutofOrder.current) := by
  simp only [finalValues, TransferProtocolHandler.parts, serverUdpParts, if_true]
  rw [partialReport_ite]
  exact ⟨rfl, rfl, rfl, rfl⟩

/-- The final report of a UDP client shows its totals, with the last packet id as its datagrams. -/
theorem finalValues_clientUdp (stats : TransferInfo) :
    let values := finalValues .clientUdp stats
    values.cntBytes = stats.total.Bytes.current ∧ values.cntDatagrams = stats.PacketID ∧
      values.sockCallstats.write.WriteCnt = stats.sockCallstats.write.totWriteCnt ∧
      values.sockCallstats.write.WriteErr = stats.sockCallstats.write.totWriteErr :=
  ⟨rfl, rfl, rfl, rfl⟩

/-- The final report of a TCP server shows its totals, after a partial report or not. -/
theorem finalValues_serverTcp (stats : TransferInfo) :
    let values := finalValues .serverTcp stats
    values.cntBytes = stats.total.Bytes.current ∧
      values.sockCallstats.cntRead = stats.sockCallstats.totcntRead ∧
      values.sockCallstats.bins = stats.sockCallstats.totbins := by
  simp only [finalValues, TransferProtocolHandler.parts, serverTcpParts, if_true]
  split
  · obtain ⟨ts, out, heq⟩ := partialReport_eq _
    rw [heq]
    exact ⟨rfl, rfl, rfl⟩
  · exact ⟨rfl, rfl, rfl⟩

/-- The final report of a TCP client shows its totals, after a partial report or not. -/
theorem finalValues_clientTcp (stats : TransferInfo) :
    let values := finalValues .clientTcp stats
    values.cntBytes = stats.total.Bytes.current ∧
      values.sockCallstats.write.WriteCnt = stats.sockCallstats.write.totWriteCnt ∧
      values.sockCallstats.write.WriteErr = stats.sockCallstats.write.totWriteErr ∧
      values.sockCallstats.write.TCPretry = stats.sockCallstats.write.totTCPretry := by
  simp only [finalValues, TransferProtocolHandler.parts, clientTcpParts, if_true]
  split
  · obtain ⟨ts, out, heq⟩ := partialReport_eq _
    rw [heq]
    exact ⟨rfl, rfl, rfl, rfl⟩
  · exact ⟨rfl, rfl, rfl, rfl⟩

/-! ## The reporter runs a flow -/

/-- Missed reports move the time stamps only. -/
theorem missedReports_info (packetTime : Timeval) (fuel : Nat) (stats : TransferInfo) :
    ∃ ts, (missedReports packetTime fuel stats).1 = { stats with ts } := by
  induction fuel generalizing stats with
  | zero => exact ⟨stats.ts, rfl⟩
  | succ fuel ih =>
    unfold missedReports
    split
    · obtain ⟨ts, hts⟩ := ih (stats.stamp .interval)
      exact ⟨ts, hts⟩
    · exact ⟨stats.ts, rfl⟩

theorem printableMissed_info (stats : TransferInfo) (packet : ReportStruct) :
    ∃ ts, (if stats.printable then reporterTransferProtocolMissedReports stats packet else (stats, [])).1 =
      { stats with ts } := by
  split
  · exact missedReports_info _ _ _
  · exact ⟨stats.ts, rfl⟩

/-- The interval handler reports at most once, and moves the time stamps. -/
theorem timeInterval_info (data : ReporterData) (packet : ReportStruct) :
    ∃ events, (∀ e ∈ events, e = .interval ∨ ∃ ts, e = .clock ts) ∧
      (reporterCondprintTimeIntervalReport data packet).1.info =
        flowRun data.transferProtocolHandler data.info events := by
  unfold reporterCondprintTimeIntervalReport
  split
  · obtain ⟨ts, hts⟩ := printableMissed_info (intervalReport data packet.packetTime).1.info packet
    let stamped := ({ data.info with
      ts := { data.info.ts with packetTime := packet.packetTime } } : TransferInfo).stamp .interval
    refine ⟨[.clock stamped.ts, .interval, .clock ts], by simp, ?_⟩
    exact hts
  · exact ⟨[], by simp, rfl⟩

/-- A packet of the traffic is handled, after at most one interval report. -/
theorem process_info (data : ReporterData) (packet : ReportStruct) (htraffic : ¬ packet.packetID < 0)
    (hpre : data.packetHandlerPreReport = none)
    (hpost : data.packetHandlerPostReport = some data.transferProtocolHandler.packetHandler)
    (hinterval : ∀ h, data.transferIntervalHandler = some h → h = .timeInterval) :
    ∃ events, (∀ e ∈ events, e = .interval ∨ ∃ ts, e = .clock ts) ∧
      (reporterProcessTransferReport data packet).1.info =
        flowRun data.transferProtocolHandler data.info (.tcpistats packet :: events ++ [.packet packet]) := by
  unfold reporterProcessTransferReport
  rw [if_neg htraffic]
  cases hint : data.transferIntervalHandler with
  | none =>
    refine ⟨[], by simp, ?_⟩
    simp only [processPacket, hpre, hpost, handlePacket_none, handlePacket_some]
    rfl
  | some h =>
    obtain rfl := hinterval h hint
    obtain ⟨events, hkind, hevents⟩ :=
      timeInterval_info { data with info := handleTcpistats data.info packet } packet
    refine ⟨events, hkind, ?_⟩
    simp only [processPacket, hpre, handlePacket_none, TransferIntervalHandler.handle]
    rw [timeInterval_postReport, hpost, handlePacket_some]
    rw [← hpre, ← hpost, ← hint, hevents]
    simp only [flowRun, List.foldl_cons, List.foldl_append, List.cons_append, List.foldl_nil, flowStep]

/-- The last packet makes the final report. -/
theorem processFinalPacket_info (data : ReporterData) (packet : ReportStruct)
    (hpre : data.packetHandlerPreReport = none)
    (hpost : data.packetHandlerPostReport = some data.transferProtocolHandler.packetHandler) :
    (processFinalPacket data packet).1.info =
      data.transferProtocolHandler.parts.reset
        (finalReport data.transferProtocolHandler data.info packet) true := by
  simp only [processFinalPacket, hpre, hpost, handlePacket_none, handlePacket_some]
  rfl

end Iperf2.Report
