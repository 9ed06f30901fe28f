import Iperf2.Report.Output

/-!
# Processing a packet record

`reporter_process_transfer_report` for one record that it dequeued: the packet handlers around the interval handler,
or, for the final packet of a flow (a negative `packetID`), the packet handlers and the final reports. The interval
handlers print an interval report when the packet's time, frame or burst says so.
-/

namespace Iperf2.Report

/-! ## Interval handlers -/

/-- The loop of `reporter_transfer_protocol_missed_reports`. -/
def missedReports (packetTime : Timeval) : Nat → TransferInfo → TransferInfo × List Output
  | 0, stats => (stats, [])
  | fuel + 1, stats =>
    if timeDifference packetTime stats.ts.nextTime > timeDouble stats.ts.intervalTime then
      let stats := stats.stamp .interval
      let emptystats : TransferInfo := { (default : TransferInfo) with
        ts := { (default : ReportTimeStamps) with
          iStart := stats.ts.iStart
          iEnd := stats.ts.iEnd }
        common := stats.common }
      let rest := missedReports packetTime fuel stats
      (rest.1, (if stats.printable then [.report emptystats] else []) ++ rest.2)
    else (stats, [])

/-- `reporter_transfer_protocol_missed_reports`: every round moves `nextTime` on by the interval, so there are as many
as intervals fit between them. -/
def reporterTransferProtocolMissedReports (stats : TransferInfo) (packet : ReportStruct) :
    TransferInfo × List Output :=
  let rounds := timeDifference packet.packetTime stats.ts.nextTime / timeDouble stats.ts.intervalTime
  missedReports packet.packetTime (rounds.floor.toNat + 1) stats

/-- The interval report of a flow inside `reporter_condprint_time_interval_report`. -/
def intervalReport (data : ReporterData) (packetTime : Timeval) : ReporterData × List Output :=
  let stats := { data.info with ts := { data.info.ts with packetTime } }
  data.transferProtocolHandler.parts.handle { data with info := stats.stamp .interval } false

/-- The full duplex report counts this flow's interval report, and is printed after the second one. -/
def fullduplexInterval (common : ReportCommon) (s : SumReport) : SumReport × List Output :=
  let s := { s with threads := s.threads + 1 }
  if s.threads = 2 ∧ common.isEnhanced then
    let reported := s.transferProtocolSumHandler.handle s.info false
    ({ s with
       threads := 0
       info := reported.1 }, reported.2)
  else (s, [])

/-- The group report counts this flow's interval report, and is printed after the last one. -/
def groupInterval (common : ReportCommon) (s : SumReport) : SumReport × List Output :=
  let s := { s with threads := s.threads + 1 }
  if s.threads = s.count then
    let info := { s.info with filterThisSampleOutput := !(s.count > 1 || common.isSumOnly) }
    let reported := s.transferProtocolSumHandler.handle (info.stamp .interval) false
    ({ s with
       threads := 0
       info := reported.1 }, reported.2)
  else (s, [])

/-- A step on a report that may not be there. -/
def onReport (step : SumReport → SumReport × List Output) (s : Option SumReport) :
    Option SumReport × List Output :=
  match s with
  | none => (none, [])
  | some s => (some (step s).1, (step s).2)

/-- `reporter_condprint_time_interval_report` -/
def reporterCondprintTimeIntervalReport (data : ReporterData) (packet : ReportStruct) :
    ReporterData × List Output × Bool :=
  if timeDifference data.info.ts.nextTime packet.packetTime < 0 then
    let (data, printed) := intervalReport data packet.packetTime
    let fullduplex := onReport (fullduplexInterval data.info.common) data.fullDuplexReport
    let group := onReport (groupInterval data.info.common) data.groupSumReport
    -- in the event the reporter fell behind output the missed reports to catch up
    let missed :=
      if data.info.printable then reporterTransferProtocolMissedReports data.info packet else (data.info, [])
    ({ data with
       fullDuplexReport := fullduplex.1
       groupSumReport := group.1
       info := missed.1 }, printed ++ fullduplex.2 ++ group.2 ++ missed.2, true)
  else (data, [], false)

theorem timeInterval_postReport (data : ReporterData) (packet : ReportStruct) :
    (reporterCondprintTimeIntervalReport data packet).1.packetHandlerPostReport = data.packetHandlerPostReport := by
  unfold reporterCondprintTimeIntervalReport
  split <;> rfl

/-- `reporter_condprint_frame_interval_report_server_udp` -/
def reporterCondprintFrameIntervalReportServerUdp (data : ReporterData) (packet : ReportStruct) :
    ReporterData × List Output × Bool :=
  let stats := { data.info with
    -- first packet of a burst and not a duplicate
    matchframeID :=
      if packet.burstsize = packet.remaining + packet.packetLen ∧ data.info.matchframeID ≠ packet.frameID then
        uint32 packet.frameID
      else data.info.matchframeID }
  if packet.packetLen = packet.remaining ∧ packet.frameID = stats.matchframeID then
    let iStart := timeDifference stats.ts.nextTime stats.ts.startTime
    let cntOutofOrder := stats.total.OutofOrder.delta
    let stats := { stats with
      ts := { stats.ts with
        iStart := if iStart < 0 then 0 else iStart
        iEnd := timeDifference packet.packetTime stats.ts.startTime }
      frameID := uint32 packet.frameID
      cntBytes := stats.total.Bytes.delta
      cntOutofOrder
      cntError := clampError (stats.total.Lost.delta - cntOutofOrder)
      cntDatagrams := stats.PacketID - stats.total.Datagrams.prev }
    ({ data with info := reporterResetTransferStatsServerUdp stats }, stats.output, true)
  else ({ data with info := stats }, [], false)

/-- `reporter_condprint_frame_interval_report_server_tcp` -/
def reporterCondprintFrameIntervalReportServerTcp (data : ReporterData) (_ : ReportStruct) :
    ReporterData × List Output × Bool := (data, [], true)

/-- `reporter_condprint_burst_interval_report_server_tcp` -/
def reporterCondprintBurstIntervalReportServerTcp (data : ReporterData) (packet : ReportStruct) :
    ReporterData × List Output × Bool :=
  if packet.transitReady then
    let (stats, tripTime) := reporterHandlePacketOnewayTransit data.info packet
    let stats := { stats with
      framelatencyHistogram := stats.framelatencyHistogram.map fun h =>
        histogramInsert h tripTime (some packet.sentTime)
      tripTime := tripTime * 1000
      ts := { stats.ts with
        prevpacketTime := packet.prevSentTime
        packetTime := packet.packetTime } }
    let stats := { stats.stamp .frame with cntBytes := stats.total.Bytes.delta }
    ({ data with info := reporterResetTransferStatsServerTcp stats }, stats.output, true)
  else (data, [], false)

/-- The interval handler that a function pointer names. -/
def TransferIntervalHandler.handle : TransferIntervalHandler → ReporterData → ReportStruct →
    ReporterData × List Output × Bool
  | .timeInterval => reporterCondprintTimeIntervalReport
  | .frameIntervalServerUdp => reporterCondprintFrameIntervalReportServerUdp
  | .frameIntervalServerTcp => reporterCondprintFrameIntervalReportServerTcp
  | .burstIntervalServerTcp => reporterCondprintBurstIntervalReportServerTcp

/-! ## One record -/

/-- A call of a packet handler that may not be set. -/
def handlePacket (handler : Option PacketHandler) (packet : ReportStruct) (data : ReporterData) : ReporterData :=
  match handler with
  | none => data
  | some h => { data with info := h.handle data.info packet }

@[simp] theorem handlePacket_none (packet : ReportStruct) (data : ReporterData) :
    handlePacket none packet data = data := rfl

@[simp] theorem handlePacket_some (h : PacketHandler) (packet : ReportStruct) (data : ReporterData) :
    handlePacket (some h) packet data = { data with info := h.handle data.info packet } := rfl

/-- The sampled TCP statistics of a record. -/
def handleTcpistats (stats : TransferInfo) (packet : ReportStruct) : TransferInfo :=
  if stats.common.enableSampleTCPstats ∧ packet.tcpistatValid then reporterHandlePacketTcpistats stats packet
  else stats

/-- A report that takes the time of a final packet and has one flow less; the last flow prints its totals. -/
def finalSum (prints : SumReport → Bool) (packetTime : Timeval) (s : SumReport) : SumReport × List Output :=
  let ts :=
    if timeDifference s.info.ts.packetTime packetTime > 0 then { s.info.ts with packetTime } else s.info.ts
  let s := { s with
    info := { s.info with ts }
    count := s.count - 1 }
  if s.count = 0 ∧ prints s then
    let reported := s.transferProtocolSumHandler.handle s.info true
    ({ s with info := reported.1 }, reported.2)
  else (s, [])

/-- The branch of `reporter_process_transfer_report` for a packet of the traffic. -/
def processPacket (data : ReporterData) (packet : ReportStruct) : ReporterData × List Output × Bool :=
  let data := handlePacket data.packetHandlerPreReport packet data
  let (data, printed, advanceJobq) :=
    match data.transferIntervalHandler with
    | none => (data, [], false)
    | some h => h.handle data packet
  let data := handlePacket data.packetHandlerPostReport packet data
  let setTime (s : SumReport) : SumReport :=
    { s with info := { s.info with ts := { s.info.ts with packetTime := packet.packetTime } } }
  ({ data with
     groupSumReport := data.groupSumReport.map setTime
     fullDuplexReport := data.fullDuplexReport.map setTime }, printed, advanceJobq)

/-- The branch of `reporter_process_transfer_report` for the last packet of the traffic. -/
def processFinalPacket (data : ReporterData) (packet : ReportStruct) : ReporterData × List Output :=
  let data := handlePacket data.packetHandlerPreReport packet data
  let data := handlePacket data.packetHandlerPostReport packet data
  let stats := { data.info with ts := { data.info.ts with packetTime := packet.packetTime } }
  let (data, printed) := data.transferProtocolHandler.parts.handle { data with info := stats } true
  let fullduplex :=
    if data.info.common.isEnhanced then
      onReport (finalSum (fun _ => true) packet.packetTime) data.fullDuplexReport
    else (data.fullDuplexReport, [])
  -- the group report is freed after its last flow
  let prints (s : SumReport) : Bool := s.maxcount > 1 || data.info.common.isSumOnly
  let group := onReport (finalSum prints packet.packetTime) data.groupSumReport
  ({ data with
     fullDuplexReport := fullduplex.1
     groupSumReport := group.1 }, printed ++ fullduplex.2 ++ group.2)

/-- The body of the loop of `reporter_process_transfer_report`: the data, what it printed, and whether the packet was
the last one. -/
def reporterProcessTransferReport (data : ReporterData) (packet : ReportStruct) : ReporterData × List Output × Bool :=
  let data := { data with info := handleTcpistats data.info packet }
  if packet.packetID < 0 then
    let (data, printed) := processFinalPacket data packet
    (data, printed, true)
  else
    let (data, printed, _) := processPacket data packet
    (data, printed, false)

end Iperf2.Report
