import Iperf2.Report.Handlers

/-!
# Reports of a flow and of its group

The transfer protocol handlers of `Reporter.c`: they set the values of an interval or a final report, add what the
flow accounted since its last interval report to the group and full duplex reports, print, and start the next
interval. The four handlers of a flow have one shape, `TransferProtocol.handle`; `serverUdpParts` and so on
are their parts. The handlers of a group report (`reporterTransferProtocolSum...`) and of a
full duplex report work on one `TransferInfo`.
-/

namespace Iperf2.Report

/-! ## Time stamps -/

/-- `reporter_set_timestamps_time` -/
def reporterSetTimestampsTime (times : ReportTimeStamps) (tstype : TimeStampType) : ReportTimeStamps :=
  -- the first packet is also the last and the start time is greater than the packet time
  if timeDifference times.packetTime times.startTime < 0 then
    { times with
      iEnd := 0
      iStart := 0 }
  else
    match tstype with
    | .interval => { times with
        iStart := times.iEnd
        iEnd := timeDifference times.nextTime times.startTime
        nextTime := timeAdd times.nextTime times.intervalTime }
    | .total => { times with
        iStart := 0
        iEnd := timeDifference times.packetTime times.startTime }
    | .finalpartialStamp => { times with
        iStart := times.iEnd
        iEnd := timeDifference times.packetTime times.startTime }
    | .frame =>
      let iStart := timeDifference times.prevpacketTime times.startTime
      { times with
        iStart := if iStart < 0 then 0 else iStart
        iEnd := timeDifference times.packetTime times.startTime }

/-- The report with its time stamps set. -/
def TransferInfo.stamp (stats : TransferInfo) (tstype : TimeStampType) : TransferInfo :=
  { stats with ts := reporterSetTimestampsTime stats.ts tstype }

/-- `(stats->output_handler) && !(stats->filter_this_sample_output)` -/
def TransferInfo.printable (stats : TransferInfo) : Bool := stats.outputHandler && !stats.filterThisSampleOutput

/-- The call of the output handler. -/
def TransferInfo.output (stats : TransferInfo) : List Output := if stats.printable then [.report stats] else []

/-- The partial interval report in front of a final one, printed if it is significant. -/
def TransferInfo.partialReport (stats : TransferInfo) : TransferInfo × List Output :=
  if stats.printable then
    let stats := stats.stamp .finalpartialStamp
    (stats, if stats.ts.iEnd - stats.ts.iStart > stats.ts.significantPartial then [.report stats] else [])
  else (stats, [])

/-- A partial report moves the time stamps only. -/
theorem partialReport_eq (stats : TransferInfo) : ∃ ts out, stats.partialReport = ({ stats with ts }, out) := by
  unfold TransferInfo.partialReport
  split
  · exact ⟨_, _, rfl⟩
  · exact ⟨stats.ts, [], rfl⟩

/-- So does one that is made under a condition. -/
theorem partialReport_ite (c : Prop) [Decidable c] (stats : TransferInfo) :
    (if c then stats.partialReport else (stats, [])) =
      ({ stats with ts := (if c then stats.partialReport else (stats, [])).1.ts },
        (if c then stats.partialReport else (stats, [])).2) := by
  split
  · obtain ⟨ts, out, heq⟩ := partialReport_eq stats
    rw [heq]
  · rfl

/-! ## The start of the next interval -/

def ShiftCounter.delta (c : ShiftCounter) : Int := c.current - c.prev

def ShiftCounter.shift (c : ShiftCounter) : ShiftCounter := { c with prev := c.current }

@[simp] theorem ShiftCounter.shift_current (c : ShiftCounter) : c.shift.current = c.current := rfl

@[simp] theorem ShiftCounter.shift_prev (c : ShiftCounter) : c.shift.prev = c.current := rfl

def IsochStats.shift (i : IsochStats) : IsochStats :=
  { i with
    framecnt := i.framecnt.shift
    framelostcnt := i.framelostcnt.shift
    slipcnt := i.slipcnt.shift }

/-- `reporter_reset_transfer_stats_client_tcp` -/
def reporterResetTransferStatsClientTcp (stats : TransferInfo) : TransferInfo :=
  { stats with
    total := { stats.total with Bytes := stats.total.Bytes.shift }
    sockCallstats := stats.sockCallstats.setWrite { stats.sockCallstats.write with
      WriteCnt := 0
      WriteErr := 0
      TCPretry := 0 }
    isochstats := stats.isochstats.shift }

/-- `reporter_reset_transfer_stats_client_udp` -/
def reporterResetTransferStatsClientUdp (stats : TransferInfo) : TransferInfo :=
  { stats with
    cntError := if stats.cntError < 0 then 0 else stats.cntError
    total := { stats.total with
      Lost := stats.total.Lost.shift
      Datagrams := stats.total.Datagrams.shift
      Bytes := stats.total.Bytes.shift
      IPG := stats.total.IPG.shift }
    sockCallstats := stats.sockCallstats.setWrite { stats.sockCallstats.write with
      WriteCnt := 0
      WriteErr := 0 }
    isochstats := stats.isochstats.shift
    IPGsum := if stats.cntDatagrams ≠ 0 then 0 else stats.IPGsum }

/-- The interval statistics of a new interval. -/
def TransitStats.resetInterval (t : TransitStats) : TransitStats := { t.clearInterval with cntTransit := 0 }

/-- `reporter_reset_transfer_stats_server_tcp` -/
def reporterResetTransferStatsServerTcp (stats : TransferInfo) : TransferInfo :=
  { stats with
    total := { stats.total with Bytes := stats.total.Bytes.shift }
    sockCallstats := { stats.sockCallstats with
      cntRead := 0
      bins := fun _ => 0 }
    transit := stats.transit.resetInterval
    IPGsum := 0 }

/-- `reporter_reset_transfer_stats_server_udp` -/
def reporterResetTransferStatsServerUdp (stats : TransferInfo) : TransferInfo :=
  { stats with
    total :=
      { Bytes := stats.total.Bytes.shift
        Datagrams := { stats.total.Datagrams with prev := stats.PacketID }
        OutofOrder := stats.total.OutofOrder.shift
        Lost := stats.total.Lost.shift
        IPG := stats.total.IPG.shift }
    transit := stats.transit.resetInterval
    isochstats := stats.isochstats.shift
    l2counts := { stats.l2counts with
      cnt := 0
      unknown := 0
      udpcsumerr := 0
      lengtherr := 0 }
    IPGsum := if stats.cntDatagrams ≠ 0 then 0 else stats.IPGsum }

/-! ## Values of a report -/

/-- An error count is never negative. -/
def clampError (n : Int) : Int := if n < 0 then 0 else n

/-- The frame counts since the last interval report. -/
def IsochStats.interval (i : IsochStats) : IsochStats :=
  { i with
    cntFrames := i.framecnt.delta
    cntFramesMissed := i.framelostcnt.delta
    cntSlips := i.slipcnt.delta }

/-- The frame counts of the whole flow. -/
def IsochStats.totals (i : IsochStats) : IsochStats :=
  { i with
    cntFrames := i.framecnt.current
    cntFramesMissed := i.framelostcnt.current
    cntSlips := i.slipcnt.current }

/-- `if (isIsochronous(stats->common))` around a setting of the frame counts. -/
def TransferInfo.isoch (stats : TransferInfo) (set : IsochStats → IsochStats) : IsochStats :=
  if stats.common.isIsochronous then set stats.isochstats else stats.isochstats

def Histogram.setFinal (h : Histogram) (final : Bool) : Histogram := { h with final }

/-- The `IPGsum` of a group report takes the larger value of a flow. -/
def maxIPGsum (sumstats stats : Rat) : Rat := if sumstats < stats then stats else sumstats

/-! ## Handlers of a flow -/

/-- The parts of a transfer protocol handler: the values of an interval, what is added to a group and to a full
duplex report, the values of the final report with the partial report before it, other counts printed after it, and
the start of the next interval. -/
structure TransferProtocol where
  interval : TransferInfo → TransferInfo
  sum : TransferInfo → TransferInfo → TransferInfo
  fullduplex : TransferInfo → TransferInfo → TransferInfo
  report : TransferInfo → Bool → TransferInfo × List Output
  printf : TransferInfo → Bool → List Output
  reset : TransferInfo → Bool → TransferInfo

/-- A transfer protocol handler. -/
def TransferProtocol.handle (p : TransferProtocol) (data : ReporterData) (final : Bool) :
    ReporterData × List Output :=
  let stats := p.interval data.info
  let groupSumReport := data.groupSumReport.map fun s => { s with info := p.sum stats s.info }
  let fullDuplexReport := data.fullDuplexReport.map fun s => { s with info := p.fullduplex stats s.info }
  let reported := p.report stats final
  let printed := reported.1.output ++ if reported.1.printable then p.printf reported.1 final else []
  ({ data with
     groupSumReport
     fullDuplexReport
     info := p.reset reported.1 final }, reported.2 ++ printed)

/-- The parts of `reporter_transfer_protocol_server_udp`. -/
def serverUdpParts : TransferProtocol where
  interval stats :=
    let cntOutofOrder := stats.total.OutofOrder.delta
    { stats with
      cntBytes := stats.total.Bytes.delta
      cntOutofOrder
      -- out-of-order packets are mostly duplicates, so conditionally subtract them from the lost packets
      cntError := clampError (stats.total.Lost.delta - cntOutofOrder)
      cntDatagrams := stats.PacketID - stats.total.Datagrams.prev
      cntIPG := stats.total.IPG.delta
      latencyHistogram := stats.latencyHistogram.map (·.setFinal true)
      isochstats := stats.isoch .interval
      framelatencyHistogram :=
        if stats.common.isIsochronous then stats.framelatencyHistogram.map (·.setFinal true)
        else stats.framelatencyHistogram
      jitter := if stats.total.Datagrams.current = 1 then 0 else stats.jitter }
  sum stats sumstats :=
    { sumstats with
      total :=
        { OutofOrder := sumstats.total.OutofOrder.add stats.total.OutofOrder.delta
          Lost := sumstats.total.Lost.add stats.total.Lost.delta
          Datagrams := sumstats.total.Datagrams.add (stats.PacketID - stats.total.Datagrams.prev)
          Bytes := sumstats.total.Bytes.add stats.cntBytes
          IPG := sumstats.total.IPG.add stats.cntIPG }
      IPGsum := maxIPGsum sumstats.IPGsum stats.IPGsum
      threadcnt := sumstats.threadcnt + 1 }
  fullduplex stats fullduplexstats :=
    { fullduplexstats with
      total := { fullduplexstats.total with
        Bytes := fullduplexstats.total.Bytes.add stats.cntBytes
        IPG := fullduplexstats.total.IPG.add stats.cntIPG
        Datagrams := fullduplexstats.total.Datagrams.add stats.total.Datagrams.delta }
      IPGsum := maxIPGsum fullduplexstats.IPGsum stats.IPGsum }
  report stats final :=
    if final then
      -- the partial report shows the interval values again
      let (stats, printed) :=
        if stats.cntBytes > 0 ∧ !timeZero stats.ts.intervalTime then stats.partialReport else (stats, [])
      let stats := stats.stamp .total
      let cntOutofOrder := stats.total.OutofOrder.current
      ({ stats with
         final := true
         cntOutofOrder
         cntError := clampError (stats.total.Lost.current - cntOutofOrder)
         cntDatagrams := stats.PacketID
         cntIPG := stats.total.IPG.current
         IPGsum := timeDifference stats.ts.packetTime stats.ts.startTime
         cntBytes := stats.total.Bytes.current
         l2counts := { stats.l2counts with
           cnt := stats.l2counts.totCnt
           unknown := stats.l2counts.totUnknown
           udpcsumerr := stats.l2counts.totUdpcsumerr
           lengtherr := stats.l2counts.totLengtherr }
         transit := { stats.transit with
           minTransit := stats.transit.totminTransit
           maxTransit := stats.transit.totmaxTransit
           cntTransit := stats.transit.totcntTransit
           sumTransit := stats.transit.totsumTransit
           meanTransit := stats.transit.totmeanTransit
           m2Transit := stats.transit.totm2Transit
           vdTransit := stats.transit.totvdTransit }
         isochstats := stats.isoch .totals
         latencyHistogram := stats.latencyHistogram.map (·.setFinal true)
         framelatencyHistogram := stats.framelatencyHistogram.map (·.setFinal true) }, printed)
    else (stats, [])
  printf _ _ := []
  reset stats final := if final then stats else reporterResetTransferStatsServerUdp stats

/-- The parts of `reporter_transfer_protocol_client_udp`. -/
def clientUdpParts : TransferProtocol where
  interval stats :=
    { stats with
      cntBytes := stats.total.Bytes.delta
      cntDatagrams := stats.total.Datagrams.delta
      cntIPG := stats.total.IPG.delta
      isochstats := stats.isoch .interval }
  sum stats sumstats :=
    let write := stats.sockCallstats.write
    let sumwrite := sumstats.sockCallstats.write
    { sumstats with
      total := { sumstats.total with
        Bytes := sumstats.total.Bytes.add stats.cntBytes
        Datagrams := sumstats.total.Datagrams.add stats.cntDatagrams
        IPG := sumstats.total.IPG.add stats.cntIPG }
      sockCallstats := sumstats.sockCallstats.setWrite { sumwrite with
        WriteErr := sumwrite.WriteErr + write.WriteErr
        WriteCnt := sumwrite.WriteCnt + write.WriteCnt
        totWriteErr := sumwrite.totWriteErr + write.WriteErr
        totWriteCnt := sumwrite.totWriteCnt + write.WriteCnt }
      IPGsum := maxIPGsum sumstats.IPGsum stats.IPGsum
      threadcnt := sumstats.threadcnt + 1 }
  fullduplex stats fullduplexstats :=
    { fullduplexstats with
      total := { fullduplexstats.total with
        Bytes := fullduplexstats.total.Bytes.add stats.cntBytes
        IPG := fullduplexstats.total.IPG.add stats.cntIPG
        Datagrams := fullduplexstats.total.Datagrams.add stats.cntDatagrams }
      IPGsum := maxIPGsum fullduplexstats.IPGsum stats.IPGsum }
  report stats final :=
    if final then
      let stats := stats.stamp .total
      ({ stats with
         cntBytes := stats.total.Bytes.current
         sockCallstats := stats.sockCallstats.setWrite { stats.sockCallstats.write with
           WriteErr := stats.sockCallstats.write.totWriteErr
           WriteCnt := stats.sockCallstats.write.totWriteCnt }
         cntIPG := stats.total.IPG.current
         cntDatagrams := stats.PacketID
         IPGsum := timeDifference stats.ts.packetTime stats.ts.startTime
         isochstats := stats.isoch .totals }, [])
    else ({ stats with cntIPG := if stats.ts.iEnd > 0 then stats.total.IPG.delta else 0 }, [])
  printf stats final :=
    if final ∧ stats.common.reportMode ≠ .csv then
      [.datagrams stats.common.transferID stats.total.Datagrams.current]
    else []
  reset stats _ := reporterResetTransferStatsClientUdp stats

/-- The parts of `reporter_transfer_protocol_server_tcp`. -/
def serverTcpParts : TransferProtocol where
  interval stats :=
    { stats with
      cntBytes := stats.total.Bytes.delta
      framelatencyHistogram := stats.framelatencyHistogram.map (·.setFinal false) }
  sum stats sumstats :=
    let read := stats.sockCallstats
    let sumread := sumstats.sockCallstats
    { sumstats with
      threadcnt := sumstats.threadcnt + 1
      total := { sumstats.total with Bytes := sumstats.total.Bytes.add stats.cntBytes }
      sockCallstats := { sumread with
        cntRead := sumread.cntRead + read.cntRead
        totcntRead := sumread.totcntRead + read.cntRead
        bins := fun ix => sumread.bins ix + read.bins ix
        totbins := fun ix => sumread.totbins ix + read.bins ix } }
  fullduplex stats fullduplexstats :=
    { fullduplexstats with
      total := { fullduplexstats.total with Bytes := fullduplexstats.total.Bytes.add stats.cntBytes } }
  report stats final :=
    if final then
      let stats : TransferInfo :=
        { stats with framelatencyHistogram := stats.framelatencyHistogram.map (·.setFinal true) }
      let (stats, printed) :=
        if stats.cntBytes > 0 ∧ stats.printable ∧ !timeZero stats.ts.intervalTime then
          let (stats, printed) := { stats with isochstats := stats.isoch .interval }.partialReport
          (reporterResetTransferStatsServerTcp stats, printed)
        else (stats, [])
      let stats := stats.stamp .total
      ({ stats with
         final := true
         cntBytes := stats.total.Bytes.current
         IPGsum := stats.ts.iEnd
         sockCallstats := { stats.sockCallstats with
           cntRead := stats.sockCallstats.totcntRead
           bins := stats.sockCallstats.totbins }
         isochstats := stats.isoch .totals
         transit := { stats.transit with
           sumTransit := stats.transit.totsumTransit
           cntTransit := stats.transit.totcntTransit
           minTransit := stats.transit.totminTransit
           maxTransit := stats.transit.totmaxTransit
           m2Transit := stats.transit.totm2Transit } }, printed)
    else ({ stats with isochstats := stats.isoch .interval }, [])
  printf _ _ := []
  reset stats final := if final then stats else reporterResetTransferStatsServerTcp stats

/-- The parts of `reporter_transfer_protocol_client_tcp`. -/
def clientTcpParts : TransferProtocol where
  interval stats := { stats with cntBytes := stats.total.Bytes.delta }
  sum stats sumstats :=
    let write := stats.sockCallstats.write
    let sumwrite := sumstats.sockCallstats.write
    { sumstats with
      total := { sumstats.total with Bytes := sumstats.total.Bytes.add stats.cntBytes }
      sockCallstats := sumstats.sockCallstats.setWrite { sumwrite with
        WriteErr := sumwrite.WriteErr + write.WriteErr
        WriteCnt := sumwrite.WriteCnt + write.WriteCnt
        totWriteErr := sumwrite.totWriteErr + write.WriteErr
        totWriteCnt := sumwrite.totWriteCnt + write.WriteCnt
        TCPretry := sumwrite.TCPretry + write.TCPretry
        totTCPretry := sumwrite.totTCPretry + write.TCPretry }
      threadcnt := sumstats.threadcnt + 1 }
  fullduplex stats fullduplexstats :=
    { fullduplexstats with
      total := { fullduplexstats.total with Bytes := fullduplexstats.total.Bytes.add stats.cntBytes } }
  report stats final :=
    if final then
      let (stats, printed) :=
        if stats.cntBytes > 0 ∧ stats.printable ∧ !timeZero stats.ts.intervalTime then
          let (stats, printed) := { stats with isochstats := stats.isoch .interval }.partialReport
          (reporterResetTransferStatsClientTcp stats, printed)
        else (stats, [])
      let stats := stats.stamp .total
      let write := stats.sockCallstats.write
      ({ stats with
         isochstats := stats.isoch .totals
         sockCallstats := stats.sockCallstats.setWrite { write with
           WriteErr := write.totWriteErr
           WriteCnt := write.totWriteCnt
           TCPretry := write.totTCPretry }
         framelatencyHistogram := stats.framelatencyHistogram.map (·.setFinal true)
         cntBytes := stats.total.Bytes.current }, printed)
    else ({ stats with isochstats := stats.isoch .interval }, [])
  printf _ _ := []
  reset stats final := if final then stats else reporterResetTransferStatsClientTcp stats

/-- The parts of the handler that a function pointer names. -/
def TransferProtocolHandler.parts : TransferProtocolHandler → TransferProtocol
  | .serverUdp => serverUdpParts
  | .clientUdp => clientUdpParts
  | .serverTcp => serverTcpParts
  | .clientTcp => clientTcpParts

def reporterTransferProtocolServerUdp := serverUdpParts.handle

def reporterTransferProtocolClientUdp := clientUdpParts.handle

def reporterTransferProtocolServerTcp := serverTcpParts.handle

def reporterTransferProtocolClientTcp := clientTcpParts.handle

/-! ## Handlers of a group -/

/-- `reporter_transfer_protocol_sum_server_udp` -/
def reporterTransferProtocolSumServerUdp (stats : TransferInfo) (final : Bool) : TransferInfo × List Output :=
  if final then
    let stats := stats.stamp .total
    let stats := { stats with
      cntOutofOrder := stats.total.OutofOrder.current
      cntError := clampError (stats.total.Lost.current - stats.total.OutofOrder.current)
      cntDatagrams := stats.total.Datagrams.current
      cntBytes := stats.total.Bytes.current
      IPGsum := timeDifference stats.ts.packetTime stats.ts.startTime
      cntIPG := stats.total.IPG.current }
    (stats, stats.output)
  else
    let stats := { stats with
      cntOutofOrder := stats.total.OutofOrder.delta
      cntError := clampError (stats.total.Lost.delta - stats.total.OutofOrder.delta)
      cntDatagrams := stats.total.Datagrams.delta
      cntBytes := stats.total.Bytes.delta
      cntIPG := stats.total.IPG.delta }
    -- there is no packet ID for sum server reports, set it to total cnt for calculation
    (reporterResetTransferStatsServerUdp { stats with
       threadcnt := 0
       PacketID := stats.total.Datagrams.current }, stats.output)

/-- `reporter_transfer_protocol_sum_client_udp` -/
def reporterTransferProtocolSumClientUdp (stats : TransferInfo) (final : Bool) : TransferInfo × List Output :=
  if final then
    let stats := stats.stamp .total
    let stats := { stats with
      sockCallstats := stats.sockCallstats.setWrite { stats.sockCallstats.write with
        WriteErr := stats.sockCallstats.write.totWriteErr
        WriteCnt := stats.sockCallstats.write.totWriteCnt }
      cntDatagrams := stats.total.Datagrams.current
      cntBytes := stats.total.Bytes.current
      IPGsum := timeDifference stats.ts.packetTime stats.ts.startTime
      cntIPG := stats.total.IPG.current }
    (stats, stats.output ++
      if stats.common.reportMode ≠ .csv ∧ !stats.filterThisSampleOutput then
        [.sumcntDatagrams stats.threadcnt stats.total.Datagrams.current]
      else [])
  else
    let stats := { stats with
      cntBytes := stats.total.Bytes.delta
      cntIPG := stats.total.IPG.delta
      cntDatagrams := stats.total.Datagrams.delta }
    (reporterResetTransferStatsClientUdp { stats with threadcnt := 0 }, stats.output)

/-- The interval report in the two TCP group handlers: the group's, or a partial one in front of the final report if
bytes were counted. `partialReset` is one more reset after the partial report. -/
def sumTcpInterval (reset partialReset : TransferInfo → TransferInfo) (stats : TransferInfo) (final : Bool) :
    TransferInfo × List Output :=
  if !final ∨ stats.cntBytes > 0 ∧ !timeZero stats.ts.intervalTime then
    let stats := { stats with cntBytes := stats.total.Bytes.delta }
    if final then
      let (stats, printed) := stats.partialReport
      (reset (if stats.printable then partialReset stats else stats), printed)
    else (reset (if stats.printable then { stats with threadcnt := 0 } else stats), stats.output)
  else (stats, [])

/-- The shape of the two TCP group handlers: the interval report and, if it is final, the totals. -/
def sumTcp (reset partialReset totals : TransferInfo → TransferInfo) (stats : TransferInfo) (final : Bool) :
    TransferInfo × List Output :=
  let (stats, printed) := sumTcpInterval reset partialReset stats final
  if final then
    let stats := (totals { stats with cntBytes := stats.total.Bytes.current }).stamp .total
    (stats, printed ++ stats.output)
  else (stats, printed)

/-- `reporter_transfer_protocol_sum_client_tcp` -/
def reporterTransferProtocolSumClientTcp : TransferInfo → Bool → TransferInfo × List Output :=
  sumTcp reporterResetTransferStatsClientTcp reporterResetTransferStatsClientTcp fun stats =>
    let write := stats.sockCallstats.write
    { stats with
      sockCallstats := stats.sockCallstats.setWrite { write with
        WriteErr := write.totWriteErr
        WriteCnt := write.totWriteCnt
        TCPretry := write.totTCPretry } }

/-- `reporter_transfer_protocol_sum_server_tcp` -/
def reporterTransferProtocolSumServerTcp : TransferInfo → Bool → TransferInfo × List Output :=
  sumTcp reporterResetTransferStatsServerTcp id fun stats =>
    { stats with
      sockCallstats := { stats.sockCallstats with
        cntRead := stats.sockCallstats.totcntRead
        bins := stats.sockCallstats.totbins } }

/-- The shape of the two full duplex handlers. -/
def fullduplexReport (interval shift totals : TransferInfo → TransferInfo) (stats : TransferInfo) (final : Bool) :
    TransferInfo × List Output :=
  let (stats, printed) :=
    if !final ∨ stats.cntBytes > 0 ∧ !timeZero stats.ts.intervalTime then
      let (stats, printed) := if final then (interval stats).partialReport else (interval stats, [])
      (shift stats, printed)
    else (stats, [])
  let stats := if final then (totals stats).stamp .total else stats.stamp .interval
  (stats, printed ++ stats.output)

/-- `reporter_transfer_protocol_fullduplex_tcp` -/
def reporterTransferProtocolFullduplexTcp : TransferInfo → Bool → TransferInfo × List Output :=
  fullduplexReport
    (fun stats => { stats with cntBytes := stats.total.Bytes.delta })
    (fun stats => { stats with total := { stats.total with Bytes := stats.total.Bytes.shift } })
    (fun stats => { stats with cntBytes := stats.total.Bytes.current })

/-- `reporter_transfer_protocol_fullduplex_udp` -/
def reporterTransferProtocolFullduplexUdp : TransferInfo → Bool → TransferInfo × List Output :=
  fullduplexReport
    (fun stats => { stats with
      cntBytes := stats.total.Bytes.delta
      cntDatagrams := stats.total.Datagrams.delta
      cntIPG := stats.total.IPG.delta })
    (fun stats => { stats with
      total := { stats.total with
        Bytes := stats.total.Bytes.shift
        IPG := stats.total.IPG.shift
        Datagrams := stats.total.Datagrams.shift }
      IPGsum := if stats.cntDatagrams ≠ 0 then 0 else stats.IPGsum })
    (fun stats => { stats with
      cntBytes := stats.total.Bytes.current
      cntDatagrams := stats.total.Datagrams.current
      cntIPG := stats.total.IPG.current
      IPGsum := timeDifference stats.ts.packetTime stats.ts.startTime })

/-- The sum handler that a function pointer names. -/
def TransferProtocolSumHandler.handle : TransferProtocolSumHandler → TransferInfo → Bool → TransferInfo × List Output
  | .sumServerUdp => reporterTransferProtocolSumServerUdp
  | .sumClientUdp => reporterTransferProtocolSumClientUdp
  | .sumServerTcp => reporterTransferProtocolSumServerTcp
  | .sumClientTcp => reporterTransferProtocolSumClientTcp
  | .fullduplexTcp => reporterTransferProtocolFullduplexTcp
  | .fullduplexUdp => reporterTransferProtocolFullduplexUdp

end Iperf2.Report
