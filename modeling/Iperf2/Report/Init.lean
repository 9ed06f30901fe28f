import Iperf2.Report.Process

/-!
# New reports

`InitIndividualReport` and `InitSumReport` of `Reports.c`: the handlers that the settings of a traffic thread select,
and counters that are all zero. `Fresh` is what the accounting relies on at the start of a flow; the traffic thread
sets the start time and the time of the first interval report later.
-/

namespace Iperf2.Report

inductive IntervalMode
  | none
  | time
  | packets
  | frames
  deriving DecidableEq, Inhabited

/-- The fields of `thread_Settings` that the reports are made from. -/
structure Settings where
  threadMode : ThreadMode
  reportMode : ReportMode
  transferID : Int
  intervalMode : IntervalMode
  interval : Int
  bufLen : Int
  histBins : Int
  histBinsize : Int
  histUnits : Nat
  isUDP : Bool
  isEnhanced : Bool
  isSingleUDP : Bool
  isSumOnly : Bool
  isIsochronous : Bool
  isTripTime : Bool
  isFrameInterval : Bool
  isPeriodicBurst : Bool
  isFullDuplex : Bool
  isHistogram : Bool
  deriving DecidableEq, Inhabited

/-- `common_copy` -/
def commonCopy (inSettings : Settings) : ReportCommon where
  threadMode := inSettings.threadMode
  reportMode := inSettings.reportMode
  transferID := inSettings.transferID
  isUDP := inSettings.isUDP
  isEnhanced := inSettings.isEnhanced
  isSingleUDP := inSettings.isSingleUDP
  isSumOnly := inSettings.isSumOnly
  isIsochronous := inSettings.isIsochronous
  isTripTime := inSettings.isTripTime
  isFrameInterval := inSettings.isFrameInterval
  isPeriodicBurst := inSettings.isPeriodicBurst
  enableSampleTCPstats := inSettings.isEnhanced && inSettings.threadMode == .client

/-- `histogram_init` -/
def histogramInit (inSettings : Settings) : Histogram where
  bincount := inSettings.histBins
  binwidth := inSettings.histBinsize
  offset := 0
  units := 10 ^ inSettings.histUnits
  mybins := fun _ => 0
  populationcnt := 0
  cntloweroutofbounds := 0
  cntupperoutofbounds := 0
  maxbin := -1
  fmaxbin := -1
  maxval := 0
  fmaxval := 0
  maxts := ⟨0, 0⟩
  fmaxts := ⟨0, 0⟩
  final := false

/-- `PARTIALPERCENT` -/
def partialPercent : Rat := 1 / 4

/-- The time stamps of a new report with interval reports. -/
def intervalTimeStamps (inSettings : Settings) : ReportTimeStamps :=
  { (default : ReportTimeStamps) with
    intervalTime := ⟨inSettings.interval / rMillion, inSettings.interval % rMillion⟩
    significantPartial := inSettings.interval * partialPercent / rMillion }

/-- `ireport->transfer_protocol_handler` -/
def initTransferProtocolHandler (inSettings : Settings) : TransferProtocolHandler :=
  match inSettings.threadMode, inSettings.isUDP with
  | .server, true => .serverUdp
  | .server, false => .serverTcp
  | .client, true => .clientUdp
  | .client, false => .clientTcp

/-- The handler that accounts the packets of a flow with this transfer protocol handler. -/
def TransferProtocolHandler.packetHandler : TransferProtocolHandler → PacketHandler
  | .serverUdp => .serverUdp
  | .serverTcp => .serverTcp
  | .clientUdp => .client
  | .clientTcp => .client

/-- The bursts of TCP, and frame intervals, are accounted before the interval handler. -/
def accountsBefore (inSettings : Settings) : Bool :=
  inSettings.threadMode == .server && !inSettings.isUDP &&
    (inSettings.isPeriodicBurst || inSettings.intervalMode == .frames && inSettings.isIsochronous)

/-- `ireport->transfer_interval_handler` -/
def initTransferIntervalHandler (inSettings : Settings) : Option TransferIntervalHandler :=
  let frames := inSettings.intervalMode == .frames && inSettings.isIsochronous
  match inSettings.threadMode, inSettings.isUDP with
  | .server, true =>
    if frames then some .frameIntervalServerUdp
    else if inSettings.intervalMode = .time then some .timeInterval else none
  | .server, false =>
    if inSettings.isPeriodicBurst then some .burstIntervalServerTcp
    else if frames then some .frameIntervalServerTcp
    else if inSettings.intervalMode = .time then some .timeInterval else none
  | .client, _ => if inSettings.intervalMode = .time then some .timeInterval else none

/-- Whether `ireport->info.output_handler` is set. -/
def initOutputHandler (inSettings : Settings) : Bool :=
  let frames := inSettings.intervalMode == .frames && inSettings.isIsochronous
  let plain := inSettings.reportMode == .csv || !inSettings.isSumOnly
  match inSettings.threadMode, inSettings.isUDP with
  | .server, true => !frames && plain
  | .server, false => inSettings.isPeriodicBurst || frames || plain
  | .client, _ => plain

/-- `InitIndividualReport`, without the increment of the reference counts. -/
def initIndividualReport (inSettings : Settings) (groupSumReport fullDuplexReport : Option SumReport) :
    ReporterData where
  packetHandlerPreReport :=
    if accountsBefore inSettings then some (initTransferProtocolHandler inSettings).packetHandler else none
  packetHandlerPostReport :=
    if accountsBefore inSettings then none else some (initTransferProtocolHandler inSettings).packetHandler
  transferProtocolHandler := initTransferProtocolHandler inSettings
  transferIntervalHandler := initTransferIntervalHandler inSettings
  groupSumReport
  fullDuplexReport
  info := { (default : TransferInfo) with
    common := commonCopy inSettings
    ts := if inSettings.intervalMode = .time then intervalTimeStamps inSettings else default
    outputHandler := initOutputHandler inSettings
    sockCallstats := { (default : SendReadStats) with
      binsize := if inSettings.threadMode = .server then inSettings.bufLen / 8 else 0 }
    latencyHistogram :=
      if inSettings.threadMode = .server ∧ inSettings.isHistogram ∧ inSettings.isUDP ∧ inSettings.isTripTime then
        some (histogramInit inSettings)
      else none
    framelatencyHistogram :=
      if inSettings.threadMode = .server ∧ inSettings.isHistogram ∧
          (inSettings.isIsochronous ∨ !inSettings.isUDP ∧ inSettings.isTripTime) then
        some (histogramInit inSettings)
      else none }

/-- `SetSumHandlers` and `SetFullDuplexHandlers`, the transfer protocol handler. -/
def initSumHandler (inSettings : Settings) (fullduplexReport : Bool) : TransferProtocolSumHandler :=
  match fullduplexReport, inSettings.threadMode, inSettings.isUDP with
  | true, _, true => .fullduplexUdp
  | true, _, false => .fullduplexTcp
  | false, .server, true => .sumServerUdp
  | false, .server, false => .sumServerTcp
  | false, .client, true => .sumClientUdp
  | false, .client, false => .sumClientTcp

/-- Whether the output handler of a sum report is set. -/
def initSumOutputHandler (inSettings : Settings) (fullduplexReport : Bool) : Bool :=
  inSettings.reportMode ≠ .csv ∧ (fullduplexReport → !inSettings.isSumOnly)

/-- `InitSumReport` -/
def initSumReport (inSettings : Settings) (fullduplexReport : Bool) : SumReport where
  count := 0
  maxcount := 0
  threads := 0
  info := { (default : TransferInfo) with
    common := commonCopy inSettings
    ts :=
      if inSettings.interval ≠ 0 ∧ inSettings.intervalMode = .time then intervalTimeStamps inSettings else default
    outputHandler := initSumOutputHandler inSettings fullduplexReport }
  transferProtocolSumHandler := initSumHandler inSettings fullduplexReport

/-- The counters of a flow that has accounted nothing, whose flags belong to its handler. -/
structure Fresh (handler : TransferProtocolHandler) (stats : TransferInfo) : Prop where
  total : stats.total = default
  PacketID : stats.PacketID = 0
  sockCallstats : stats.sockCallstats = { (default : SendReadStats) with binsize := stats.sockCallstats.binsize }
  isUDP : stats.common.isUDP = (handler == .serverUdp || handler == .clientUdp)
  sampled : handler = .serverUdp ∨ handler = .serverTcp → stats.common.enableSampleTCPstats = false

theorem initIndividualReport_fresh (inSettings : Settings) (groupSumReport fullDuplexReport : Option SumReport) :
    let data := initIndividualReport inSettings groupSumReport fullDuplexReport
    Fresh data.transferProtocolHandler data.info where
  total := rfl
  PacketID := rfl
  sockCallstats := rfl
  isUDP := by
    simp only [initIndividualReport, initTransferProtocolHandler, commonCopy]
    cases inSettings.threadMode <;> cases inSettings.isUDP <;> rfl
  sampled := by
    simp only [initIndividualReport, initTransferProtocolHandler, commonCopy]
    cases inSettings.threadMode <;> cases inSettings.isUDP <;> simp

end Iperf2.Report
