import Iperf2.Report.Types

/-!
# Packet handlers

The reporter's accounting of one packet record: `reporter_handle_packet_server_udp`, `..._server_tcp`, `..._client`
and `..._tcpistats`, with the routines for rates, transit times, bursts and isochronous frames that they call. Each is
a function of `data->info` and the packet. Conditional updates stand at the fields they update, so that the fields a
handler does not touch are the same by definition.

The lemmas beside a handler say what it does to the totals and counts that reports are made of.
-/

namespace Iperf2.Report

/-! ## Counters -/

def ShiftCounter.add (c : ShiftCounter) (n : Int) : ShiftCounter := { c with current := c.current + n }

@[simp] theorem ShiftCounter.add_current (c : ShiftCounter) (n : Int) : (c.add n).current = c.current + n := rfl

@[simp] theorem ShiftCounter.add_prev (c : ShiftCounter) (n : Int) : (c.add n).prev = c.prev := rfl

/-- The counters moved within an interval: what they were at its start is the same. -/
structure ShiftCounters.SamePrev (t t' : ShiftCounters) : Prop where
  Bytes : t'.Bytes.prev = t.Bytes.prev
  Lost : t'.Lost.prev = t.Lost.prev
  OutofOrder : t'.OutofOrder.prev = t.OutofOrder.prev
  Datagrams : t'.Datagrams.prev = t.Datagrams.prev
  IPG : t'.IPG.prev = t.IPG.prev

/-- A value stored to a `uint32_t`. -/
def uint32 (n : Int) : Int := n % 2 ^ 32

/-- A value stored to an `int`. -/
def int32 (n : Int) : Int := n.bmod (2 ^ 32)

theorem int32_of_lt {n : Int} (hn : 0 ≤ n) (hlt : n < 2147483648) : int32 n = n := by
  unfold int32
  rw [Int.bmod_def]
  omega

theorem int32_lt (n : Int) : int32 n < 2147483648 := by
  unfold int32
  rw [Int.bmod_def]
  omega

theorem uint32_of_lt {n : Int} (hn : 0 ≤ n) (hlt : n < 4294967296) : uint32 n = n := Int.emod_eq_of_lt hn hlt

/-- The difference of two ids of which one was stored to a `uint32_t`, as an `int`. -/
theorem int32_sub_uint32 (id last : Int) : int32 (id - uint32 last) = int32 (id - last) := by
  unfold int32 uint32
  rw [Int.bmod_def, Int.bmod_def]
  omega

/-! ## Rates and transit times -/

/-- `reporter_handle_packet_pps` -/
def reporterHandlePacketPps (stats : TransferInfo) (packet : ReportStruct) : TransferInfo :=
  { stats with
    total :=
      if packet.emptyreport then stats.total
      else { stats.total with
        Datagrams := stats.total.Datagrams.add 1
        IPG := stats.total.IPG.add 1 }
    ts := { stats.ts with IPGstart := packet.packetTime }
    IPGsum := stats.IPGsum + timeDifference packet.packetTime packet.prevPacketTime }

/-- The statistics with one more transit time: the first one sets them, later ones update minima, maxima, sums and
the running variances (units of microseconds). -/
def TransitStats.update (t : TransitStats) (transit : Rat) : TransitStats :=
  let usecTransit := transit * 1000000
  if t.totcntTransit = 0 then
    { minTransit := transit
      maxTransit := transit
      sumTransit := transit
      cntTransit := 1
      totminTransit := transit
      totmaxTransit := transit
      totsumTransit := transit
      totcntTransit := 1
      vdTransit := usecTransit
      meanTransit := usecTransit
      m2Transit := usecTransit * usecTransit
      totvdTransit := usecTransit
      totmeanTransit := usecTransit
      totm2Transit := usecTransit * usecTransit
      lastTransit := transit }
  else
    let cntTransit := t.cntTransit + 1
    let totcntTransit := t.totcntTransit + 1
    let vdTransit := usecTransit - t.meanTransit
    let meanTransit := t.meanTransit + vdTransit / cntTransit
    let totvdTransit := usecTransit - t.totmeanTransit
    let totmeanTransit := t.totmeanTransit + totvdTransit / totcntTransit
    { sumTransit := t.sumTransit + transit
      cntTransit := cntTransit
      totsumTransit := t.totsumTransit + transit
      totcntTransit := totcntTransit
      minTransit := if transit < t.minTransit then transit else t.minTransit
      totminTransit := if transit < t.totminTransit then transit else t.totminTransit
      maxTransit := if transit > t.maxTransit then transit else t.maxTransit
      totmaxTransit := if transit > t.totmaxTransit then transit else t.totmaxTransit
      vdTransit := vdTransit
      meanTransit := meanTransit
      m2Transit := t.m2Transit + vdTransit * (usecTransit - meanTransit)
      totvdTransit := totvdTransit
      totmeanTransit := totmeanTransit
      totm2Transit := t.totm2Transit + totvdTransit * (usecTransit - totmeanTransit)
      lastTransit := transit }

/-- `reporter_handle_packet_oneway_transit`, with the transit time returned. -/
def reporterHandlePacketOnewayTransit (stats : TransferInfo) (packet : ReportStruct) : TransferInfo × Rat :=
  let transit := timeDifference packet.packetTime packet.sentTime
  let deltaTransit := transit - stats.transit.lastTransit
  let deltaTransit := if deltaTransit < 0 then -deltaTransit else deltaTransit
  ({ stats with
     latencyHistogram := stats.latencyHistogram.map fun h => histogramInsert h transit none
     jitter :=
       if stats.transit.totcntTransit = 0 then stats.jitter
       else stats.jitter + (deltaTransit - stats.jitter) / 16
     transit := stats.transit.update transit }, transit)

/-! ## Bursts and frames -/

/-- `reporter_handle_burst_tcp_server_transit` -/
def reporterHandleBurstTcpServerTransit (stats : TransferInfo) (packet : ReportStruct) : TransferInfo :=
  -- very first burst
  let stats :=
    if stats.isochstats.frameID = 0 then
      { stats with isochstats := { stats.isochstats with frameID := uint32 packet.frameID } }
    else stats
  if packet.frameID ≠ 0 ∧ packet.transitReady then
    let (stats, transit) := reporterHandlePacketOnewayTransit stats packet
    { stats with
      IPGsum :=
        if timeZero stats.ts.prevpacketTime then stats.IPGsum
        else stats.IPGsum + timeDifference packet.sentTime stats.ts.prevpacketTime
      ts := { stats.ts with prevpacketTime := packet.sentTime }
      framelatencyHistogram := stats.framelatencyHistogram.map fun h =>
        histogramInsert h transit (if stats.common.isTripTime then some packet.sentTime else none)
      isochstats := { stats.isochstats with frameID := uint32 (stats.isochstats.frameID + 1) }
      burstidTransition := true }
  else if stats.burstidTransition ∧ packet.frameID ≠ 0 ∧ packet.frameID ≠ stats.isochstats.frameID then
    { stats with
      burstidTransition := false
      isochstats := { stats.isochstats with frameID := uint32 packet.frameID } }
  else stats

/-- `reporter_handle_burst_tcp_client_transit` -/
def reporterHandleBurstTcpClientTransit (stats : TransferInfo) (packet : ReportStruct) : TransferInfo :=
  -- very first burst
  let stats :=
    if stats.isochstats.frameID = 0 then
      { stats with isochstats := { stats.isochstats with frameID := uint32 packet.frameID } }
    else stats
  if stats.burstidTransition ∧ packet.frameID ≠ 0 ∧ packet.transitReady then
    { stats with burstidTransition := false }
  else if !stats.burstidTransition then
    { stats with
      burstidTransition := true
      isochstats := { stats.isochstats with frameID := uint32 packet.frameID } }
  else stats

/-- A burst leaves the totals and the counts of the socket calls alone. -/
theorem burstTcpServer_keeps (stats : TransferInfo) (packet : ReportStruct) :
    let after := reporterHandleBurstTcpServerTransit stats packet
    after.common = stats.common ∧ after.total = stats.total ∧ after.sockCallstats = stats.sockCallstats := by
  unfold reporterHandleBurstTcpServerTransit reporterHandlePacketOnewayTransit
  simp only
  refine ⟨?_, ?_, ?_⟩
  all_goals split_ifs <;> rfl

theorem burstTcpClient_keeps (stats : TransferInfo) (packet : ReportStruct) :
    let after := reporterHandleBurstTcpClientTransit stats packet
    after.common = stats.common ∧ after.PacketID = stats.PacketID ∧ after.total = stats.total ∧
      after.sockCallstats = stats.sockCallstats := by
  unfold reporterHandleBurstTcpClientTransit
  simp only
  refine ⟨?_, ?_, ?_, ?_⟩
  all_goals split_ifs <;> rfl

/-- The frame counts of `reporter_handle_packet_isochronous`. -/
def isochFrames (threadMode : ThreadMode) (i : IsochStats) (packet : ReportStruct) : IsochStats :=
  -- very first isochronous frame
  let framecnt := if i.frameID = 0 then { i.framecnt with current := packet.frameID } else i.framecnt
  let framedelta := int32 (packet.frameID - i.frameID)
  let lost := int32 (framedelta - (packet.frameID - packet.prevframeID))
  { i with
    framecnt := if framedelta ≠ 0 then framecnt.add 1 else framecnt
    framelostcnt :=
      if framedelta > 1 then
        match threadMode with
        | .server => i.framelostcnt.add lost
        | .client => i.framelostcnt.add (framedelta - 1)
      else i.framelostcnt
    slipcnt := if framedelta > 1 ∧ threadMode ≠ .server then i.slipcnt.add 1 else i.slipcnt
    frameID := uint32 packet.frameID }

/-- The frame latency check of `reporter_handle_packet_isochronous`: the histogram and the `matchframeID` after it. -/
def isochFrameLatency (h : Histogram) (matchframeID : Int) (packet : ReportStruct) : Histogram × Int :=
  -- first packet of a burst and not a duplicate
  let matchframeID :=
    if packet.burstsize = packet.remaining ∧ matchframeID ≠ packet.frameID then uint32 packet.frameID
    else matchframeID
  -- last packet of a burst (or first-last in case of a duplicate) and frame id match
  if packet.packetLen = packet.remaining ∧ packet.frameID = matchframeID then
    let frametransit := timeDifference packet.packetTime packet.isochStartTime -
      (packet.burstperiod * (packet.frameID - 1) : Int) / 1000000
    (histogramInsert h frametransit none, 0)
  else (h, matchframeID)

/-- `reporter_handle_packet_isochronous` -/
def reporterHandlePacketIsochronous (stats : TransferInfo) (packet : ReportStruct) : TransferInfo :=
  let ready := packet.frameID ≠ 0 ∧ packet.transitReady
  let latency := stats.framelatencyHistogram.map fun h => isochFrameLatency h stats.matchframeID packet
  { stats with
    isochstats :=
      if ready then isochFrames stats.common.threadMode stats.isochstats packet else stats.isochstats
    framelatencyHistogram := if ready then latency.map (·.1) else stats.framelatencyHistogram
    matchframeID := if ready then (latency.map (·.2)).getD stats.matchframeID else stats.matchframeID }

/-! ## Server side -/

/-- `reporter_handle_packet_server_tcp` -/
def reporterHandlePacketServerTcp (stats : TransferInfo) (packet : ReportStruct) : TransferInfo :=
  if packet.packetLen > 0 then
    let bin := (packet.packetLen - 1) / stats.sockCallstats.binsize
    let count (bins : Fin 8 → Int) : Fin 8 → Int := fun ix => if bin = (ix : Nat) then bins ix + 1 else bins ix
    let stats := { stats with
      total := { stats.total with Bytes := stats.total.Bytes.add packet.packetLen }
      sockCallstats := { stats.sockCallstats with
        cntRead := stats.sockCallstats.cntRead + 1
        totcntRead := stats.sockCallstats.totcntRead + 1
        bins := count stats.sockCallstats.bins
        totbins := count stats.sockCallstats.totbins } }
    if stats.common.isPeriodicBurst || stats.common.isTripTime then
      reporterHandleBurstTcpServerTransit stats packet
    else stats
  else stats

/-- A read moves the byte count and both read counts, and both counts of its bin. -/
theorem handlePacketServerTcp_spec (stats : TransferInfo) (packet : ReportStruct) :
    let after := reporterHandlePacketServerTcp stats packet
    let reads := if packet.packetLen > 0 then 1 else 0
    ∃ bytes : Int, ∃ bins : Fin 8 → Int,
      after.common = stats.common ∧
      after.total = { stats.total with Bytes := stats.total.Bytes.add bytes } ∧
      after.sockCallstats = { stats.sockCallstats with
        cntRead := stats.sockCallstats.cntRead + reads
        totcntRead := stats.sockCallstats.totcntRead + reads
        bins := stats.sockCallstats.bins + bins
        totbins := stats.sockCallstats.totbins + bins } := by
  unfold reporterHandlePacketServerTcp
  by_cases hlen : packet.packetLen > 0
  · let bin := (packet.packetLen - 1) / stats.sockCallstats.binsize
    have hbins : ∀ bins : Fin 8 → Int, (fun ix : Fin 8 => if bin = (ix : Nat) then bins ix + 1 else bins ix) =
        bins + fun ix : Fin 8 => if bin = (ix : Nat) then 1 else 0 := by
      intro bins
      funext ix
      by_cases hix : bin = (ix : Nat) <;> simp [hix]
    refine ⟨packet.packetLen, fun ix => if bin = (ix : Nat) then 1 else 0, ?_⟩
    rw [if_pos hlen]
    simp only [if_pos hlen, ← hbins]
    split
    · exact burstTcpServer_keeps _ packet
    · exact ⟨rfl, rfl, rfl⟩
  · simp only [if_neg hlen]
    exact ⟨0, 0, trivial, by simp only [ShiftCounter.add, add_zero], by simp only [add_zero]⟩

/-- The interval statistics without samples. -/
def TransitStats.clearInterval (t : TransitStats) : TransitStats :=
  { t with
    minTransit := fltMax
    maxTransit := fltMin
    sumTransit := 0
    vdTransit := 0
    meanTransit := 0
    m2Transit := 0 }

def L2DROPFILTERCOUNTER : Int := 100

/-- The L2 accounting of a packet with errors. -/
def L2Stats.account (l : L2Stats) (e : L2Errors) : L2Stats where
  cnt := l.cnt + 1
  totCnt := l.totCnt + 1
  unknown := if e.unknown then l.unknown + 1 else l.unknown
  totUnknown := if e.unknown then l.totUnknown + 1 else l.totUnknown
  lengtherr := if e.lenErr then l.lengtherr + 1 else l.lengtherr
  totLengtherr := if e.lenErr then l.totLengtherr + 1 else l.totLengtherr
  udpcsumerr := if e.csumErr then l.udpcsumerr + 1 else l.udpcsumerr
  totUdpcsumerr := if e.csumErr then l.totUdpcsumerr + 1 else l.totUdpcsumerr

/-- The accounting of a valid packet in `reporter_handle_packet_server_udp`, before the rates and transit times. -/
def serverUdpAccount (stats : TransferInfo) (packet : ReportStruct) : TransferInfo :=
  { stats with
    l2counts :=
      if packet.l2errors.any ∧ stats.total.Datagrams.current > L2DROPFILTERCOUNTER then
        stats.l2counts.account packet.l2errors
      else stats.l2counts
    total := { stats.total with
      Bytes := stats.total.Bytes.add packet.packetLen
      -- packet loss occurred if the datagram numbers aren't sequential
      OutofOrder :=
        if packet.packetID ≠ stats.PacketID + 1 ∧ packet.packetID < stats.PacketID + 1 then
          stats.total.OutofOrder.add 1
        else stats.total.OutofOrder
      Lost :=
        if packet.packetID ≠ stats.PacketID + 1 ∧ ¬ packet.packetID < stats.PacketID + 1 then
          stats.total.Lost.add (packet.packetID - stats.PacketID - 1)
        else stats.total.Lost }
    -- never decrease datagramID (e.g. if we get an out-of-order packet)
    PacketID := if packet.packetID > stats.PacketID then packet.packetID else stats.PacketID }

/-- `reporter_handle_packet_server_udp` -/
def reporterHandlePacketServerUdp (stats : TransferInfo) (packet : ReportStruct) : TransferInfo :=
  let stats := { stats with ts := { stats.ts with packetTime := packet.packetTime } }
  if packet.emptyreport ∧ stats.transit.cntTransit = 0 then
    { stats with transit := stats.transit.clearInterval }
  else if packet.packetID > 0 then
    let stats := serverUdpAccount stats packet
    let stats := reporterHandlePacketPps stats packet
    let stats := (reporterHandlePacketOnewayTransit stats packet).1
    reporterHandlePacketIsochronous stats packet
  else stats

/-! ## Client side -/

/-- The write statistics with a sample of the TCP connection. -/
def WriteStats.sample (write : WriteStats) (packet : ReportStruct) : WriteStats :=
  { write with
    TCPretry := write.TCPretry + (packet.retryTot - write.totTCPretry)
    totTCPretry := packet.retryTot
    cwnd := packet.cwnd
    rtt := packet.rtt }

/-- `reporter_handle_packet_tcpistats` -/
def reporterHandlePacketTcpistats (stats : TransferInfo) (packet : ReportStruct) : TransferInfo :=
  { stats with sockCallstats := stats.sockCallstats.setWrite (stats.sockCallstats.write.sample packet) }

/-- `packet->errwrite && (packet->errwrite != WriteErrNoAccount)` -/
def WriteErrType.accounts : WriteErrType → Bool
  | .noErr => false
  | .errAccount => true
  | .errFatal => true
  | .errNoAccount => false

/-- The write counts after a record that is not empty. -/
def WriteStats.account (write : WriteStats) (errwrite : WriteErrType) : WriteStats :=
  { write with
    WriteErr := if errwrite.accounts then write.WriteErr + 1 else write.WriteErr
    totWriteErr := if errwrite.accounts then write.totWriteErr + 1 else write.totWriteErr
    WriteCnt := write.WriteCnt + 1
    totWriteCnt := write.totWriteCnt + 1 }

/-- The accounting of a record that is not empty in `reporter_handle_packet_client`. -/
def clientAccount (stats : TransferInfo) (packet : ReportStruct) : TransferInfo :=
  let stats := { stats with
    total := { stats.total with Bytes := stats.total.Bytes.add packet.packetLen }
    sockCallstats := stats.sockCallstats.setWrite (stats.sockCallstats.write.account packet.errwrite) }
  if stats.common.isIsochronous then reporterHandlePacketIsochronous stats packet
  else if stats.common.isPeriodicBurst then reporterHandleBurstTcpClientTransit stats packet
  else stats

theorem clientAccount_keeps (stats : TransferInfo) (packet : ReportStruct) :
    let after := clientAccount stats packet
    after.common = stats.common ∧ after.PacketID = stats.PacketID ∧
      after.total = { stats.total with Bytes := stats.total.Bytes.add packet.packetLen } ∧
      after.sockCallstats =
        stats.sockCallstats.setWrite (stats.sockCallstats.write.account packet.errwrite) := by
  unfold clientAccount
  simp only
  split_ifs
  · exact ⟨rfl, rfl, rfl, rfl⟩
  · exact burstTcpClient_keeps _ packet
  · exact ⟨rfl, rfl, rfl, rfl⟩

/-- `reporter_handle_packet_client` -/
def reporterHandlePacketClient (stats : TransferInfo) (packet : ReportStruct) : TransferInfo :=
  let stats := { stats with ts := { stats.ts with packetTime := packet.packetTime } }
  let stats := if packet.emptyreport then stats else clientAccount stats packet
  if stats.common.isUDP then reporterHandlePacketPps { stats with PacketID := packet.packetID } packet
  else stats

/-- The packet handler that a function pointer names. -/
def PacketHandler.handle : PacketHandler → TransferInfo → ReportStruct → TransferInfo
  | .serverUdp => reporterHandlePacketServerUdp
  | .serverTcp => reporterHandlePacketServerTcp
  | .client => reporterHandlePacketClient

/-- The totals after a record of a client that is not empty: UDP counts datagrams too. -/
def ShiftCounters.sent (t : ShiftCounters) (isUDP : Bool) (packetLen : Int) : ShiftCounters :=
  { t with
    Bytes := t.Bytes.add packetLen
    Datagrams := if isUDP then t.Datagrams.add 1 else t.Datagrams
    IPG := if isUDP then t.IPG.add 1 else t.IPG }

/-- A record that is not empty counts its bytes, a write and, for UDP, a datagram; an empty one nothing. The id of
any record becomes the id of the flow. -/
theorem handlePacketClient_spec (stats : TransferInfo) (packet : ReportStruct) :
    let after := reporterHandlePacketClient stats packet
    after.common = stats.common ∧
      after.PacketID = (if stats.common.isUDP then packet.packetID else stats.PacketID) ∧
      after.total = (if packet.emptyreport then stats.total
        else stats.total.sent stats.common.isUDP packet.packetLen) ∧
      after.sockCallstats = (if packet.emptyreport then stats.sockCallstats
        else stats.sockCallstats.setWrite (stats.sockCallstats.write.account packet.errwrite)) := by
  obtain ⟨hcommon, hid, htotal, hsock⟩ :=
    clientAccount_keeps { stats with ts := { stats.ts with packetTime := packet.packetTime } } packet
  simp only [reporterHandlePacketClient, reporterHandlePacketPps, ShiftCounters.sent]
  by_cases hempty : packet.emptyreport
  · simp only [hempty, if_true]
    split <;> exact ⟨rfl, rfl, rfl, rfl⟩
  · simp only [hempty, Bool.false_eq_true, if_false, hcommon]
    split
    · exact ⟨rfl, rfl, by rw [htotal], hsock⟩
    · exact ⟨hcommon, hid, htotal, hsock⟩

/-- The packet handlers leave the flags alone, and what the counters were at the start of the interval. -/
theorem PacketHandler.handle_keeps (handler : PacketHandler) (stats : TransferInfo) (packet : ReportStruct) :
    let after := handler.handle stats packet
    after.common = stats.common ∧ stats.total.SamePrev after.total := by
  cases handler with
  | serverUdp =>
    simp only [PacketHandler.handle, reporterHandlePacketServerUdp]
    split_ifs
    · exact ⟨rfl, rfl, rfl, rfl, rfl, rfl⟩
    · refine ⟨rfl, ?_, ?_, ?_, ?_, ?_⟩
      all_goals
        simp only [reporterHandlePacketIsochronous, reporterHandlePacketOnewayTransit, reporterHandlePacketPps,
          serverUdpAccount]
        split_ifs <;> rfl
    · exact ⟨rfl, rfl, rfl, rfl, rfl, rfl⟩
  | serverTcp =>
    obtain ⟨bytes, bins, hcommon, htotal, -⟩ := handlePacketServerTcp_spec stats packet
    refine ⟨hcommon, ?_⟩
    simp only [PacketHandler.handle, htotal]
    exact ⟨rfl, rfl, rfl, rfl, rfl⟩
  | client =>
    obtain ⟨hcommon, -, htotal, -⟩ := handlePacketClient_spec stats packet
    refine ⟨hcommon, ?_⟩
    simp only [PacketHandler.handle, htotal]
    constructor <;> simp only [ShiftCounters.sent] <;> split_ifs <;> rfl

end Iperf2.Report
