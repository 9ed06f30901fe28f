import Iperf2.Report.Bursts
import Iperf2.Report.TransitTimes

/-!
# The transit samples of TCP bursts

With periodic bursts the flow of a TCP server has `reporter_handle_packet_server_tcp` in front of
`reporter_condprint_burst_interval_report_server_tcp`, and both take the transit time of a record that completes a
burst. Only the first one looks at the length and the frame id.

* `Sampled` : the statistics and the frame latency histogram hold given samples;
* `BurstFlow.process` : a record adds the samples of its two handlers;
* `bursts_sampled_once` : the bursts are sampled once just if none has a frame id and a length.
-/

namespace Iperf2.Report

/-! ## Samples -/

/-- The samples taken so far are these. -/
structure Sampled (stats : TransferInfo) (samples : List Rat) : Prop where
  count : stats.transit.totcntTransit = samples.length
  sum : stats.transit.totsumTransit = samples.sum
  latency : ∀ h ∈ stats.framelatencyHistogram, h.populationcnt = samples.length

/-- Every entry adds to the population. -/
theorem histogramInsert_population (h : Histogram) (value : Rat) (ts : Option Timeval) :
    (histogramInsert h value ts).populationcnt = h.populationcnt + 1 := by
  have hmax : ∀ (h : Histogram) (bin : Int), (histogramMax h value bin ts).populationcnt = h.populationcnt := by
    intro h bin
    unfold histogramMax
    cases ts with
    | none => rfl
    | some ts =>
      simp only
      split_ifs <;> rfl
  simp only [histogramInsert]
  split_ifs <;> exact hmax _ _

section
variable {stats stats' : TransferInfo} {samples : List Rat} {packet : ReportStruct}

/-- One more sample, also in the frame latency histogram. -/
theorem Sampled.sample (h : Sampled stats samples) (x : Rat) (ts : Option Timeval)
    (htransit : stats'.transit.total = (stats.transit.update x).total)
    (hlatency : stats'.framelatencyHistogram = stats.framelatencyHistogram.map fun h => histogramInsert h x ts) :
    Sampled stats' (samples ++ [x]) := by
  have hlength : (samples ++ [x]).length = samples.length + 1 := List.length_append
  have hsum : (samples ++ [x]).sum = samples.sum + x := by rw [List.sum_append, List.sum_singleton]
  have htotal : (stats.transit.update x).total.cnt = samples.length + 1 ∧
      (stats.transit.update x).total.sum = samples.sum + x := by
    by_cases hfirst : stats.transit.totcntTransit = 0
    · have hnil : samples = [] := List.length_eq_zero_iff.mp (by have := h.count; omega)
      rw [(update_first hfirst x).1, hnil]
      exact ⟨rfl, (zero_add x).symm⟩
    · rw [update_total hfirst, ← h.count, ← h.sum]
      exact ⟨rfl, rfl⟩
  refine ⟨?_, ?_, ?_⟩
  · rw [hlength, Nat.cast_succ, ← htotal.1, ← htransit]
    rfl
  · rw [hsum, ← htotal.2, ← htransit]
    rfl
  · intro latency hmem
    rw [hlatency] at hmem
    obtain ⟨before, hbefore, rfl⟩ := Option.mem_map.mp hmem
    rw [histogramInsert_population, h.latency before hbefore, hlength]

/-- What leaves the statistics alone. -/
theorem Sampled.keep (h : Sampled stats samples) (htransit : stats'.transit = stats.transit)
    (hlatency : stats'.framelatencyHistogram = stats.framelatencyHistogram) : Sampled stats' samples where
  count := htransit ▸ h.count
  sum := htransit ▸ h.sum
  latency := hlatency ▸ h.latency

/-! ## One record -/

/-- A burst that the packet handler samples. -/
def Framed (packet : ReportStruct) : Prop := packet.packetLen > 0 ∧ packet.frameID ≠ 0 ∧ packet.transitReady = true

instance (packet : ReportStruct) : Decidable (Framed packet) := inferInstanceAs (Decidable (_ ∧ _))

/-- The samples of a record: its packet handler takes one of a framed burst, its interval handler one of every burst. -/
def samplesOf (packet : ReportStruct) : List Rat :=
  (if Framed packet then [packet.transit] else []) ++ if packet.transitReady then [packet.transit] else []

theorem Sampled.burstTcpServer (h : Sampled stats samples) :
    Sampled (reporterHandleBurstTcpServerTransit stats packet)
      (samples ++ if packet.frameID ≠ 0 ∧ packet.transitReady then [packet.transit] else []) := by
  unfold reporterHandleBurstTcpServerTransit
  have hfirst : Sampled
      (if stats.isochstats.frameID = 0 then
        { stats with isochstats := { stats.isochstats with frameID := uint32 packet.frameID } }
      else stats) samples := by
    split
    · exact h.keep rfl rfl
    · exact h
  generalize (if stats.isochstats.frameID = 0 then _ else stats) = first at hfirst ⊢
  by_cases hready : packet.frameID ≠ 0 ∧ packet.transitReady
  · rw [if_pos hready]
    simp only [if_pos hready]
    exact hfirst.sample packet.transit _ rfl rfl
  · simp only [if_neg hready, List.append_nil]
    split
    · exact hfirst.keep rfl rfl
    · exact hfirst

/-- The packet handler. -/
theorem Sampled.packetHandler (h : Sampled stats samples) (hburst : stats.common.isPeriodicBurst = true) :
    Sampled (reporterHandlePacketServerTcp stats packet)
      (samples ++ if Framed packet then [packet.transit] else []) := by
  unfold reporterHandlePacketServerTcp
  by_cases hlen : packet.packetLen > 0
  · have hframed : Framed packet ↔ packet.frameID ≠ 0 ∧ packet.transitReady = true := and_iff_right hlen
    simp only [hframed, hlen, hburst, Bool.true_or, if_true]
    apply Sampled.burstTcpServer
    exact h.keep rfl rfl
  · rw [if_neg hlen, if_neg (fun hframed : Framed packet => hlen hframed.1), List.append_nil]
    exact h

/-- The interval handler. -/
theorem Sampled.burstInterval {data : ReporterData} (h : Sampled data.info samples) :
    Sampled (reporterCondprintBurstIntervalReportServerTcp data packet).1.info
      (samples ++ if packet.transitReady then [packet.transit] else []) := by
  unfold reporterCondprintBurstIntervalReportServerTcp
  by_cases hready : packet.transitReady
  · rw [if_pos hready, if_pos hready]
    exact h.sample packet.transit (some packet.sentTime) rfl rfl
  · rw [if_neg hready, if_neg hready, List.append_nil]
    exact h

end

/-! ## The flow -/

/-- The handlers of a TCP server with periodic bursts. -/
structure BurstFlow (data : ReporterData) : Prop where
  preReport : data.packetHandlerPreReport = some .serverTcp
  postReport : data.packetHandlerPostReport = none
  interval : data.transferIntervalHandler = some .burstIntervalServerTcp
  bursts : data.info.common.isPeriodicBurst = true

/-- The flow after records. -/
def processRecords (data : ReporterData) (packets : List ReportStruct) : ReporterData :=
  packets.foldl (fun data packet => (reporterProcessTransferReport data packet).1) data

section
variable {data : ReporterData} {samples : List Rat} {packet : ReportStruct} {packets : List ReportStruct}
  {inSettings : Settings} {groupSumReport fullDuplexReport : Option SumReport}

theorem burstFlow_init (hserver : inSettings.threadMode = .server) (htcp : inSettings.isUDP = false)
    (hburst : inSettings.isPeriodicBurst = true) :
    BurstFlow (initIndividualReport inSettings groupSumReport fullDuplexReport) := by
  have hbefore : accountsBefore inSettings = true := by
    simp only [accountsBefore, hserver, htcp, hburst]
    rfl
  have hprotocol : initTransferProtocolHandler inSettings = .serverTcp := by
    simp only [initTransferProtocolHandler, hserver, htcp]
  have hinterval : initTransferIntervalHandler inSettings = some .burstIntervalServerTcp := by
    simp only [initTransferIntervalHandler, hserver, htcp, hburst, if_true]
  refine ⟨?_, ?_, hinterval, hburst⟩
  · simp only [initIndividualReport, hbefore, hprotocol, if_true]
    rfl
  · simp only [initIndividualReport, hbefore, if_true]

theorem sampled_init :
    Sampled (initIndividualReport inSettings groupSumReport fullDuplexReport).info [] where
  count := rfl
  sum := rfl
  latency := by
    intro h hmem
    simp only [initIndividualReport] at hmem
    split at hmem
    · cases hmem
      rfl
    · cases hmem

/-- A record of the traffic. -/
theorem BurstFlow.process (h : BurstFlow data) (hs : Sampled data.info samples) (htraffic : 0 ≤ packet.packetID) :
    BurstFlow (reporterProcessTransferReport data packet).1 ∧
      Sampled (reporterProcessTransferReport data packet).1.info (samples ++ samplesOf packet) := by
  let stats := handleTcpistats data.info packet
  have hstats : stats.common = data.info.common ∧ Sampled stats samples := by
    simp only [stats, handleTcpistats]
    split
    · exact ⟨rfl, hs.keep rfl rfl⟩
    · exact ⟨rfl, hs⟩
  have hburst : stats.common.isPeriodicBurst = true := hstats.1 ▸ h.bursts
  let mid : ReporterData := { data with info := reporterHandlePacketServerTcp stats packet }
  have hmid : Sampled mid.info _ := hstats.2.packetHandler hburst
  obtain ⟨stats', heq, hreport⟩ := burstInterval_spec mid packet
  have hcommon : stats'.common.isPeriodicBurst = true := by
    have hkeep : stats'.common = mid.info.common := by
      split at hreport
      · exact hreport.common
      · exact hreport.common
    obtain ⟨-, -, hread, -⟩ := handlePacketServerTcp_spec stats packet
    rw [hkeep, hread]
    exact hburst
  have hafter : Sampled (reporterCondprintBurstIntervalReportServerTcp mid packet).1.info _ := hmid.burstInterval
  rw [heq] at hafter
  let reported : ReporterData := { data with info := stats' }
  have hpre : handlePacket data.packetHandlerPreReport packet { data with info := stats } = mid :=
    congrArg (fun handler => handlePacket handler packet { data with info := stats }) h.preReport
  have hpost : handlePacket reported.packetHandlerPostReport packet reported = reported :=
    congrArg (fun handler => handlePacket handler packet reported) h.postReport
  have hmoved : (reporterProcessTransferReport data packet).1 = recordPacket packet reported := by
    calc
      (reporterProcessTransferReport data packet).1
        = (processPacket { data with info := stats } packet).1 := by
          unfold reporterProcessTransferReport
          simp only
          rw [if_neg (by omega)]
      _ = recordPacket packet (reporterCondprintBurstIntervalReportServerTcp mid packet).1 := by
          rw [@processPacket_fst { data with info := stats } packet _ h.interval, hpre]
          rfl
      _ = recordPacket packet reported := congrArg (recordPacket packet) heq
  rw [hmoved, recordPacket]
  simp only [hpost]
  refine ⟨⟨h.preReport, h.postReport, h.interval, hcommon⟩, ?_⟩
  rw [samplesOf, ← List.append_assoc]
  exact hafter

/-- The traffic of a flow. -/
theorem BurstFlow.run (h : BurstFlow data) (hs : Sampled data.info samples)
    (htraffic : ∀ packet ∈ packets, 0 ≤ packet.packetID) :
    Sampled (processRecords data packets).info (samples ++ packets.flatMap samplesOf) := by
  induction packets generalizing data samples with
  | nil =>
    rw [List.flatMap_nil, List.append_nil]
    exact hs
  | cons packet packets ih =>
    obtain ⟨hflow, hstep⟩ := h.process hs (htraffic packet (List.mem_cons_self ..))
    rw [List.flatMap_cons, ← List.append_assoc]
    exact ih hflow hstep fun p hp => htraffic p (List.mem_cons_of_mem _ hp)

end

/-! ## Bursts -/

/-- The records that complete a burst. -/
def bursts (packets : List ReportStruct) : List ReportStruct := packets.filter (·.transitReady)

/-- There is one sample for every burst, and one more for those that are framed. -/
theorem length_samples (packets : List ReportStruct) :
    (packets.flatMap samplesOf).length = (bursts packets).length + packets.countP fun p => Framed p := by
  induction packets with
  | nil => rfl
  | cons packet packets ih =>
    have hone : (samplesOf packet).length =
        (if packet.transitReady then 1 else 0) + if Framed packet then 1 else 0 := by
      unfold samplesOf
      by_cases hframed : Framed packet <;> by_cases hready : packet.transitReady <;> simp [hframed, hready]
    rw [List.flatMap_cons, List.length_append, ih, hone, List.countP_cons, bursts, bursts, List.filter_cons]
    simp only [decide_eq_true_eq]
    by_cases hready : packet.transitReady
    · rw [if_pos hready, if_pos hready, List.length_cons]
      omega
    · rw [if_neg hready, if_neg hready]
      omega

theorem samples_of_not_framed {packets : List ReportStruct} (h : ∀ packet ∈ packets, ¬ Framed packet) :
    packets.flatMap samplesOf = (bursts packets).map ReportStruct.transit := by
  induction packets with
  | nil => rfl
  | cons packet packets ih =>
    have hrest := ih fun p hp => h p (List.mem_cons_of_mem _ hp)
    rw [List.flatMap_cons, hrest, samplesOf, if_neg (h packet (List.mem_cons_self ..)), List.nil_append, bursts, bursts,
      List.filter_cons]
    by_cases hready : packet.transitReady
    · rw [if_pos hready, if_pos hready]
      rfl
    · rw [if_neg hready, if_neg hready]
      rfl

section
variable {inSettings : Settings} {packets : List ReportStruct}

/-- The bursts of a TCP server are sampled once each just if none of them has both a length and a frame id. -/
theorem bursts_sampled_once (hserver : inSettings.threadMode = .server) (htcp : inSettings.isUDP = false)
    (hburst : inSettings.isPeriodicBurst = true) (groupSumReport fullDuplexReport : Option SumReport)
    (htraffic : ∀ packet ∈ packets, 0 ≤ packet.packetID) :
    Sampled (processRecords (initIndividualReport inSettings groupSumReport fullDuplexReport) packets).info
        ((bursts packets).map ReportStruct.transit) ↔
      ∀ packet ∈ bursts packets, packet.packetLen ≤ 0 ∨ packet.frameID = 0 := by
  have hrun : Sampled (processRecords (initIndividualReport inSettings groupSumReport fullDuplexReport) packets).info
      (packets.flatMap samplesOf) := (burstFlow_init hserver htcp hburst).run sampled_init htraffic
  have hframed : (∀ packet ∈ bursts packets, packet.packetLen ≤ 0 ∨ packet.frameID = 0) ↔
      ∀ packet ∈ packets, ¬ Framed packet := by
    constructor
    · intro hall packet hmem hframed
      rcases hall packet (List.mem_filter.mpr ⟨hmem, hframed.2.2⟩) with hlen | hid
      · exact absurd hframed.1 (by omega)
      · exact hframed.2.1 hid
    · intro hnone packet hmem
      obtain ⟨hin, hready⟩ := List.mem_filter.mp hmem
      by_contra hboth
      exact hnone packet hin ⟨by omega, by omega, hready⟩
  rw [hframed]
  constructor
  · intro honce
    have hcount := hrun.count.symm.trans honce.count
    rw [List.length_map, length_samples] at hcount
    have hnone : packets.countP (fun p => Framed p) = 0 := by omega
    intro packet hmem
    simpa using List.countP_eq_zero.mp hnone packet hmem
  · intro hnone
    rw [← samples_of_not_framed hnone]
    exact hrun

end

/-- A TCP server with periodic bursts. -/
def burstReceiver : Settings :=
  { (default : Settings) with threadMode := .server, isUDP := false, isPeriodicBurst := true }

/-- The read that completes the first burst. -/
def firstBurst : ReportStruct :=
  { (default : ReportStruct) with packetID := 1, packetLen := 1000, frameID := 1, transitReady := true }

theorem bursts_sampled_once_first :
    Sampled (processRecords (initIndividualReport burstReceiver none none) [firstBurst]).info
        ((bursts [firstBurst]).map ReportStruct.transit) ↔
      ∀ packet ∈ bursts [firstBurst], packet.packetLen ≤ 0 ∨ packet.frameID = 0 :=
  bursts_sampled_once rfl rfl rfl none none (by decide)

/-- It is sampled twice. -/
theorem firstBurst_twice : ¬ ∀ (inSettings : Settings) (packets : List ReportStruct),
    inSettings.threadMode = .server → inSettings.isUDP = false → inSettings.isPeriodicBurst = true →
    (∀ packet ∈ packets, 0 ≤ packet.packetID) →
    Sampled (processRecords (initIndividualReport inSettings none none) packets).info
      ((bursts packets).map ReportStruct.transit) := by
  intro hall
  have honce := hall burstReceiver [firstBurst] rfl rfl rfl (by decide)
  exact absurd honce.count (by decide +kernel)

end Iperf2.Report
