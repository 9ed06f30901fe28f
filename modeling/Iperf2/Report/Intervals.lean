import Iperf2.Report.Loss
import Iperf2.Lib.Meter
import Mathlib.Algebra.Order.Group.Int

/-!
# Interval reports add up to the final report

An interval report shows what a flow accounted since the one before. Each count of a report has its own pair of a
running total and a start of the interval: `current` and `prev`, `PacketID` and `Datagrams.prev`, or two counts of
which one restarts with every interval. All of them are meters (`Iperf2.Lib.Meter`).

* `interval_telescoping` : the interval reports and what came after the last one sum up to the final report.
-/

namespace Iperf2.Report
open Meter

/-! ## Meters of a flow -/

/-- What an event reports. -/
def intervalRead (handler : TransferProtocolHandler) (stats : TransferInfo) : FlowEvent → Option TransferInfo
  | .interval => some (intervalValues handler stats)
  | _ => none

/-- The interval reports of a run, in order. -/
def intervalReports (handler : TransferProtocolHandler) (stats : TransferInfo) (events : List FlowEvent) :
    List TransferInfo :=
  readings (flowStep handler) (intervalRead handler) stats events

section
variable {A : Type*} [AddCommGroup A] {handler : TransferProtocolHandler} {value total since : TransferInfo → A}
  {I : TransferInfo → Prop}

/-- A meter of a flow: packets and samples move the total and what accumulated alike, an interval report restarts. -/
theorem flowMeter
    (hpacket : ∀ stats packet, I stats →
      let after := handler.packetHandler.handle stats packet
      I after ∧ total after - since after = total stats - since stats)
    (hsample : ∀ stats packet, I stats →
      let after := handleTcpistats stats packet
      I after ∧ total after - since after = total stats - since stats)
    (hclock : ∀ stats ts, I stats → I { stats with ts } ∧ total { stats with ts } = total stats ∧
      since { stats with ts } = since stats)
    (hinterval : ∀ stats, I stats →
      let after := flowStep handler stats .interval
      I after ∧ value (intervalValues handler stats) = since stats ∧ total after = total stats ∧ since after = 0) :
    Telescopes (flowStep handler) (intervalRead handler) value total since I where
  inv stats e hI := by
    cases e with
    | packet packet => exact (hpacket stats packet hI).1
    | tcpistats packet => exact (hsample stats packet hI).1
    | interval => exact (hinterval stats hI).1
    | clock ts => exact (hclock stats ts hI).1
  item stats e hI hread := by
    cases e with
    | packet packet => exact (hpacket stats packet hI).2
    | tcpistats packet => exact (hsample stats packet hI).2
    | interval => cases hread
    | clock ts =>
      obtain ⟨-, htotal, hsince⟩ := hclock stats ts hI
      simp only [flowStep, htotal, hsince]
  report stats e r hI hread := by
    cases e with
    | interval =>
      obtain rfl := Option.some.inj hread
      exact (hinterval stats hI).2
    | packet packet => cases hread
    | tcpistats packet => cases hread
    | clock ts => cases hread

/-- The last packet of a flow, as events. -/
def lastEvents (stats : TransferInfo) (packet : ReportStruct) (handler : TransferProtocolHandler) : List FlowEvent :=
  [.packet packet, .clock (lastStats handler stats packet).ts]

theorem lastStats_eq (stats : TransferInfo) (events : List FlowEvent) (last : ReportStruct) :
    lastStats handler (flowRun handler stats events) last =
      flowRun handler stats (events ++ lastEvents (flowRun handler stats events) last handler) := by
  simp only [flowRun, List.foldl_append]
  rfl

theorem intervalReports_last (stats : TransferInfo) (events : List FlowEvent) (last : ReportStruct) :
    intervalReports handler stats (events ++ lastEvents (flowRun handler stats events) last handler) =
      intervalReports handler stats events := by
  simp [intervalReports, lastEvents, readings_append, readings, intervalRead]

/-- The readings of a run, and the reading that an interval report on the last packet would give, are the total. -/
theorem flow_sum (h : Telescopes (flowStep handler) (intervalRead handler) value total since I)
    {stats : TransferInfo} (hI : I stats) (hzero : total stats = since stats) (events : List FlowEvent)
    (last : ReportStruct) :
    let stats' := lastStats handler (flowRun handler stats events) last
    ((intervalReports handler stats events).map value).sum + value (intervalValues handler stats') =
      total stats' := by
  intro stats'
  have hsum := h.sum (events ++ lastEvents (flowRun handler stats events) last handler) hI
  have hlast := h.holds (events ++ lastEvents (flowRun handler stats events) last handler) hI
  rw [← flowRun, ← lastStats_eq] at hsum hlast
  rw [← intervalReports, intervalReports_last, hzero, sub_self, sub_zero] at hsum
  rw [(h.report stats' .interval _ hlast rfl).1]
  exact hsum

end

/-! ## The counts -/

theorem handleTcpistats_total (stats : TransferInfo) (packet : ReportStruct) :
    (handleTcpistats stats packet).total = stats.total := by
  unfold handleTcpistats
  split <;> rfl

/-- The counts that are differences to the start of the interval. -/
theorem startMeter {handler : TransferProtocolHandler} {value total since : TransferInfo → Int}
    (start : ShiftCounters → Int) (hstart : ∀ stats, total stats - since stats = start stats.total)
    (hsame : ∀ t t' : ShiftCounters, t.SamePrev t' → start t' = start t)
    (hclock : ∀ stats ts, total { stats with ts } = total stats)
    (hinterval : ∀ stats,
      let after := flowStep handler stats .interval
      value (intervalValues handler stats) = since stats ∧ total after = total stats ∧ since after = 0) :
    Telescopes (flowStep handler) (intervalRead handler) value total since fun _ => True := by
  have hsince : ∀ stats, since stats = total stats - start stats.total := fun stats => by
    rw [← hstart stats, sub_sub_cancel]
  refine flowMeter (fun stats packet _ => ⟨trivial, ?_⟩) (fun stats packet _ => ⟨trivial, ?_⟩)
    (fun stats ts _ => ⟨trivial, hclock stats ts, ?_⟩) (fun stats _ => ⟨trivial, hinterval stats⟩)
  · rw [hstart, hstart]
    exact hsame _ _ (handler.packetHandler.handle_keeps stats packet).2
  · rw [hstart, hstart, handleTcpistats_total stats packet]
  · rw [hsince, hsince, hclock]

theorem bytesMeter (handler : TransferProtocolHandler) :
    Telescopes (flowStep handler) (intervalRead handler) (·.cntBytes) (·.total.Bytes.current) (·.total.Bytes.delta)
      fun _ => True :=
  startMeter (·.Bytes.prev) (fun _ => sub_sub_cancel _ _) (fun _ _ h => h.Bytes) (fun _ _ => rfl)
    (fun _ => by cases handler <;> exact ⟨rfl, rfl, sub_self _⟩)

theorem datagramsMeter :
    Telescopes (flowStep .serverUdp) (intervalRead .serverUdp) (·.cntDatagrams) (·.PacketID)
      (fun stats => stats.PacketID - stats.total.Datagrams.prev) fun _ => True :=
  startMeter (·.Datagrams.prev) (fun _ => sub_sub_cancel _ _) (fun _ _ h => h.Datagrams) (fun _ _ => rfl)
    (fun _ => ⟨rfl, rfl, sub_self _⟩)

theorem outofOrderMeter :
    Telescopes (flowStep .serverUdp) (intervalRead .serverUdp) (·.cntOutofOrder) (·.total.OutofOrder.current)
      (·.total.OutofOrder.delta) fun _ => True :=
  startMeter (·.OutofOrder.prev) (fun _ => sub_sub_cancel _ _) (fun _ _ h => h.OutofOrder) (fun _ _ => rfl)
    (fun _ => ⟨rfl, rfl, sub_self _⟩)

/-- The errors of a UDP server before they are clamped. -/
theorem errorMeter :
    Telescopes (flowStep .serverUdp) (intervalRead .serverUdp)
      (fun stats => stats.total.Lost.delta - stats.total.OutofOrder.delta)
      (fun stats => stats.total.Lost.current - stats.total.OutofOrder.current)
      (fun stats => stats.total.Lost.delta - stats.total.OutofOrder.delta) fun _ => True :=
  startMeter (fun t => t.Lost.prev - t.OutofOrder.prev)
    (fun _ => by simp only [ShiftCounter.delta]; omega)
    (fun _ _ h => by rw [h.Lost, h.OutofOrder]) (fun _ _ => rfl)
    (fun _ => ⟨rfl, rfl, by simp [flowStep, TransferProtocolHandler.parts, serverUdpParts,
      reporterResetTransferStatsServerUdp, ShiftCounter.delta]⟩)

section
variable {handler : TransferProtocolHandler} {total since : WriteStats → Int}

/-- The counts of the writes of a client. -/
theorem writeMeter (hclient : handler = .clientUdp ∨ handler = .clientTcp)
    (haccount : ∀ write errwrite,
      total (write.account errwrite) - since (write.account errwrite) = total write - since write)
    (hsample : ∀ write packet,
      total (write.sample packet) - since (write.sample packet) = total write - since write)
    (hinterval : ∀ stats : TransferInfo,
      let after := flowStep handler stats .interval
      total after.sockCallstats.write = total stats.sockCallstats.write ∧ since after.sockCallstats.write = 0) :
    Telescopes (flowStep handler) (intervalRead handler) (since ·.sockCallstats.write)
      (total ·.sockCallstats.write) (since ·.sockCallstats.write) fun _ => True := by
  refine flowMeter (fun stats packet _ => ⟨trivial, ?_⟩) (fun stats packet _ => ⟨trivial, ?_⟩)
    (fun stats ts _ => ⟨trivial, rfl, rfl⟩) (fun stats _ => ⟨trivial, ?_, hinterval stats⟩)
  · have hpacket : handler.packetHandler = .client := by rcases hclient with rfl | rfl <;> rfl
    simp only [hpacket, PacketHandler.handle, (handlePacketClient_spec stats packet).2.2.2]
    split
    · rfl
    · exact haccount stats.sockCallstats.write packet.errwrite
  · simp only [handleTcpistats]
    split
    · exact hsample stats.sockCallstats.write packet
    · rfl
  · rcases hclient with rfl | rfl <;> rfl

theorem writeCntMeter (hclient : handler = .clientUdp ∨ handler = .clientTcp) :
    Telescopes (flowStep handler) (intervalRead handler) (·.sockCallstats.write.WriteCnt)
      (·.sockCallstats.write.totWriteCnt) (·.sockCallstats.write.WriteCnt) fun _ => True :=
  writeMeter hclient (fun _ _ => add_sub_add_right_eq_sub _ _ _) (fun _ _ => rfl)
    (fun _ => by rcases hclient with rfl | rfl <;> exact ⟨rfl, rfl⟩)

/-- A sample of the retries moves their total and what an interval counted alike. -/
theorem retryMeter :
    Telescopes (flowStep .clientTcp) (intervalRead .clientTcp) (·.sockCallstats.write.TCPretry)
      (·.sockCallstats.write.totTCPretry) (·.sockCallstats.write.TCPretry) fun _ => True :=
  writeMeter (.inr rfl) (fun _ _ => rfl) (fun _ _ => by simp only [WriteStats.sample]; omega) (fun _ => ⟨rfl, rfl⟩)

end

section
variable {A : Type*} [AddCommGroup A]

/-- The counts of the reads of a TCP server, which has no samples of the retries. -/
theorem serverTcpMeter (total since : SendReadStats → A)
    (hreads : ∀ (sock : SendReadStats) (reads : Int) (bins : Fin 8 → Int),
      let after := { sock with
        cntRead := sock.cntRead + reads
        totcntRead := sock.totcntRead + reads
        bins := sock.bins + bins
        totbins := sock.totbins + bins }
      total after - since after = total sock - since sock)
    (hinterval : ∀ stats : TransferInfo,
      let after := reporterResetTransferStatsServerTcp stats
      total after.sockCallstats = total stats.sockCallstats ∧ since after.sockCallstats = 0) :
    Telescopes (flowStep .serverTcp) (intervalRead .serverTcp) (since ·.sockCallstats) (total ·.sockCallstats)
      (since ·.sockCallstats) fun stats => stats.common.enableSampleTCPstats = false := by
  refine flowMeter (fun stats packet hI => ?_) (fun stats packet hI => ?_) (fun stats ts hI => ⟨hI, rfl, rfl⟩)
    (fun stats hI => ⟨hI, rfl, hinterval stats⟩)
  · obtain ⟨bytes, bins, hcommon, -, hsock⟩ := handlePacketServerTcp_spec stats packet
    simp only [TransferProtocolHandler.packetHandler, PacketHandler.handle, hcommon, hsock]
    exact ⟨hI, hreads stats.sockCallstats _ bins⟩
  · simp only [handleTcpistats, hI, Bool.false_eq_true, false_and, if_false]
    exact ⟨trivial, trivial⟩

end

theorem cntReadMeter :
    Telescopes (flowStep .serverTcp) (intervalRead .serverTcp) (·.sockCallstats.cntRead) (·.sockCallstats.totcntRead)
      (·.sockCallstats.cntRead) fun stats => stats.common.enableSampleTCPstats = false :=
  serverTcpMeter (·.totcntRead) (·.cntRead) (fun _ _ _ => add_sub_add_right_eq_sub _ _ _) (fun _ => ⟨rfl, rfl⟩)

theorem binsMeter :
    Telescopes (flowStep .serverTcp) (intervalRead .serverTcp) (·.sockCallstats.bins) (·.sockCallstats.totbins)
      (·.sockCallstats.bins) fun stats => stats.common.enableSampleTCPstats = false :=
  serverTcpMeter (·.totbins) (·.bins) (fun _ _ _ => add_sub_add_right_eq_sub _ _ _) (fun _ => ⟨rfl, rfl⟩)

/-! ## The final report -/

theorem clampError_add_le (a b : Int) : clampError (a + b) ≤ clampError a + clampError b := by
  unfold clampError
  split_ifs <;> omega

/-- A report of a UDP server clamps its errors. -/
theorem intervalReports_cntError {stats : TransferInfo} {events : List FlowEvent} {r : TransferInfo}
    (hr : r ∈ intervalReports .serverUdp stats events) :
    r.cntError = clampError (r.total.Lost.delta - r.total.OutofOrder.delta) := by
  obtain ⟨s, e, hread⟩ := mem_readings hr
  cases e with
  | interval =>
    obtain rfl := Option.some.inj hread
    rfl
  | packet packet => cases hread
  | tcpistats packet => cases hread
  | clock ts => cases hread

/-- The clamped errors of the intervals sum up to at least the final ones. -/
theorem intervalReports_le_cntError {stats : TransferInfo} (htotal : stats.total = default) (events : List FlowEvent)
    (last : ReportStruct) :
    let stats' := lastStats .serverUdp (flowRun .serverUdp stats events) last
    clampError (stats'.total.Lost.current - stats'.total.OutofOrder.current) ≤
      ((intervalReports .serverUdp stats events).map (·.cntError)).sum +
        (intervalValues .serverUdp stats').cntError := by
  intro stats'
  have hle := errorMeter.le_sum clampError rfl clampError_add_le
    (events ++ lastEvents (flowRun .serverUdp stats events) last .serverUdp) (s := stats) trivial
  have hzero : stats.total.Lost.current - stats.total.OutofOrder.current -
      (stats.total.Lost.delta - stats.total.OutofOrder.delta) = 0 := by
    rw [htotal]
    rfl
  rw [← flowRun, ← lastStats_eq, ← intervalReports, intervalReports_last, hzero, sub_zero] at hle
  rw [List.map_congr_left fun r hr => intervalReports_cntError hr]
  exact hle

/-- The counts of the reports of a handler that add up, apart from the bytes. -/
def Telescoped (handler : TransferProtocolHandler) (reports : List TransferInfo) (rest final : TransferInfo) : Prop :=
  match handler with
  | .serverUdp =>
    (reports.map (·.cntDatagrams)).sum + rest.cntDatagrams = final.cntDatagrams ∧
      (reports.map (·.cntOutofOrder)).sum + rest.cntOutofOrder = final.cntOutofOrder ∧
      final.cntError ≤ (reports.map (·.cntError)).sum + rest.cntError
  | .clientUdp =>
    (reports.map (·.sockCallstats.write.WriteCnt)).sum + rest.sockCallstats.write.WriteCnt =
      final.sockCallstats.write.WriteCnt
  | .serverTcp =>
    (reports.map (·.sockCallstats.cntRead)).sum + rest.sockCallstats.cntRead = final.sockCallstats.cntRead ∧
      (reports.map (·.sockCallstats.bins)).sum + rest.sockCallstats.bins = final.sockCallstats.bins
  | .clientTcp =>
    (reports.map (·.sockCallstats.write.WriteCnt)).sum + rest.sockCallstats.write.WriteCnt =
        final.sockCallstats.write.WriteCnt ∧
      (reports.map (·.sockCallstats.write.TCPretry)).sum + rest.sockCallstats.write.TCPretry =
        final.sockCallstats.write.TCPretry

/-- **Interval telescoping.** For every run of a flow, with interval reports wherever they come, the counts of the
interval reports and what the flow accounted after the last one are the counts of its final report; the errors of a
UDP server, which are clamped in every report, are at least the final ones. -/
theorem interval_telescoping {handler : TransferProtocolHandler} {stats : TransferInfo} (h : Fresh handler stats)
    (events : List FlowEvent) (last : ReportStruct) :
    let reports := intervalReports handler stats events
    let rest := intervalValues handler (lastStats handler (flowRun handler stats events) last)
    let final := finalReport handler (flowRun handler stats events) last
    (reports.map (·.cntBytes)).sum + rest.cntBytes = final.cntBytes ∧ Telescoped handler reports rest final := by
  intro reports rest final
  have hzero : stats.total.Bytes.current = stats.total.Bytes.delta := by
    rw [h.total]
    rfl
  have hbytes := flow_sum (bytesMeter handler) trivial hzero events last
  cases handler with
  | serverUdp =>
    obtain ⟨hfinal, hdatagrams, horder, herror⟩ :=
      finalValues_serverUdp (lastStats .serverUdp (flowRun .serverUdp stats events) last)
    refine ⟨hbytes.trans hfinal.symm, ?_, ?_, ?_⟩
    · refine (flow_sum datagramsMeter trivial ?_ events last).trans hdatagrams.symm
      rw [h.total, h.PacketID]
      rfl
    · exact (flow_sum outofOrderMeter trivial (by rw [h.total]; rfl) events last).trans horder.symm
    · exact herror.trans_le (intervalReports_le_cntError h.total events last)
  | clientUdp =>
    obtain ⟨hfinal, -, hwrite, -⟩ :=
      finalValues_clientUdp (lastStats .clientUdp (flowRun .clientUdp stats events) last)
    refine ⟨hbytes.trans hfinal.symm, ?_⟩
    exact (flow_sum (writeCntMeter (.inl rfl)) trivial (by rw [h.sockCallstats]; rfl) events last).trans hwrite.symm
  | serverTcp =>
    obtain ⟨hfinal, hread, hbins⟩ :=
      finalValues_serverTcp (lastStats .serverTcp (flowRun .serverTcp stats events) last)
    have hsampled := h.sampled (.inr rfl)
    refine ⟨hbytes.trans hfinal.symm, ?_, ?_⟩
    · exact (flow_sum cntReadMeter hsampled (by rw [h.sockCallstats]; rfl) events last).trans hread.symm
    · exact (flow_sum binsMeter hsampled (by rw [h.sockCallstats]; rfl) events last).trans hbins.symm
  | clientTcp =>
    obtain ⟨hfinal, hwrite, -, hretry⟩ :=
      finalValues_clientTcp (lastStats .clientTcp (flowRun .clientTcp stats events) last)
    refine ⟨hbytes.trans hfinal.symm, ?_, ?_⟩
    · exact (flow_sum (writeCntMeter (.inr rfl)) trivial (by rw [h.sockCallstats]; rfl) events last).trans hwrite.symm
    · exact (flow_sum retryMeter trivial (by rw [h.sockCallstats]; rfl) events last).trans hretry.symm

/-! Id 5, an interval report, then ids 1 and 2: four errors in the interval, two in the end. -/

theorem interval_telescoping_reordered :
    let events := [packetOf 5, .interval, packetOf 1, packetOf 2]
    let reports := intervalReports .serverUdp udpServerInfo events
    let rest := intervalValues .serverUdp
      (lastStats .serverUdp (flowRun .serverUdp udpServerInfo events) (endPacket default))
    let final := finalReport .serverUdp (flowRun .serverUdp udpServerInfo events) (endPacket default)
    (reports.map (·.cntError)).sum + rest.cntError = 4 ∧ final.cntError = 2 ∧
      Telescoped .serverUdp reports rest final :=
  ⟨by decide, by decide, (interval_telescoping (initIndividualReport_fresh udpServer none none)
    [packetOf 5, .interval, packetOf 1, packetOf 2] (endPacket default)).2⟩

end Iperf2.Report
