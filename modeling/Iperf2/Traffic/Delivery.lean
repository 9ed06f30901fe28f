import Iperf2.Report.Intervals
import Iperf2.Report.Pipeline
import Iperf2.Traffic.Client
import Iperf2.Traffic.Received

/-!
# A flow from its socket to its final report

The records that a traffic thread posts are packets of a flow (`Iperf2.Report.Run`), and the reporter puts interval
reports in between. So what holds of all runs of a flow holds of the two threads, whatever their interleaving.

* `TimedFlow` : a flow with interval reports by time, or with none;
* `replay_flow` : the sequential reporter runs the flow;
* `pipeline_flow` : when `EndJob` returns, the final report is that of the flow over the posted records;
* `server_reports_received` : for a TCP server its bytes are those that the socket gave.
-/

namespace Iperf2.Traffic
open Report Transition

/-- The flow has its interval reports by time, if any, in front of its packet handler. -/
structure TimedFlow (handler : TransferProtocolHandler) (data : ReporterData) : Prop where
  preReport : data.packetHandlerPreReport = none
  postReport : data.packetHandlerPostReport = some handler.packetHandler
  protocol : data.transferProtocolHandler = handler
  interval : ∀ h, data.transferIntervalHandler = some h → h = .timeInterval

/-! ## The handlers of a flow -/

/-- What a report has from the settings of its flow. -/
def handlers (data : ReporterData) :=
  (data.packetHandlerPreReport, data.packetHandlerPostReport, data.transferProtocolHandler,
    data.transferIntervalHandler)

theorem TimedFlow.of_handlers {handler : TransferProtocolHandler} {data data' : ReporterData}
    (h : TimedFlow handler data) (heq : handlers data' = handlers data) : TimedFlow handler data' := by
  simp only [handlers, Prod.mk.injEq] at heq
  obtain ⟨hpre, hpost, hprotocol, hinterval⟩ := heq
  exact ⟨hpre.trans h.preReport, hpost.trans h.postReport, hprotocol.trans h.protocol, hinterval ▸ h.interval⟩

theorem handlePacket_handlers (handler : Option PacketHandler) (packet : ReportStruct) (data : ReporterData) :
    handlers (handlePacket handler packet data) = handlers data := by
  cases handler <;> rfl

theorem interval_handlers (handler : TransferIntervalHandler) (data : ReporterData) (packet : ReportStruct) :
    handlers (handler.handle data packet).1 = handlers data := by
  cases handler with
  | timeInterval =>
    simp only [TransferIntervalHandler.handle, reporterCondprintTimeIntervalReport]
    split <;> rfl
  | frameIntervalServerUdp =>
    simp only [TransferIntervalHandler.handle, reporterCondprintFrameIntervalReportServerUdp]
    split <;> split <;> rfl
  | frameIntervalServerTcp => rfl
  | burstIntervalServerTcp =>
    simp only [TransferIntervalHandler.handle, reporterCondprintBurstIntervalReportServerTcp]
    split <;> rfl

theorem processPacket_handlers (data : ReporterData) (packet : ReportStruct) :
    handlers (processPacket data packet).1 = handlers data := by
  have hpre := handlePacket_handlers data.packetHandlerPreReport packet data
  unfold processPacket
  refine (handlePacket_handlers _ packet _).trans (Eq.trans ?_ hpre)
  split
  · rfl
  · exact interval_handlers _ _ packet

theorem processFinalPacket_handlers (data : ReporterData) (packet : ReportStruct) :
    handlers (processFinalPacket data packet).1 = handlers data := by
  unfold processFinalPacket
  exact (handlePacket_handlers _ packet _).trans (handlePacket_handlers _ packet data)

/-- A record leaves the handlers of its flow alone. -/
theorem process_handlers (data : ReporterData) (packet : ReportStruct) :
    handlers (reporterProcessTransferReport data packet).1 = handlers data := by
  unfold reporterProcessTransferReport
  split
  · exact processFinalPacket_handlers _ packet
  · exact processPacket_handlers _ packet

theorem take_handlers (report : ReporterData × List Output) (t : Turn) :
    handlers (t.take report).1 = handlers report.1 := by
  cases t with
  | record packet => exact process_handlers report.1 packet
  | clock ts => rfl
  | shared groupSumReport fullDuplexReport => rfl

/-! ## The sequential reporter runs the flow -/

theorem records_append (es fs : List FlowEvent) : records (es ++ fs) = records es ++ records fs :=
  List.filterMap_append

/-- Interval reports and clocks are no packets. -/
theorem records_nil {events : List FlowEvent} (h : ∀ e ∈ events, e = .interval ∨ ∃ ts, e = .clock ts) :
    records events = [] := by
  apply List.filterMap_eq_nil_iff.mpr
  intro e he
  rcases h e he with rfl | ⟨ts, rfl⟩ <;> rfl

section
variable {handler : TransferProtocolHandler}

theorem flowRun_append (stats : TransferInfo) (es fs : List FlowEvent) :
    flowRun handler stats (es ++ fs) = flowRun handler (flowRun handler stats es) fs :=
  List.foldl_append

/-- One turn is events of the flow, with the record of the turn as their packet. -/
theorem take_flow {report : ReporterData × List Output} (h : TimedFlow handler report.1) (t : Turn)
    (ht : ∀ p ∈ turnRecords [t], 0 ≤ p.packetID) :
    ∃ events, records events = turnRecords [t] ∧ (t.take report).1.info = flowRun handler report.1.info events := by
  cases t with
  | record packet =>
    have hnonneg : 0 ≤ packet.packetID := ht packet (List.mem_singleton_self packet)
    obtain ⟨events, hkind, hinfo⟩ := process_info report.1 packet (not_lt.mpr hnonneg) h.preReport
      (h.protocol ▸ h.postReport) h.interval
    refine ⟨.tcpistats packet :: events ++ [.packet packet], ?_, ?_⟩
    · rw [records_append, ← List.singleton_append, records_append, records_nil hkind]
      rfl
    · rw [← h.protocol]
      exact hinfo
  | clock ts => exact ⟨[.clock ts], rfl, rfl⟩
  | shared groupSumReport fullDuplexReport => exact ⟨[], rfl, rfl⟩

/-- **The sequential reporter runs the flow** over the records of the traffic. -/
theorem replay_flow {data : ReporterData} (h : TimedFlow handler data) (turns : List Turn)
    (hturns : ∀ p ∈ turnRecords turns, 0 ≤ p.packetID) :
    TimedFlow handler (replay data turns).1 ∧
      ∃ events, records events = turnRecords turns ∧ (replay data turns).1.info = flowRun handler data.info events := by
  induction turns using List.reverseRecOn with
  | nil => exact ⟨h, [], rfl, rfl⟩
  | append_singleton turns t ih =>
    simp only [turnRecords_concat, List.mem_append] at hturns
    obtain ⟨htimed, events, hrecords, hinfo⟩ := ih fun p hp => hturns p (.inl hp)
    obtain ⟨added, hadded, hafter⟩ := @take_flow handler (replay data turns) htimed t fun p hp =>
      hturns p (.inr hp)
    rw [replay_concat, turnRecords_concat]
    refine ⟨htimed.of_handlers (take_handlers _ t), events ++ added, ?_, ?_⟩
    · rw [records_append, hrecords, hadded]
    · rw [hafter, hinfo, flowRun_append]

theorem handle_printed {p : TransferProtocol} {data : ReporterData} {final : Bool}
    (hprintable : (p.report (p.interval data.info) final).1.printable) :
    .report (p.report (p.interval data.info) final).1 ∈ (p.handle data final).2 := by
  refine List.mem_append_right _ (List.mem_append_left _ ?_)
  rw [TransferInfo.output, if_pos hprintable]
  exact List.mem_singleton_self _

/-- The final record makes the final report. -/
theorem final_flow {data : ReporterData} (h : TimedFlow handler data) (finalpacket : ReportStruct) :
    let after := reporterProcessTransferReport data (endPacket finalpacket)
    let final := finalReport handler data.info (endPacket finalpacket)
    after.1.info = handler.parts.reset final true ∧ (final.printable → .report final ∈ after.2.1) := by
  have hlast : (endPacket finalpacket).packetID < 0 := (by decide : (-1 : Int) < 0)
  have hsample : handleTcpistats data.info (endPacket finalpacket) = data.info := if_neg fun hvalid => nomatch hvalid.2
  simp only [reporterProcessTransferReport, hsample, if_pos hlast]
  refine ⟨?_, ?_⟩
  · rw [processFinalPacket_info data _ h.preReport (h.protocol ▸ h.postReport), h.protocol]
  · intro hprintable
    simp only [processFinalPacket, h.preReport, h.postReport, h.protocol, handlePacket_none, handlePacket_some]
    exact List.mem_append_left _ (List.mem_append_left _ (handle_printed hprintable))

end

/-! ## The bytes of a flow -/

/-- The bytes that a packet handler adds for a record. -/
def countedBytes : PacketHandler → ReportStruct → Int
  | .serverTcp, packet => max packet.packetLen 0
  | .client, packet => if packet.emptyreport then 0 else packet.packetLen
  | .serverUdp, packet => if packet.packetID > 0 then packet.packetLen else 0

/-- An empty record of a UDP server has no bytes; one of a frame that the L2 checks reject may have. -/
def Plain (handler : PacketHandler) (packet : ReportStruct) : Prop :=
  handler = .serverUdp → packet.emptyreport = true → packet.packetLen = 0

def sumBytes (handler : PacketHandler) : List ReportStruct → Int
  | [] => 0
  | packet :: packets => countedBytes handler packet + sumBytes handler packets

theorem sumBytes_append (handler : PacketHandler) (ps qs : List ReportStruct) :
    sumBytes handler (ps ++ qs) = sumBytes handler ps + sumBytes handler qs := by
  induction ps with
  | nil => exact (zero_add _).symm
  | cons p ps ih => rw [List.cons_append, sumBytes, sumBytes, ih, add_assoc]

theorem pps_bytes (stats : TransferInfo) (packet : ReportStruct) :
    (reporterHandlePacketPps stats packet).total.Bytes = stats.total.Bytes := by
  unfold reporterHandlePacketPps
  split <;> rfl

theorem serverUdp_bytes (stats : TransferInfo) {packet : ReportStruct} (h : Plain .serverUdp packet) :
    (reporterHandlePacketServerUdp stats packet).total.Bytes.current =
      stats.total.Bytes.current + countedBytes .serverUdp packet := by
  simp only [reporterHandlePacketServerUdp, countedBytes]
  split
  · rename_i hempty
    rw [h rfl hempty.1, ite_self, add_zero]
  · split
    · change (reporterHandlePacketPps (serverUdpAccount _ packet) packet).total.Bytes.current = _
      rw [pps_bytes]
      rfl
    · exact (add_zero _).symm

theorem handle_bytes (handler : PacketHandler) (stats : TransferInfo) {packet : ReportStruct}
    (h : Plain handler packet) :
    (handler.handle stats packet).total.Bytes.current =
      stats.total.Bytes.current + countedBytes handler packet := by
  cases handler with
  | serverUdp => exact serverUdp_bytes stats h
  | serverTcp => exact ByteServer.serverTcp_bytes stats packet
  | client =>
    have htotal := (handlePacketClient_spec stats packet).2.2.1
    simp only [PacketHandler.handle, countedBytes]
    rw [htotal]
    split
    · exact (add_zero _).symm
    · rfl

/-- Interval reports, samples and clocks do not move the total. -/
theorem flowRun_bytes (handler : TransferProtocolHandler) (stats : TransferInfo) (events : List FlowEvent)
    (h : ∀ p ∈ records events, Plain handler.packetHandler p) :
    (flowRun handler stats events).total.Bytes.current =
      stats.total.Bytes.current + sumBytes handler.packetHandler (records events) := by
  induction events generalizing stats with
  | nil => exact (add_zero _).symm
  | cons e events ih =>
    rw [flowRun, List.foldl_cons, ← flowRun]
    cases e with
    | packet packet =>
      have hrecords : records (.packet packet :: events) = packet :: records events := rfl
      rw [hrecords] at h ⊢
      rw [ih _ fun p hp => h p (List.mem_cons_of_mem _ hp), sumBytes, ← add_assoc]
      congr 1
      exact handle_bytes handler.packetHandler stats (h packet (List.mem_cons_self ..))
    | tcpistats packet =>
      refine (ih _ h).trans ?_
      rw [flowStep, handleTcpistats_total]
      rfl
    | interval =>
      refine (ih _ h).trans ?_
      cases handler <;> rfl
    | clock ts => exact ih _ h

theorem finalReport_cntBytes (handler : TransferProtocolHandler) (stats : TransferInfo) (packet : ReportStruct) :
    (finalReport handler stats packet).cntBytes = (handler.packetHandler.handle stats packet).total.Bytes.current := by
  cases handler with
  | serverUdp => exact (finalValues_serverUdp _).1
  | clientUdp => exact (finalValues_clientUdp _).1
  | serverTcp => exact (finalValues_serverTcp _).1
  | clientTcp => exact (finalValues_clientTcp _).1

/-! ## Both threads -/

section
variable {handler : TransferProtocolHandler} {data : ReporterData} {s : Pipeline} {turns : List Turn}

/-- When `EndJob` returns, the reporter has run the flow over the posted records. -/
theorem ended_flow (h : TimedFlow handler data) (hflow : Flowing data s turns) (hended : s.traffic = .ended) :
    ∃ events finalpacket,
      let final := finalReport handler (flowRun handler data.info events) (endPacket finalpacket)
      s.threads.enqueued = records events ++ [endPacket finalpacket] ∧
        s.data.info = handler.parts.reset final true ∧ (final.printable → .report final ∈ s.printed) := by
  obtain ⟨before, finalpacket, rfl, henqueued, hnonneg⟩ := hflow.last_turn hended
  obtain ⟨htimed, events, hrecords, hinfo⟩ := replay_flow h before hnonneg
  obtain ⟨hreset, hprinted⟩ := final_flow htimed finalpacket
  have hreplayed := hflow.replayed
  rw [replay_concat] at hreplayed
  obtain ⟨hdata, hshown⟩ := Prod.mk.inj hreplayed
  refine ⟨events, finalpacket, ?_, ?_, ?_⟩
  · rw [henqueued, hrecords]
  · rw [← hdata, ← hinfo]
    exact hreset
  · intro hprintable
    rw [← hshown]
    refine List.mem_append_right _ (hinfo ▸ hprinted ?_)
    rw [hinfo]
    exact hprintable

/-- Its final report has the bytes of all these records. -/
theorem ended_bytes (events : List FlowEvent) (finalpacket : ReportStruct)
    (hplain : ∀ p ∈ records events ++ [endPacket finalpacket], Plain handler.packetHandler p) :
    (finalReport handler (flowRun handler data.info events) (endPacket finalpacket)).cntBytes =
      data.info.total.Bytes.current +
        sumBytes handler.packetHandler (records events ++ [endPacket finalpacket]) := by
  have hevents : ∀ p ∈ records events, Plain handler.packetHandler p := fun p hp =>
    hplain p (List.mem_append_left _ hp)
  have hlast := hplain _ (List.mem_append_right _ (List.mem_singleton_self _))
  rw [finalReport_cntBytes, handle_bytes _ _ hlast, flowRun_bytes _ _ _ hevents, sumBytes_append, sumBytes, sumBytes,
    add_zero, add_assoc]

end

/-- Without interval reports. -/
theorem tcpFlow_timed : TimedFlow .serverTcp tcpFlow := ⟨rfl, rfl, rfl, fun _ h => nomatch h⟩

/-- `Server::RunTCP` with its packet ring and the reporter behind it. -/
structure TcpFlow where
  server : ByteServer
  pipeline : Pipeline

inductive TcpFlowEvent
  /-- A system call, or the end of the loop. -/
  | recv (e : RecvEvent)
  /-- `ReportPacket` for the bytes of a round, with the times of the record. -/
  | reportPacket (packet : ReportStruct)
  | endJob (finalpacket : ReportStruct)
  /-- Anything else of the two threads. -/
  | pipeline (e : PipelineEvent)

namespace TcpFlow

def init (burstInfo : Buf) (firstreadbytes count : Nat) (data : ReporterData) : TcpFlow where
  server := .init burstInfo firstreadbytes
  pipeline := .init count data

/-- The rounds that the thread has not posted yet. -/
def unposted (s : TcpFlow) : List Int := s.server.packetLens.drop (posted s.pipeline.threads).length

def isCall : PipelineEvent → Bool
  | .reportPacket _ | .endJob _ => true
  | _ => false

def step (settings : ReadSettings) (s : TcpFlow) : TcpFlowEvent → Option TcpFlow
  | .recv e =>
    -- the thread is out of `ReportPacket`
    if s.pipeline.traffic = .traffic ∧ (Report.inFlight s.pipeline.threads.producerPc).isEmpty ∧ s.unposted = [] then
      (s.server.step settings e).map ({ s with server := · })
    else none
  | .reportPacket packet =>
    match s.unposted with
    | [] => none
    | packetLen :: _ => (s.pipeline.step (.reportPacket { packet with packetLen })).map ({ s with pipeline := · })
  | .endJob finalpacket =>
    if s.server.ended ∧ s.unposted = [] then
      (s.pipeline.step (.endJob { finalpacket with packetLen := 0 })).map ({ s with pipeline := · })
    else none
  | .pipeline e => if isCall e then none else (s.pipeline.step e).map ({ s with pipeline := · })

/-- The guards of both. -/
def Guard (settings : ReadSettings) (s : TcpFlow) : TcpFlowEvent → Prop
  | .recv e => s.server.Clean settings e
  | .reportPacket packet => 0 ≤ packet.packetID
  | .endJob _ => True
  | .pipeline e => s.pipeline.Guard e

instance (settings : ReadSettings) (s : TcpFlow) (e : TcpFlowEvent) : Decidable (s.Guard settings e) := by
  unfold Guard
  split <;> infer_instance

end TcpFlow

/-! ## What the thread has posted -/

/-- A step of a pipeline that is no call leaves the posted records alone. -/
theorem step_posted {p p' : Pipeline} {e : PipelineEvent} (he : TcpFlow.isCall e = false) (hstep : p.step e = some p') :
    posted p'.threads = posted p.threads ∧ (p'.traffic = .traffic ↔ p.traffic = .traffic) := by
  cases e with
  | reportPacket | endJob => cases he
  | enqueue a =>
    simp only [Pipeline.step] at hstep
    split at hstep
    · rename_i ha
      obtain ⟨threads, hthreads, rfl⟩ := Option.map_eq_some_iff.mp hstep
      exact ⟨(posted_inEnqueue ha hthreads).1, Iff.rfl⟩
    · cases hstep
  | testDone =>
    simp only [Pipeline.step] at hstep
    split at hstep
    · rename_i htraffic hidle
      cases hstep
      rw [htraffic]
      split
      · exact ⟨rfl, by simp⟩
      · exact ⟨rfl, by rw [htraffic]⟩
    · cases hstep
  | dequeue =>
    simp only [Pipeline.step] at hstep
    split at hstep
    · obtain ⟨threads, hthreads, rfl⟩ := Option.map_eq_some_iff.mp hstep
      exact ⟨(step_dequeue hthreads).2.1, Iff.rfl⟩
    · cases hstep
  | advance =>
    simp only [Pipeline.step] at hstep
    split at hstep
    · obtain ⟨threads, hthreads, rfl⟩ := Option.map_eq_some_iff.mp hstep
      obtain ⟨r, -, rfl⟩ := step_advance hthreads
      exact ⟨rfl, Iff.rfl⟩
    · cases hstep
  | handle =>
    simp only [Pipeline.step] at hstep
    split at hstep
    · cases hstep
      exact ⟨rfl, Iff.rfl⟩
    · cases hstep
  | clock | process | shared | consumerdone | signal =>
    simp only [Pipeline.step] at hstep
    split at hstep <;> cases hstep
    all_goals exact ⟨rfl, Iff.rfl⟩

theorem step_reportPacket {p p' : Pipeline} {packet : ReportStruct} (hstep : p.step (.reportPacket packet) = some p') :
    p.traffic = .traffic ∧ p'.traffic = .traffic ∧ posted p'.threads = posted p.threads ++ [packet] := by
  simp only [Pipeline.step] at hstep
  split at hstep
  · rename_i htraffic
    obtain ⟨threads, hthreads, rfl⟩ := Option.map_eq_some_iff.mp hstep
    exact ⟨htraffic, htraffic, (posted_enqueue hthreads).2.2.1⟩
  · cases hstep

theorem step_endJob {p p' : Pipeline} {finalpacket : ReportStruct} (hstep : p.step (.endJob finalpacket) = some p') :
    p.traffic = .traffic ∧ p'.traffic = .endJob ∧
      posted p'.threads = posted p.threads ++ [endPacket finalpacket] := by
  simp only [Pipeline.step] at hstep
  split at hstep
  · rename_i htraffic
    obtain ⟨threads, hthreads, rfl⟩ := Option.map_eq_some_iff.mp hstep
    exact ⟨htraffic, rfl, (posted_enqueue hthreads).2.2.1⟩
  · cases hstep

/-- A system call adds to the rounds at most one, at the end. -/
theorem step_packetLens {settings : ReadSettings} {s s' : ByteServer} {e : RecvEvent}
    (hstep : s.step settings e = some s') : s.packetLens.IsPrefix s'.packetLens := by
  unfold ByteServer.step at hstep
  split at hstep
  · cases hstep
  · cases e with
    | stop =>
      obtain ⟨-, hstop⟩ := Option.ite_none_right_eq_some.mp hstep
      cases hstop
      exact List.prefix_refl _
    | took bytes =>
      dsimp only at hstep
      split at hstep
      · obtain ⟨-, htook⟩ := Option.ite_none_right_eq_some.mp hstep
        cases htook
        unfold ByteServer.tookHeader
        dsimp only
        split
        · split
          · exact List.prefix_append _ _
          · exact List.prefix_refl _
        · exact List.prefix_refl _
      · obtain ⟨-, htook⟩ := Option.ite_none_right_eq_some.mp hstep
        cases htook
        exact List.prefix_append _ _
    | eof =>
      cases hstep
      split
      · exact List.prefix_refl _
      · exact List.prefix_append _ _
    | error errno =>
      cases hstep
      split
      · split <;> exact List.prefix_refl _
      · split
        · exact List.prefix_append _ _
        · exact List.prefix_append _ _

/-- The loop ends between two rounds. -/
theorem step_ended {settings : ReadSettings} {firstreadbytes : Nat} {s s' : ByteServer} {e : RecvEvent}
    (h : ByteServer.Tallied settings firstreadbytes s) (hstep : s.step settings e = some s') :
    s'.ended = true → s'.headerLen = 0 := by
  unfold ByteServer.step at hstep
  split at hstep
  · cases hstep
  · rename_i hruns
    rw [not_or, Bool.not_eq_true] at hruns
    cases e with
    | stop =>
      obtain ⟨⟨hround, -⟩, hstop⟩ := Option.ite_none_right_eq_some.mp hstep
      cases hstop
      exact fun _ => hround
    | took bytes =>
      dsimp only at hstep
      split at hstep
      · obtain ⟨-, htook⟩ := Option.ite_none_right_eq_some.mp hstep
        cases htook
        unfold ByteServer.tookHeader
        dsimp only
        split
        · split
          · exact fun _ => rfl
          · exact fun hended => absurd (hended.symm.trans hruns.1) (by decide)
        · exact fun hended => absurd (hended.symm.trans hruns.1) (by decide)
      · obtain ⟨-, htook⟩ := Option.ite_none_right_eq_some.mp hstep
        cases htook
        exact fun _ => rfl
    | eof =>
      cases hstep
      split
      · rename_i hreads
        exact fun _ => h.round hreads
      · exact fun _ => rfl
    | error errno =>
      cases hstep
      split
      · rename_i hreads
        split
        · exact fun _ => h.round hreads
        · exact fun _ => h.round hreads
      · split <;> exact fun _ => rfl

/-- The records that the thread posted are the rounds of its loop, and a final one without bytes. -/
structure Delivering (settings : ReadSettings) (firstreadbytes : Nat) (data : ReporterData) (s : TcpFlow)
    (turns : List Turn) : Prop where
  flowing : Flowing data s.pipeline turns
  tallied : ByteServer.Tallied settings firstreadbytes s.server
  unharmed : ByteServer.Unharmed settings s.server
  between : s.server.ended = true → s.server.headerLen = 0
  traffic : s.pipeline.traffic = .traffic →
    (posted s.pipeline.threads).map (·.packetLen) ++ s.unposted = s.server.packetLens
  ending : s.pipeline.traffic ≠ .traffic → s.server.ended = true ∧
    (posted s.pipeline.threads).map (·.packetLen) = s.server.packetLens ++ [0]

namespace Delivering
variable {settings : ReadSettings} {firstreadbytes : Nat} {data : ReporterData} {s s' : TcpFlow} {turns : List Turn}

theorem init {count : Nat} (hcount : 2 ≤ count) (burstInfo : Buf) (firstreadbytes : Nat) (data : ReporterData) :
    Delivering settings firstreadbytes data (.init burstInfo firstreadbytes count data) [] where
  flowing := .init hcount data
  tallied := .start burstInfo firstreadbytes
  unharmed := ⟨rfl, fun _ => rfl⟩
  between := fun _ => rfl
  traffic := fun _ => rfl
  ending := fun hne => absurd rfl hne

/-- A system call happens when all rounds are posted. -/
theorem recv (h : Delivering settings firstreadbytes data s turns) {e : RecvEvent} (hclean : s.server.Clean settings e)
    (hstep : s.step settings (.recv e) = some s') : Delivering settings firstreadbytes data s' turns := by
  simp only [TcpFlow.step] at hstep
  split at hstep
  · rename_i hcall
    obtain ⟨htraffic, -, hnone⟩ := hcall
    obtain ⟨server, hserver, rfl⟩ := Option.map_eq_some_iff.mp hstep
    have hall := h.traffic htraffic
    rw [hnone, List.append_nil] at hall
    refine ⟨h.flowing, h.tallied.next hserver, h.unharmed.next h.tallied hclean hserver, step_ended h.tallied hserver,
      fun _ => ?_, fun hne => absurd htraffic hne⟩
    obtain ⟨more, hmore⟩ := step_packetLens hserver
    have hlen : s.server.packetLens.length = (posted s.pipeline.threads).length := by rw [← hall, List.length_map]
    simp only [TcpFlow.unposted]
    rw [← hmore, ← hlen, List.drop_left, hall]
  · cases hstep

theorem reportPacket (h : Delivering settings firstreadbytes data s turns) {packet : ReportStruct}
    (hnonneg : 0 ≤ packet.packetID) (hstep : s.step settings (.reportPacket packet) = some s') :
    Delivering settings firstreadbytes data s' turns := by
  simp only [TcpFlow.step] at hstep
  split at hstep
  · cases hstep
  · rename_i packetLen rest hunposted
    obtain ⟨pipeline, hpipeline, rfl⟩ := Option.map_eq_some_iff.mp hstep
    obtain ⟨htraffic, htraffic', hposted⟩ := step_reportPacket hpipeline
    have hflow := h.flowing.reportPacket (by exact hnonneg) hpipeline
    refine ⟨hflow, h.tallied, h.unharmed, h.between, fun _ => ?_,
      fun hne => absurd htraffic' hne⟩
    have hall := h.traffic htraffic
    have hrest : s.server.packetLens.drop ((posted s.pipeline.threads).length + 1) = rest := by
      rw [← List.drop_drop, ← TcpFlow.unposted, hunposted]
      rfl
    simp only [TcpFlow.unposted, hposted, List.length_append, List.length_singleton, List.map_append,
      List.map_singleton]
    rw [hrest, ← hall, hunposted, List.append_assoc]
    rfl

/-- The call of `EndJob` comes behind the loop. -/
theorem endJob (h : Delivering settings firstreadbytes data s turns) {finalpacket : ReportStruct}
    (hstep : s.step settings (.endJob finalpacket) = some s') : Delivering settings firstreadbytes data s' turns := by
  simp only [TcpFlow.step] at hstep
  split at hstep
  · rename_i hcall
    obtain ⟨hended, hnone⟩ := hcall
    obtain ⟨pipeline, hpipeline, rfl⟩ := Option.map_eq_some_iff.mp hstep
    obtain ⟨htraffic, hendJob, hposted⟩ := step_endJob hpipeline
    have hall := h.traffic htraffic
    rw [hnone, List.append_nil] at hall
    refine ⟨h.flowing.endJob hpipeline, h.tallied, h.unharmed, h.between, fun htraffic' => ?_, fun _ => ⟨hended, ?_⟩⟩
    · rw [hendJob] at htraffic'
      cases htraffic'
    · rw [hposted, List.map_append, hall]
      rfl
  · cases hstep

/-- One step of the system. -/
theorem next (h : Delivering settings firstreadbytes data s turns) {e : TcpFlowEvent} (guard : s.Guard settings e)
    (hstep : s.step settings e = some s') : ∃ turns', Delivering settings firstreadbytes data s' turns' := by
  cases e with
  | recv e => exact ⟨turns, h.recv guard hstep⟩
  | reportPacket packet => exact ⟨turns, h.reportPacket guard hstep⟩
  | endJob finalpacket => exact ⟨turns, h.endJob hstep⟩
  | pipeline e =>
    simp only [TcpFlow.step] at hstep
    split at hstep
    · cases hstep
    · rename_i hcall
      obtain ⟨pipeline, hpipeline, rfl⟩ := Option.map_eq_some_iff.mp hstep
      obtain ⟨hposted, htraffic⟩ := step_posted (Bool.not_eq_true _ ▸ hcall) hpipeline
      obtain ⟨turns', hflow⟩ := h.flowing.next guard hpipeline
      refine ⟨turns', hflow, h.tallied, h.unharmed, h.between, fun ht => ?_, fun hne => ?_⟩
      · simp only [TcpFlow.unposted, hposted]
        exact h.traffic (htraffic.mp ht)
      · rw [hposted]
        exact h.ending (mt htraffic.mpr hne)

theorem of_reachable {count : Nat} (hcount : 2 ≤ count) {burstInfo : Buf}
    (hs : Reachable (TcpFlow.step settings) (TcpFlow.Guard settings) (.init burstInfo firstreadbytes count data) s) :
    ∃ turns, Delivering settings firstreadbytes data s turns := by
  apply hs.invariant (I := fun s => ∃ turns, Delivering settings firstreadbytes data s turns)
  · exact ⟨[], init hcount burstInfo firstreadbytes data⟩
  · rintro s e s' ⟨turns, h⟩ guard hstep
    exact h.next guard hstep

end Delivering

theorem sumBytes_serverTcp (packets : List ReportStruct) :
    sumBytes .serverTcp packets = ByteServer.positive (packets.map (·.packetLen)) := by
  induction packets with
  | nil => rfl
  | cons packet packets ih =>
    rw [sumBytes, ih, List.map_cons]
    rfl

/-- When `EndJob` returns the records have what the socket gave. -/
theorem Delivering.enqueued {settings : ReadSettings} {firstreadbytes : Nat} {data : ReporterData} {s : TcpFlow}
    {turns : List Turn} (hdelivering : Delivering settings firstreadbytes data s turns)
    (hended : s.pipeline.traffic = .ended) :
    sumBytes .serverTcp s.pipeline.threads.enqueued = firstreadbytes + s.server.receiver.received := by
  obtain ⟨hover, hlens⟩ := hdelivering.ending (by rw [hended]; decide)
  have hposted : posted s.pipeline.threads = s.pipeline.threads.enqueued := by
    rw [posted, (hdelivering.flowing.ended hended).2, Report.inFlight, List.append_nil]
  have htallied := hdelivering.tallied
  have hgot := hdelivering.unharmed.header hover
  have hbehind : s.server.behindHeader = 0 := Nat.le_zero.mp (hdelivering.unharmed.nonFatal ▸ htallied.le)
  have hreports := (htallied.counts ⟨hdelivering.between hover, fun _ => hgot⟩).1.mpr ⟨hbehind, hgot⟩
  rw [ByteServer.reports_iff] at hreports
  rw [hposted] at hlens
  rw [hreports, sumBytes_serverTcp, hlens]
  simp [ByteServer.positive]

/-- The final report of the server when `EndJob` returns. -/
theorem Delivering.final {settings : ReadSettings} {firstreadbytes : Nat} {data : ReporterData} {s : TcpFlow}
    {turns : List Turn} (hdelivering : Delivering settings firstreadbytes data s turns) (h : TimedFlow .serverTcp data)
    (hfresh : Fresh .serverTcp data.info) (hended : s.pipeline.traffic = .ended) :
    ∃ final, s.pipeline.data.info = TransferProtocolHandler.serverTcp.parts.reset final true ∧
      (final.printable → .report final ∈ s.pipeline.printed) ∧
      final.cntBytes = firstreadbytes + s.server.receiver.received := by
  obtain ⟨events, finalpacket, henqueued, hinfo, hprinted⟩ := ended_flow h hdelivering.flowing hended
  refine ⟨_, hinfo, hprinted, ?_⟩
  have hplain : ∀ p ∈ records events ++ [endPacket finalpacket],
      Plain (TransferProtocolHandler.serverTcp).packetHandler p := fun p _ he => nomatch he
  rw [ended_bytes events finalpacket hplain, ← henqueued, hfresh.total]
  change 0 + sumBytes .serverTcp _ = _
  rw [zero_add, hdelivering.enqueued hended]

/-- A server without bursts, and without an amount. -/
def plainServer : ReadSettings where
  mBufLen := 131072
  isburst := false
  amountLimit := none

/-- A record of the thread in the ring. -/
def postCall (e : TcpFlowEvent) : List TcpFlowEvent := e :: enqueueCall.map .pipeline

/-- The reporter takes a record. -/
def takeCall : List TcpFlowEvent := [.dequeue, .advance, .handle].map .pipeline

/-- Behind a first payload of 60 bytes the socket gives 100, and the end of the stream. -/
def shortTcpFlow : List TcpFlowEvent :=
  postCall (.reportPacket default) ++ .recv (.took (List.replicate 100 0)) :: .pipeline .process :: takeCall ++
    postCall (.reportPacket default) ++ .recv .eof :: postCall (.reportPacket default) ++ takeCall ++
    postCall (.endJob default) ++ takeCall ++ takeCall ++ [.pipeline .consumerdone, .pipeline .testDone]

end Iperf2.Traffic
