import Iperf2.Report.Run
import Iperf2.Lib.Transition
import Mathlib.Data.Int.Interval
import Mathlib.Order.Bounds.Basic

/-!
# Lost packets of a UDP server

`reporter_handle_packet_server_udp` books a loss at every gap of the packet ids and an out-of-order packet at every id
that is not beyond the largest one. `Accounted` is the invariant over the ids of all packets so far: `PacketID` is the
largest, and lost less out-of-order packets are the ids up to it less the packets.

* `loss_accounting` : this holds after every packet, and the final error count does not depend on the order of the
  packets as long as no id comes twice.
-/

namespace Iperf2.Report
open Transition

/-! ## One packet -/

/-- A packet that was received: not empty, with an id from 1 on. -/
def Received (packet : ReportStruct) : Prop := packet.emptyreport = false ∧ 1 ≤ packet.packetID

/-- The handling of a valid packet, unfolded. -/
theorem handlePacketServerUdp_valid (stats : TransferInfo) {packet : ReportStruct}
    (hempty : ¬ (packet.emptyreport ∧ stats.transit.cntTransit = 0)) (hid : packet.packetID > 0) :
    reporterHandlePacketServerUdp stats packet =
      let stats := { stats with ts := { stats.ts with packetTime := packet.packetTime } }
      reporterHandlePacketIsochronous (reporterHandlePacketOnewayTransit
        (reporterHandlePacketPps (serverUdpAccount stats packet) packet) packet).1 packet := by
  unfold reporterHandlePacketServerUdp
  rw [if_neg hempty, if_pos hid]

/-- A received packet counts as a datagram, and its id moves the largest id, the lost and the out-of-order packets. -/
theorem handlePacketServerUdp_received (stats : TransferInfo) {packet : ReportStruct} (h : Received packet) :
    let after := reporterHandlePacketServerUdp stats packet
    after.PacketID = max stats.PacketID packet.packetID ∧
      after.total.Datagrams.current = stats.total.Datagrams.current + 1 ∧
      after.total.Lost.current - after.total.OutofOrder.current - after.PacketID =
        stats.total.Lost.current - stats.total.OutofOrder.current - stats.PacketID - 1 := by
  obtain ⟨hempty, hid⟩ := h
  rw [handlePacketServerUdp_valid stats (by simp [hempty]) (by omega)]
  refine ⟨?_, ?_, ?_⟩
  · change (if packet.packetID > stats.PacketID then packet.packetID else stats.PacketID) = _
    omega
  · simp [reporterHandlePacketIsochronous, reporterHandlePacketOnewayTransit, reporterHandlePacketPps,
      serverUdpAccount, hempty]
  · simp only [reporterHandlePacketIsochronous, reporterHandlePacketOnewayTransit, reporterHandlePacketPps,
      serverUdpAccount, hempty, Bool.false_eq_true, if_false]
    -- the next id, an id that is not beyond the largest, or a gap
    rcases lt_trichotomy packet.packetID (stats.PacketID + 1) with hlt | heq | hgt
    · rw [if_neg (by omega), if_pos ⟨by omega, hlt⟩, if_neg (by omega), ShiftCounter.add_current]
      omega
    · rw [if_neg (by omega), if_neg (by omega), if_pos (by omega)]
      omega
    · rw [if_pos ⟨by omega, by omega⟩, if_neg (by omega), if_pos (by omega), ShiftCounter.add_current]
      omega

/-! ## Runs -/

/-- The ids of the packets among the events. -/
def ids (events : List FlowEvent) : List Int :=
  events.filterMap fun
    | .packet packet => some packet.packetID
    | _ => none

/-- All packets among the events were received. -/
def AllReceived (events : List FlowEvent) : Prop :=
  ∀ e ∈ events, match e with
    | .packet packet => Received packet
    | _ => True

/-- What the counters are after packets with these ids. -/
structure Accounted (ids : List Int) (stats : TransferInfo) : Prop where
  sampled : stats.common.enableSampleTCPstats = false
  le : ∀ id ∈ ids, 1 ≤ id ∧ id ≤ stats.PacketID
  mem : ids = [] ∧ stats.PacketID = 0 ∨ stats.PacketID ∈ ids
  datagrams : stats.total.Datagrams.current = ids.length
  balance : stats.total.Lost.current + stats.total.Datagrams.current - stats.total.OutofOrder.current =
    stats.PacketID

section
variable {stats : TransferInfo} {events : List FlowEvent}

theorem Accounted.fresh (h : Fresh .serverUdp stats) : Accounted [] stats where
  sampled := h.sampled (.inl rfl)
  le := fun _ hid => nomatch hid
  mem := .inl ⟨rfl, h.PacketID⟩
  datagrams := by rw [h.total]; rfl
  balance := by rw [h.total, h.PacketID]; rfl

theorem Accounted.received {ids : List Int} (h : Accounted ids stats) {packet : ReportStruct}
    (hrec : Received packet) :
    Accounted (ids ++ [packet.packetID]) (reporterHandlePacketServerUdp stats packet) := by
  obtain ⟨hid, hdatagrams, hbalance⟩ := handlePacketServerUdp_received stats hrec
  have hcommon : (reporterHandlePacketServerUdp stats packet).common = stats.common := by
    rw [handlePacketServerUdp_valid stats (by simp [hrec.1]) (by have := hrec.2; omega)]
    rfl
  refine ⟨?_, ?_, ?_, ?_, ?_⟩
  · rw [hcommon, h.sampled]
  · intro id hmem
    rw [hid]
    rcases List.mem_append.mp hmem with hmem | hmem
    · have := h.le id hmem
      omega
    · rw [List.mem_singleton.mp hmem]
      have := hrec.2
      omega
  · refine .inr ?_
    rw [hid]
    rcases le_total stats.PacketID packet.packetID with hle | hle
    · rw [max_eq_right hle]
      exact List.mem_append_right _ (List.mem_singleton_self _)
    · rw [max_eq_left hle]
      rcases h.mem with ⟨-, hzero⟩ | hmem
      · have := hrec.2
        omega
      · exact List.mem_append_left _ hmem
  · rw [hdatagrams, h.datagrams]
    simp
  · have := h.balance
    omega

/-- After every run the counters account for the packets of the run. -/
theorem Accounted.run (hfresh : Fresh .serverUdp stats) (events : List FlowEvent) (hrec : AllReceived events) :
    Accounted (ids events) (flowRun .serverUdp stats events) := by
  refine history_invariant (P := fun es s => AllReceived es → Accounted (ids es) s)
    (fun _ => .fresh hfresh) (fun es s e ih hrec => ?_) events hrec
  have h := ih fun e' he' => hrec e' (List.mem_append_left _ he')
  have hlast := hrec e (List.mem_append_right _ (List.mem_singleton_self _))
  have hids : ids (es ++ [e]) = ids es ++ ids [e] := List.filterMap_append
  rw [hids]
  cases e with
  | packet packet => exact h.received hlast
  | tcpistats packet =>
    have hskip : flowStep .serverUdp s (.tcpistats packet) = s := by
      simp [flowStep, handleTcpistats, h.sampled]
    rw [hskip]
    simpa [ids] using h
  | interval =>
    rw [show ids [FlowEvent.interval] = [] from rfl, List.append_nil]
    exact ⟨h.sampled, h.le, h.mem, h.datagrams, h.balance⟩
  | clock ts =>
    rw [show ids [FlowEvent.clock ts] = [] from rfl, List.append_nil]
    exact ⟨h.sampled, h.le, h.mem, h.datagrams, h.balance⟩

/-- The error count of the final report: the last packet of a flow has no id and counts nothing. -/
theorem finalReport_cntError (stats : TransferInfo) (finalpacket : ReportStruct) :
    (finalReport .serverUdp stats (endPacket finalpacket)).cntError =
      clampError (stats.total.Lost.current - stats.total.OutofOrder.current) :=
  (finalValues_serverUdp (lastStats .serverUdp stats (endPacket finalpacket))).2.2.2

/-- Distinct ids up to the largest one are at most that many. -/
theorem Accounted.length_le {ids : List Int} (h : Accounted ids stats) (hnodup : ids.Nodup) :
    (ids.length : Int) ≤ stats.PacketID := by
  have hsub : ids.toFinset ⊆ Finset.Icc 1 stats.PacketID := by
    intro id hid
    exact Finset.mem_Icc.mpr (h.le id (List.mem_toFinset.mp hid))
  have hcard := Finset.card_le_card hsub
  rw [List.toFinset_card_of_nodup hnodup, Int.card_Icc] at hcard
  have hpos : 0 ≤ stats.PacketID := by
    rcases h.mem with ⟨-, hzero⟩ | hmem
    · omega
    · have := h.le _ hmem
      omega
  omega

/-- The largest id depends on the ids alone. -/
theorem Accounted.PacketID_eq {ids ids' : List Int} {stats' : TransferInfo} (h : Accounted ids stats)
    (h' : Accounted ids' stats') (hperm : ids.Perm ids') : stats.PacketID = stats'.PacketID := by
  have hle : stats.PacketID ≤ stats'.PacketID ∧ stats'.PacketID ≤ stats.PacketID := by
    rcases h.mem with ⟨hnil, hzero⟩ | hmem
    · rcases h'.mem with ⟨-, hzero'⟩ | hmem'
      · omega
      · rw [← hperm.mem_iff, hnil] at hmem'
        cases hmem'
    · rcases h'.mem with ⟨hnil, -⟩ | hmem'
      · rw [hperm.mem_iff, hnil] at hmem
        cases hmem
      · exact ⟨(h'.le _ (hperm.mem_iff.mp hmem)).2, (h.le _ (hperm.mem_iff.mpr hmem')).2⟩
  omega

/-- Without duplicates the final error count is the largest id less the packets. -/
theorem Accounted.finalError {ids : List Int} (h : Accounted ids stats) (hnodup : ids.Nodup)
    (finalpacket : ReportStruct) :
    (finalReport .serverUdp stats (endPacket finalpacket)).cntError = stats.PacketID - ids.length := by
  have hlen := h.length_le hnodup
  have hbalance := h.balance
  rw [h.datagrams] at hbalance
  rw [finalReport_cntError, clampError, if_neg (by omega)]
  omega

/-- **UDP loss accounting.** After any received packets, and any interval reports among them, `PacketID` is the
largest id and `Lost + Datagrams - OutofOrder` is `PacketID`. For two orders of the same ids, none of them twice, the
final error counts are the same: the largest id less the number of packets. -/
theorem loss_accounting (hfresh : Fresh .serverUdp stats) (hrec : AllReceived events) :
    let after := flowRun .serverUdp stats events
    (ids events ≠ [] → IsGreatest { id | id ∈ ids events } after.PacketID) ∧
      after.total.Lost.current + after.total.Datagrams.current - after.total.OutofOrder.current =
        after.PacketID ∧
      ∀ stats' events' finalpacket finalpacket', Fresh .serverUdp stats' → AllReceived events' →
        (ids events).Perm (ids events') → (ids events).Nodup →
        let final := finalReport .serverUdp after (endPacket finalpacket)
        let final' := finalReport .serverUdp (flowRun .serverUdp stats' events') (endPacket finalpacket')
        final.cntError = final'.cntError ∧ final.cntError = after.PacketID - (ids events).length := by
  have h := Accounted.run hfresh events hrec
  refine ⟨fun hne => ⟨?_, fun id hid => (h.le id hid).2⟩, h.balance, ?_⟩
  · rcases h.mem with ⟨hnil, -⟩ | hmem
    · exact absurd hnil hne
    · exact hmem
  · intro stats' events' finalpacket finalpacket' hfresh' hrec' hperm hnodup
    have h' := Accounted.run hfresh' events' hrec'
    have herror := h.finalError hnodup finalpacket
    have herror' := h'.finalError (hperm.nodup_iff.mp hnodup) finalpacket'
    refine ⟨?_, herror⟩
    rw [herror, herror', h.PacketID_eq h' hperm, hperm.length_eq]

end

/-! Ids 1, 2 and 5 in two orders: two packets are lost. -/

def udpServer : Settings := { (default : Settings) with
  threadMode := .server
  isUDP := true }

/-- A new report of a UDP server. -/
def udpServerInfo : TransferInfo := (initIndividualReport udpServer none none).info

def packetOf (id : Int) : FlowEvent := .packet { (default : ReportStruct) with packetID := id }

theorem loss_accounting_reordered :
    (finalReport .serverUdp (flowRun .serverUdp udpServerInfo [packetOf 5, packetOf 1, .interval, packetOf 2])
        (endPacket default)).cntError = 2 ∧
      (finalReport .serverUdp (flowRun .serverUdp udpServerInfo [packetOf 1, packetOf 2, packetOf 5])
        (endPacket default)).cntError = 2 := by
  have hfresh : Fresh .serverUdp udpServerInfo := initIndividualReport_fresh udpServer none none
  have hrec : AllReceived [packetOf 5, packetOf 1, .interval, packetOf 2] := by
    simp [AllReceived, packetOf, Received]
    decide
  have hrec' : AllReceived [packetOf 1, packetOf 2, packetOf 5] := by
    simp [AllReceived, packetOf, Received]
    decide
  obtain ⟨-, -, horder⟩ := loss_accounting hfresh hrec
  obtain ⟨hsame, hvalue⟩ := horder udpServerInfo [packetOf 1, packetOf 2, packetOf 5] default default hfresh hrec'
    (by decide) (by decide)
  rw [← hsame, hvalue]
  exact ⟨rfl, rfl⟩

end Iperf2.Report
