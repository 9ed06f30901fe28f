import Iperf2.Traffic.Delivery
import Iperf2.Traffic.Sequence

/-!
# Losses of a UDP test

The network loses, repeats and reorders datagrams. The server posts a record for each one that it reads, up to a FIN,
and the FIN has the next id; so the reporter sees the losses at the end of the test, too.

* `serverRecords_lossy` : the records of a server;
* `udp_losses_reported` : the errors of the final report are the ids below the one of the FIN less the datagrams.
-/

namespace Iperf2.Traffic
open Report Transition

/-! ## The records of a lossy network -/

/-- No read of the server times out. -/
def NoTimeouts (arrivals : List Arrival) : Prop :=
  ∀ a ∈ arrivals, ∃ d timestamp udplen now, a = .datagram d timestamp udplen now

section
variable (settings : UdpSettings) {mBufLen : Nat} (mBuf : Buf) {arrivals : List Arrival}

/-- Every record is full. -/
theorem loopRecords_full (hlen : ∀ d ∈ datagrams arrivals, 0 < min d.len mBufLen) (hread : NoTimeouts arrivals)
    {s : UdpServer} (running : Running s) :
    ∀ r ∈ loopRecords settings mBufLen mBuf s arrivals, r.emptyreport = false := by
  induction arrivals generalizing mBuf s with
  | nil => exact fun r hr => nomatch hr
  | cons a arrivals ih =>
    obtain ⟨d, timestamp, udplen, now, rfl⟩ := hread a (List.mem_cons_self ..)
    have hds : datagrams (.datagram d timestamp udplen now :: arrivals) = d :: datagrams arrivals := rfl
    rw [hds] at hlen
    obtain ⟨-, hempty, -, hpeer, hknown⟩ := runUDP_datagram settings mBufLen (receive mBufLen mBuf d) running
      (hlen d (List.mem_cons_self ..)) timestamp udplen now
    intro r hr
    simp only [loopRecords, Arrival.buffer, List.mem_cons] at hr
    rcases hr with rfl | hr
    · exact hempty
    · cases hlast : (runUDP settings s (Arrival.read mBufLen (receive mBufLen mBuf d)
          (.datagram d timestamp udplen now))).lastpacket with
      | true =>
        simp only [hlast, if_true, List.not_mem_nil] at hr
      | false =>
        simp only [hlast, Bool.false_eq_true, if_false] at hr
        exact ih (receive mBufLen mBuf d) (fun d' hd' => hlen d' (List.mem_cons_of_mem _ hd'))
          (fun a ha => hread a (List.mem_cons_of_mem _ ha)) ⟨hpeer, hlast, hknown⟩ r hr

theorem serverRecords_full {listener : Option Datagram}
    (hlen : ∀ d ∈ listener.toList ++ datagrams arrivals, 0 < min d.len mBufLen) (hread : NoTimeouts arrivals) :
    ∀ r ∈ serverRecords settings mBufLen mBuf listener arrivals, r.emptyreport = false := by
  cases listener with
  | none => exact loopRecords_full settings mBuf hlen hread ⟨rfl, rfl, rfl⟩
  | some d =>
    have hempty : (firstRecord settings mBufLen mBuf d).emptyreport = false :=
      (readPacketID_word settings { (default : ReportStruct) with packetLen := (min d.len mBufLen : Nat) }
        (receive mBufLen mBuf d)).2.1
    have running : Running { (default : UdpServer) with reportstruct := firstRecord settings mBufLen mBuf d } :=
      ⟨rfl, rfl, rfl⟩
    intro r hr
    rcases List.mem_cons.mp hr with rfl | hr
    · exact hempty
    · exact loopRecords_full settings _ (fun d' hd' => hlen d' (List.mem_append_right _ hd')) hread running r hr

theorem fullIds_all {rs : List ReportStruct} (h : ∀ r ∈ rs, r.emptyreport = false) :
    fullIds rs = rs.map (·.packetID) := by
  unfold fullIds
  rw [List.filter_eq_self.mpr fun r hr => by rw [h r hr]; rfl]

/-- Ids of datagrams, in any order, and a FIN. -/
theorem postedIds_fin_last {ids : List Int} (hids : ∀ id ∈ ids, 0 < id ∧ id < idLimit settings) {fin : Int}
    (hfin : 0 < fin) (hlimit : fin ≤ idLimit settings) : postedIds settings (ids ++ [-fin]) = ids ++ [fin] := by
  induction ids with
  | nil =>
    have hread : idRead settings (-fin) = -fin := idRead_of_lt settings (by omega) (by omega)
    show |idRead settings (-fin)| :: _ = _
    rw [hread, abs_neg, abs_of_pos hfin, if_pos (by omega)]
    rfl
  | cons id ids ih =>
    obtain ⟨hpos, hlt⟩ := hids id (List.mem_cons_self ..)
    have hread : idRead settings id = id := idRead_of_lt settings (by omega) hlt
    rw [List.cons_append, postedIds, hread, abs_of_pos hpos, if_neg (by omega),
      ih fun id' hid' => hids id' (List.mem_cons_of_mem _ hid')]
    rfl

/-- **The records of a server** behind a network that loses, repeats and reorders: the ids of the datagrams, and of the
FIN. -/
theorem serverRecords_lossy (hbuf : 0 < mBufLen) {listener : Option Datagram} {delivered : List Sent} {fin : Sent}
    (hcarries : List.Forall₂ Carries (listener.toList ++ datagrams arrivals) (delivered ++ [fin]))
    (hcomplete : Complete settings mBufLen mBuf (listener.toList ++ datagrams arrivals)) (hread : NoTimeouts arrivals)
    (hdelivered : ∀ sent ∈ delivered, 0 < sent.packetID ∧ sent.packetID < idLimit settings)
    (hfin : fin.packetID < 0) (hlimit : -idLimit settings ≤ fin.packetID)
    (hlistener : delivered = [] → listener = none) :
    let rs := serverRecords settings mBufLen mBuf listener arrivals
    (∀ r ∈ rs, r.emptyreport = false) ∧ rs.map (·.packetID) = delivered.map (·.packetID) ++ [-fin.packetID] := by
  intro rs
  have hlen := carries_len hcarries hbuf
  have hfull : ∀ r ∈ rs, r.emptyreport = false := serverRecords_full settings mBuf hlen hread
  have hstart : ∀ d ∈ listener, 0 ≤ idWord settings (receive mBufLen mBuf d) ∨ datagrams arrivals = [] := by
    rintro d rfl
    left
    cases delivered with
    | nil => exact nomatch hlistener rfl
    | cons sent delivered =>
      obtain ⟨hpos, hlt⟩ := hdelivered sent (List.mem_cons_self ..)
      have hd : Carries d sent := (List.forall₂_cons.mp hcarries).1
      rw [hcomplete.1.idWord hd, idRead_of_lt settings (by omega) hlt]
      exact hpos.le
  obtain ⟨hids, -⟩ := serverRecords_ids settings mBuf hlen hstart
  refine ⟨hfull, ?_⟩
  have hpositive : ∀ id ∈ delivered.map (·.packetID), 0 < id ∧ id < idLimit settings := by
    intro id hid
    obtain ⟨sent, hsent, rfl⟩ := List.mem_map.mp hid
    exact hdelivered sent hsent
  have hposted := @postedIds_fin_last settings _ hpositive (-fin.packetID) (by omega) (by omega)
  rw [neg_neg] at hposted
  rw [← fullIds_all hfull, hids, readIds_complete hcarries hcomplete, List.map_append, List.map_singleton, hposted]

end

/-! ## The final report -/

/-- Packets that were received, with a largest id. -/
theorem accounted_largest {ids : List Int} {stats : TransferInfo} (h : Accounted ids stats) {largest : Int}
    (hmem : largest ∈ ids) (hle : ∀ id ∈ ids, id ≤ largest) :
    stats.PacketID = largest ∧
      clampError (stats.total.Lost.current - stats.total.OutofOrder.current) = max 0 (largest - ids.length) := by
  have hlargest : stats.PacketID = largest := by
    have hge := (h.le largest hmem).2
    rcases h.mem with ⟨hnil, -⟩ | hmax
    · rw [hnil] at hmem
      cases hmem
    · have := hle _ hmax
      omega
  have hbalance := h.balance
  rw [h.datagrams, hlargest] at hbalance
  refine ⟨hlargest, ?_⟩
  unfold clampError
  split <;> omega

theorem ids_records (events : List FlowEvent) : ids events = (records events).map (·.packetID) := by
  induction events with
  | nil => rfl
  | cons e events ih =>
    cases e with
    | packet packet => exact congrArg (packet.packetID :: ·) ih
    | tcpistats packet => exact ih
    | interval => exact ih
    | clock ts => exact ih

theorem allReceived_records {events : List FlowEvent} (h : ∀ r ∈ records events, Received r) : AllReceived events := by
  intro e he
  cases e with
  | packet packet => exact h packet (List.mem_filterMap.mpr ⟨_, he, rfl⟩)
  | tcpistats packet => trivial
  | interval => trivial
  | clock ts => trivial

/-- The final report over these records shows the largest id, and the ids that are missing up to it. -/
theorem finalReport_lossy {stats : TransferInfo} (hfresh : Fresh .serverUdp stats) {events : List FlowEvent}
    {delivered : List Int} {fin : Int} (hfull : ∀ r ∈ records events, r.emptyreport = false)
    (hids : (records events).map (·.packetID) = delivered ++ [fin])
    (hdelivered : ∀ id ∈ delivered, 0 < id ∧ id ≤ fin) (hfin : 0 < fin) (finalpacket : ReportStruct) :
    let final := finalReport .serverUdp (flowRun .serverUdp stats events) (endPacket finalpacket)
    final.cntDatagrams = fin ∧ final.cntError = max 0 (fin - 1 - delivered.length) := by
  have hall : ∀ id ∈ delivered ++ [fin], 0 < id ∧ id ≤ fin := by
    intro id hid
    rcases List.mem_append.mp hid with hid | hid
    · exact hdelivered id hid
    · rw [List.mem_singleton.mp hid]
      exact ⟨hfin, le_rfl⟩
  have hreceived : AllReceived events := allReceived_records fun r hr =>
    ⟨hfull r hr, (hall r.packetID (hids ▸ List.mem_map_of_mem hr)).1⟩
  have haccounted := Accounted.run hfresh events hreceived
  rw [ids_records, hids] at haccounted
  obtain ⟨hlargest, herror⟩ := accounted_largest haccounted
    (List.mem_append_right _ (List.mem_singleton_self fin)) fun id hid => (hall id hid).2
  intro final
  constructor
  · exact (finalValues_serverUdp _).2.1.trans hlargest
  · rw [finalReport_cntError, herror, List.length_append, List.length_singleton]
    push_cast
    omega

/-- The datagrams that came to a UDP server: the network loses, repeats and reorders those of a client, then delivers a
FIN. -/
structure LossyNetwork (client : ClientSettings) (mAmount : Int) (startTime : Timeval) (first : Option WriteResult)
    (loop : SendLoop) (settings : UdpSettings) (mBufLen : Nat) (mBuf : Buf) (listener : Option Datagram)
    (arrivals : List Arrival) (delivered : List Sent) (fin : Sent) : Prop where
  buffer : 0 < mBufLen
  sent : ∀ sent ∈ delivered, sent ∈ dataSent client mAmount startTime first loop
  negative : fin.packetID < 0
  beyond : (dataSent client mAmount startTime first loop).length ≤ -fin.packetID
  limit : -fin.packetID < idLimit settings
  carries : List.Forall₂ Carries (listener.toList ++ datagrams arrivals) (delivered ++ [fin])
  complete : Complete settings mBufLen mBuf (listener.toList ++ datagrams arrivals)
  read : NoTimeouts arrivals
  start : delivered = [] → listener = none

section
variable {client : ClientSettings} {mAmount : Int} {startTime : Timeval} {first : Option WriteResult} {loop : SendLoop}
  {settings : UdpSettings} {mBufLen : Nat} {mBuf : Buf} {listener : Option Datagram} {arrivals : List Arrival}
  {delivered : List Sent} {fin : Sent}

/-- The ids of the data are below the one of the FIN. -/
theorem LossyNetwork.ids
    (h : LossyNetwork client mAmount startTime first loop settings mBufLen mBuf listener arrivals delivered fin) :
    ∀ sent ∈ delivered, 0 < sent.packetID ∧ sent.packetID ≤ -fin.packetID := by
  obtain ⟨n, hsent, -⟩ := dataSent_ids client mAmount startTime first loop
  have hn : (dataSent client mAmount startTime first loop).length = n := by
    have hlength := congrArg List.length hsent
    rwa [List.length_map, idsFrom, List.length_map, List.length_range] at hlength
  have hbeyond := h.beyond
  intro sent hmem
  have hid := List.mem_map_of_mem (f := (·.packetID)) (h.sent sent hmem)
  rw [hsent, idsFrom] at hid
  obtain ⟨i, hi, heq⟩ := List.mem_map.mp hid
  have := List.mem_range.mp hi
  omega

/-- The final report of the server when `EndJob` returns. -/
theorem LossyNetwork.final
    (h : LossyNetwork client mAmount startTime first loop settings mBufLen mBuf listener arrivals delivered fin)
    {data : ReporterData} (htimed : TimedFlow .serverUdp data) (hfresh : Fresh .serverUdp data.info) {s : Pipeline}
    {turns : List Turn} (hflow : Flowing data s turns) (hended : s.traffic = .ended) {finalpacket : ReportStruct}
    (hposted : s.threads.enqueued =
      serverRecords settings mBufLen mBuf listener arrivals ++ [endPacket finalpacket]) :
    ∃ final, s.data.info = TransferProtocolHandler.serverUdp.parts.reset final true ∧
      (final.printable → .report final ∈ s.printed) ∧ final.cntDatagrams = -fin.packetID ∧
      final.cntError = max 0 (-fin.packetID - 1 - delivered.length) := by
  have hids := h.ids
  have hlimit := h.limit
  have hfin := h.negative
  obtain ⟨hfull, hrecords⟩ := serverRecords_lossy settings mBuf h.buffer h.carries h.complete h.read
    (fun sent hmem => ⟨(hids sent hmem).1, by have := (hids sent hmem).2; omega⟩) hfin (by omega) h.start
  obtain ⟨events, finalpacket', henqueued, hinfo, hprinted⟩ := ended_flow htimed hflow hended
  obtain ⟨hevents, -⟩ := List.append_inj' (henqueued.symm.trans hposted) rfl
  rw [← hevents] at hfull hrecords
  have hdelivered : ∀ id ∈ delivered.map (·.packetID), 0 < id ∧ id ≤ -fin.packetID := by
    intro id hid
    obtain ⟨sent, hmem, rfl⟩ := List.mem_map.mp hid
    exact hids sent hmem
  obtain ⟨hdatagrams, herror⟩ := finalReport_lossy hfresh hfull hrecords hdelivered (by omega) finalpacket'
  refine ⟨_, hinfo, hprinted, hdatagrams, ?_⟩
  rw [herror, List.length_map]

end

def udpFlow : ReporterData := initIndividualReport udpServer none none

theorem udpFlow_timed : TimedFlow .serverUdp udpFlow := ⟨rfl, rfl, rfl, fun _ h => nomatch h⟩

/-- What the client sent, at a place. -/
def sentAt (i : Nat) : Sent := (sentBy [acceptedWrite, acceptedWrite, acceptedWrite]).getD i ⟨0, 1, by decide⟩

def reorderedArrivals : List Arrival :=
  [sentAt 2, sentAt 0, sentAt 3].map fun sent => .datagram (onWire sent) none 0 ⟨1, 0⟩

theorem reorderedNetwork : LossyNetwork clientSettings 0 ⟨1, 0⟩ none
    (.udp [acceptedWrite, acceptedWrite, acceptedWrite]) plain 1470 Buf.zero none reorderedArrivals
    [sentAt 2, sentAt 0] (sentAt 3) where
  buffer := by decide
  sent := by decide
  negative := by decide
  beyond := by decide
  limit := by decide
  carries := carries_onWire [sentAt 2, sentAt 0, sentAt 3]
  complete := complete_of_whole plain (by decide) (by decide) Buf.zero
  read := by
    intro a ha
    obtain ⟨sent, -, rfl⟩ := List.mem_map.mp ha
    exact ⟨_, _, _, _, rfl⟩
  start := fun h => nomatch h

/-- The server posts its records, and the reporter takes them behind `EndJob`. -/
def lossyRun : List PipelineEvent :=
  (serverRecords plain 1470 Buf.zero none reorderedArrivals).flatMap (fun r => .reportPacket r :: enqueueCall) ++
    .endJob default :: enqueueCall ++ .process ::
    (List.replicate 4 [PipelineEvent.dequeue, .advance, .handle]).flatten ++ [.consumerdone, .testDone]

theorem lossyRun_ended :
    ∃ s : Pipeline, run Pipeline.step Pipeline.Guard (.init 8 udpFlow) lossyRun = some s ∧ s.traffic = .ended ∧
      s.threads.enqueued =
        serverRecords plain 1470 Buf.zero none reorderedArrivals ++ [endPacket default] := by
  have hrun : (run Pipeline.step Pipeline.Guard (.init 8 udpFlow) lossyRun).map
      (fun s => (s.traffic, s.threads.enqueued)) =
      some (.ended, serverRecords plain 1470 Buf.zero none reorderedArrivals ++ [endPacket default]) := by
    decide +kernel
  obtain ⟨s, hs, hvalues⟩ := Option.map_eq_some_iff.mp hrun
  exact ⟨s, hs, Prod.mk.inj hvalues⟩

end Iperf2.Traffic
