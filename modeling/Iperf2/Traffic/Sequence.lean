import Iperf2.Traffic.Arrivals

/-!
# Sequence numbers of a UDP test

The reporter compares the id of every record with the largest one.

* `flowRun_tally` : its packet id, lost and out-of-order packets depend on the ids of the full records alone, as long
  as it accounts no empty one;
* `udp_sequence_numbers` : nothing is lost or out of order, unless a fatal write error ended `RunUDP`: then the FIN has
  the id of the last datagram.
-/

namespace Iperf2.Traffic
open Report

/-! ## The counters -/

/-- The counters that an id moves. -/
structure Tally where
  packetID : Int
  lost : Int
  outofOrder : Int

/-- The next id, one that is not beyond the largest, or a gap; an id that is not positive counts nothing. -/
def Tally.add (t : Tally) (id : Int) : Tally :=
  if id ≤ 0 then t
  else if id = t.packetID + 1 then { t with packetID := id }
  else if id ≤ t.packetID then { t with outofOrder := t.outofOrder + 1 }
  else { t with
    packetID := id
    lost := t.lost + (id - t.packetID - 1) }

def tallyOf (stats : TransferInfo) : Tally where
  packetID := stats.PacketID
  lost := stats.total.Lost.current
  outofOrder := stats.total.OutofOrder.current

/-- A packet was lost or out of order. -/
def Tally.Broken (t : Tally) : Prop := 0 < t.lost ∨ 0 < t.outofOrder

/-- No counter goes down. -/
theorem Tally.le_add (t : Tally) (id : Int) :
    t.packetID ≤ (t.add id).packetID ∧ t.lost ≤ (t.add id).lost ∧ t.outofOrder ≤ (t.add id).outofOrder := by
  unfold add
  split
  · exact ⟨le_rfl, le_rfl, le_rfl⟩
  · split
    · exact ⟨by dsimp only; omega, le_rfl, le_rfl⟩
    · split
      · exact ⟨le_rfl, le_rfl, by dsimp only; omega⟩
      · exact ⟨by dsimp only; omega, by dsimp only; omega, le_rfl⟩

/-- No later id repairs it. -/
theorem Tally.Broken.foldl {t : Tally} (h : t.Broken) (ids : List Int) : (ids.foldl Tally.add t).Broken := by
  induction ids generalizing t with
  | nil => exact h
  | cons id ids ih =>
    obtain ⟨-, hlost, hout⟩ := t.le_add id
    exact ih (h.imp (fun h => by omega) fun h => by omega)

/-- Counters that started at zero. -/
structure Tally.Nonneg (t : Tally) : Prop where
  packetID : 0 ≤ t.packetID
  lost : 0 ≤ t.lost
  outofOrder : 0 ≤ t.outofOrder

section
variable {t : Tally} (nonneg : t.Nonneg)
include nonneg

theorem Tally.Nonneg.add (id : Int) : (t.add id).Nonneg := by
  obtain ⟨hid, hlost, hout⟩ := t.le_add id
  exact {
    packetID := nonneg.packetID.trans hid
    lost := nonneg.lost.trans hlost
    outofOrder := nonneg.outofOrder.trans hout }

/-- An id that is not the next one breaks the order. -/
theorem Tally.Nonneg.add_broken {id : Int} (hpos : 0 < id) (hne : id ≠ t.packetID + 1) : (t.add id).Broken := by
  have hlost := nonneg.lost
  have hout := nonneg.outofOrder
  rw [Tally.add, if_neg (by omega), if_neg hne]
  by_cases hle : id ≤ t.packetID
  · rw [if_pos hle]
    exact .inr (by dsimp only; omega)
  · rw [if_neg hle]
    exact .inl (by dsimp only; omega)

/-- No id is beyond the largest one. -/
theorem Tally.Nonneg.le_packetID (id : Int) : id ≤ (t.add id).packetID := by
  have hid := nonneg.packetID
  unfold Tally.add
  split
  · omega
  · split
    · exact le_rfl
    · split
      · assumption
      · exact le_rfl

end

/-! ## Runs of the reporter -/

/-- The counters after a packet that is handled. -/
theorem handlePacketServerUdp_counters (stats : TransferInfo) {packet : ReportStruct}
    (hempty : ¬ (packet.emptyreport ∧ stats.transit.cntTransit = 0)) (hid : packet.packetID > 0) :
    let after := reporterHandlePacketServerUdp stats packet
    after.PacketID = (if packet.packetID > stats.PacketID then packet.packetID else stats.PacketID) ∧
      after.total.OutofOrder.current =
        stats.total.OutofOrder.current + (if packet.packetID < stats.PacketID + 1 then 1 else 0) ∧
      after.total.Lost.current = stats.total.Lost.current +
        (if packet.packetID > stats.PacketID + 1 then packet.packetID - stats.PacketID - 1 else 0) := by
  have hpps : ∀ s : TransferInfo, (reporterHandlePacketPps s packet).total.OutofOrder = s.total.OutofOrder ∧
      (reporterHandlePacketPps s packet).total.Lost = s.total.Lost := fun s => by
    unfold reporterHandlePacketPps
    cases packet.emptyreport <;> exact ⟨rfl, rfl⟩
  obtain ⟨hout, hlost⟩ := hpps (serverUdpAccount
    { stats with ts := { stats.ts with packetTime := packet.packetTime } } packet)
  rw [handlePacketServerUdp_valid stats hempty hid]
  simp only [reporterHandlePacketIsochronous, reporterHandlePacketOnewayTransit]
  rw [hout, hlost]
  refine ⟨rfl, ?_, ?_⟩
  · simp only [serverUdpAccount]
    by_cases hlt : packet.packetID < stats.PacketID + 1
    · rw [if_pos ⟨by omega, hlt⟩, if_pos hlt, ShiftCounter.add_current]
    · rw [if_neg fun h => hlt h.2, if_neg hlt, add_zero]
  · simp only [serverUdpAccount]
    by_cases hgt : packet.packetID > stats.PacketID + 1
    · rw [if_pos ⟨by omega, by omega⟩, if_pos hgt, ShiftCounter.add_current]
    · rw [if_neg fun h => by omega, if_neg hgt, add_zero]

/-- A record moves the counters by its id, but for an empty one in an interval without transit times. -/
theorem tallyOf_packet (stats : TransferInfo) (packet : ReportStruct) :
    tallyOf (reporterHandlePacketServerUdp stats packet) =
      if packet.emptyreport ∧ stats.transit.cntTransit = 0 then tallyOf stats
      else (tallyOf stats).add packet.packetID := by
  by_cases hempty : packet.emptyreport ∧ stats.transit.cntTransit = 0
  · unfold reporterHandlePacketServerUdp
    rw [if_pos hempty, if_pos hempty]
    rfl
  · rw [if_neg hempty]
    by_cases hid : packet.packetID > 0
    · obtain ⟨hpacketID, houtofOrder, hlost⟩ := handlePacketServerUdp_counters stats hempty hid
      have hpos : ¬ packet.packetID ≤ 0 := by omega
      rw [tallyOf, hpacketID, houtofOrder, hlost, Tally.add, if_neg hpos]
      rcases lt_trichotomy packet.packetID (stats.PacketID + 1) with hlt | heq | hgt
      · simp [tallyOf, show ¬ packet.packetID = stats.PacketID + 1 by omega,
          show packet.packetID ≤ stats.PacketID by omega, hlt, show ¬ packet.packetID > stats.PacketID + 1 by omega]
      · simp [tallyOf, heq]
      · simp [tallyOf, show ¬ packet.packetID = stats.PacketID + 1 by omega,
          show ¬ packet.packetID ≤ stats.PacketID by omega, hgt, show ¬ packet.packetID < stats.PacketID + 1 by omega]
    · unfold reporterHandlePacketServerUdp
      rw [if_neg hempty, if_neg hid, Tally.add, if_pos (by omega)]
      rfl

theorem handlePacketServerUdp_common (stats : TransferInfo) (packet : ReportStruct) :
    (reporterHandlePacketServerUdp stats packet).common = stats.common := by
  unfold reporterHandlePacketServerUdp
  dsimp only
  split
  · rfl
  · split <;> rfl

/-- The reporter accounts an empty record, as there is a transit time in the interval and an id in the record. -/
def CountsEmpty (stats : TransferInfo) : List FlowEvent → Prop
  | [] => False
  | .packet packet :: events =>
    (packet.emptyreport = true ∧ stats.transit.cntTransit ≠ 0 ∧ 0 < packet.packetID) ∨
      CountsEmpty (flowStep .serverUdp stats (.packet packet)) events
  | e :: events => CountsEmpty (flowStep .serverUdp stats e) events

theorem handleTcpistats_unsampled {stats : TransferInfo} (sampled : stats.common.enableSampleTCPstats = false)
    (packet : ReportStruct) : handleTcpistats stats packet = stats := by simp [handleTcpistats, sampled]

theorem flowRun_tcpistats {stats : TransferInfo} (sampled : stats.common.enableSampleTCPstats = false)
    (packet : ReportStruct) (events : List FlowEvent) :
    flowRun .serverUdp stats (.tcpistats packet :: events) = flowRun .serverUdp stats events :=
  congrArg (flowRun .serverUdp · events) (handleTcpistats_unsampled sampled packet)

theorem flowRun_broken {events : List FlowEvent} {stats : TransferInfo}
    (sampled : stats.common.enableSampleTCPstats = false) (broken : (tallyOf stats).Broken) :
    (tallyOf (flowRun .serverUdp stats events)).Broken := by
  induction events generalizing stats with
  | nil => exact broken
  | cons e events ih =>
    cases e with
    | packet packet =>
      show (tallyOf (flowRun .serverUdp (reporterHandlePacketServerUdp stats packet) events)).Broken
      refine ih ?_ ?_
      · rw [handlePacketServerUdp_common, sampled]
      · rw [tallyOf_packet]
        split
        · exact broken
        · exact broken.foldl [packet.packetID]
    | tcpistats packet =>
      rw [flowRun_tcpistats sampled]
      exact ih sampled broken
    | interval => exact ih sampled broken
    | clock ts => exact ih sampled broken

/-- A full record is counted. -/
theorem tallyOf_full {packet : ReportStruct} (hfull : packet.emptyreport = false) (stats : TransferInfo) :
    tallyOf (reporterHandlePacketServerUdp stats packet) = (tallyOf stats).add packet.packetID := by
  rw [tallyOf_packet, if_neg fun h => by rw [hfull] at h; cases h.1]

/-- An empty one that is accounted repeats an id, out of order. -/
theorem broken_of_counted {stats : TransferInfo} {packet : ReportStruct} (nonneg : (tallyOf stats).Nonneg) (hcnt : stats.transit.cntTransit ≠ 0)
    (hpos : 0 < packet.packetID) (hle : packet.packetID ≤ stats.PacketID) :
    (tallyOf (reporterHandlePacketServerUdp stats packet)).Broken := by
  rw [tallyOf_packet, if_neg fun h => hcnt h.2]
  refine nonneg.add_broken hpos ?_
  show packet.packetID ≠ stats.PacketID + 1
  omega

/-- Any other is skipped. -/
theorem tallyOf_skipped {stats : TransferInfo} {packet : ReportStruct} (hempty : packet.emptyreport = true)
    (hcount : ¬ (stats.transit.cntTransit ≠ 0 ∧ 0 < packet.packetID)) :
    tallyOf (reporterHandlePacketServerUdp stats packet) = tallyOf stats := by
  rw [tallyOf_packet]
  split
  · rfl
  · rename_i hcnt
    have hid : packet.packetID ≤ 0 := by
      by_contra hid
      exact hcount ⟨fun h => hcnt ⟨hempty, h⟩, by omega⟩
    rw [Tally.add, if_pos hid]

/-- The reporter of a UDP server, on records of which the empty ones repeat the id before them. An empty record that
is accounted is out of order. -/
theorem flowRun_tally {events : List FlowEvent} {stats : TransferInfo} {last : Int}
    (sampled : stats.common.enableSampleTCPstats = false) (chained : Chained last (records events))
    (hlast : last ≤ stats.PacketID) (nonneg : (tallyOf stats).Nonneg) :
    (¬ CountsEmpty stats events → tallyOf (flowRun .serverUdp stats events) =
        (fullIds (records events)).foldl Tally.add (tallyOf stats)) ∧
      (CountsEmpty stats events → (tallyOf (flowRun .serverUdp stats events)).Broken) := by
  induction events generalizing stats last with
  | nil => exact ⟨fun _ => rfl, fun h => h.elim⟩
  | cons e events ih =>
    cases e with
    | packet packet =>
      have hrecords : records (.packet packet :: events) = packet :: records events := rfl
      rw [hrecords] at chained ⊢
      obtain ⟨hsame, chained⟩ := chained
      have sampled' : (reporterHandlePacketServerUdp stats packet).common.enableSampleTCPstats = false := by
        rw [handlePacketServerUdp_common, sampled]
      by_cases hcount : packet.emptyreport = true ∧ stats.transit.cntTransit ≠ 0 ∧ 0 < packet.packetID
      · obtain ⟨hempty, hcnt, hpos⟩ := hcount
        refine ⟨fun h => absurd (.inl ⟨hempty, hcnt, hpos⟩) h, fun _ => ?_⟩
        show (tallyOf (flowRun .serverUdp (reporterHandlePacketServerUdp stats packet) events)).Broken
        exact flowRun_broken sampled' (broken_of_counted nonneg hcnt hpos (by rw [hsame hempty]; exact hlast))
      · have hrest : CountsEmpty stats (.packet packet :: events) ↔
            CountsEmpty (reporterHandlePacketServerUdp stats packet) events := or_iff_right hcount
        rw [hrest]
        cases hempty : packet.emptyreport with
        | true =>
          have hkeep := tallyOf_skipped hempty fun h => hcount ⟨hempty, h⟩
          have hid : (reporterHandlePacketServerUdp stats packet).PacketID = stats.PacketID :=
            congrArg Tally.packetID hkeep
          rw [fullIds_empty hempty, ← hkeep]
          exact ih sampled' chained (by rw [hsame hempty, hid]; exact hlast) (by rw [hkeep]; exact nonneg)
        | false =>
          have hadd := tallyOf_full hempty stats
          have hid : (reporterHandlePacketServerUdp stats packet).PacketID =
              ((tallyOf stats).add packet.packetID).packetID := congrArg Tally.packetID hadd
          rw [fullIds_full hempty, List.foldl_cons, ← hadd]
          refine ih sampled' chained ?_ ?_
          · rw [hid]
            exact nonneg.le_packetID packet.packetID
          · rw [hadd]
            exact nonneg.add packet.packetID
    | tcpistats packet =>
      have hcounts : CountsEmpty stats (.tcpistats packet :: events) = CountsEmpty stats events :=
        congrArg (CountsEmpty · events) (handleTcpistats_unsampled sampled packet)
      rw [hcounts, flowRun_tcpistats sampled]
      exact ih sampled chained hlast nonneg
    | interval => exact ih sampled chained hlast nonneg
    | clock ts => exact ih sampled chained hlast nonneg

/-! ## Ids in order -/

/-- The ids that the server posts for these ids on the wire, when they are whole. -/
def postedIds (settings : UdpSettings) : List Int → List Int
  | [] => []
  | id :: wire => |idRead settings id| :: if idRead settings id < 0 then [] else postedIds settings wire

theorem readIds_complete {settings : UdpSettings} {mBufLen : Nat} {mBuf : Buf} {wire : List Datagram}
    {sents : List Sent} (carries : List.Forall₂ Carries wire sents) (complete : Complete settings mBufLen mBuf wire) :
    readIds settings mBufLen mBuf wire = postedIds settings (sents.map (·.packetID)) := by
  induction carries generalizing mBuf with
  | nil => rfl
  | cons hd carries ih =>
    obtain ⟨whole, hrest⟩ := complete
    simp only [readIds, List.map_cons, postedIds]
    rw [whole.idWord hd, ih hrest]

section
variable (settings : UdpSettings)

theorem Tally.add_next (n : Int) (hn : 0 ≤ n) (lost outofOrder : Int) :
    (⟨n, lost, outofOrder⟩ : Tally).add (n + 1) = ⟨n + 1, lost, outofOrder⟩ := by
  rw [Tally.add, if_neg (by omega), if_pos rfl]

/-- Ids from the next one on are in order, up to the one that is read as negative. -/
theorem foldl_postedIds {p : Int} (hp : 0 ≤ p) (m : Nat) (fin : List Int) (hlimit : p < idLimit settings) :
    (postedIds settings (idsFrom (p + 1) m ++ fin)).foldl Tally.add ⟨p, 0, 0⟩ =
      if p + m < idLimit settings then (postedIds settings fin).foldl Tally.add ⟨p + m, 0, 0⟩
      else ⟨idLimit settings, 0, 0⟩ := by
  induction m generalizing p with
  | zero =>
    rw [if_pos (by simpa using hlimit)]
    simp [idsFrom]
  | succ m ih =>
    rw [idsFrom_succ, List.cons_append]
    by_cases hlast : p + 1 = idLimit settings
    · have hneg : idRead settings (p + 1) = -(p + 1) := by rw [hlast, idRead_limit]
      have habs : |idRead settings (p + 1)| = p + 1 := by rw [hneg, abs_neg, abs_of_nonneg (by omega)]
      rw [postedIds, habs, if_pos (by omega), List.foldl_cons, Tally.add_next p hp, List.foldl_nil,
        if_neg (by push_cast; omega), hlast]
    · have hread : idRead settings (p + 1) = p + 1 := idRead_of_lt settings (by omega) (by omega)
      have habs : |idRead settings (p + 1)| = p + 1 := by rw [hread, abs_of_nonneg (by omega)]
      rw [postedIds, habs, if_neg (by omega), List.foldl_cons, Tally.add_next p hp, ih (by omega) (by omega)]
      have hsum : p + 1 + (m : Int) = p + ((m + 1 : Nat) : Int) := by push_cast; omega
      rw [hsum]

/-- A negated id that the server reads as it is. -/
theorem postedIds_fin {k : Int} (hk : 0 ≤ k) (hle : k ≤ idLimit settings) : postedIds settings [-k] = [k] := by
  have hread : idRead settings (-k) = -k := idRead_of_lt settings (by omega) (by unfold idLimit at *; split at * <;> omega)
  have habs : |idRead settings (-k)| = k := by rw [hread, abs_neg, abs_of_nonneg hk]
  simp [postedIds, habs]

end

/-! ## Short datagrams -/

/-- The last byte of the first word gives the id modulo 256. -/
theorem idWord_emod (settings : UdpSettings) (mBuf : Buf) : idWord settings mBuf % 256 = ((mBuf 3).toNat : Int) := by
  have hbyte := (mBuf 3).isLt
  have hword : (mBuf.be32 0).toNat % 256 = (mBuf 3).toNat := by
    rw [Buf.be32_toNat]
    simp only [Nat.zero_add]
    omega
  unfold idWord
  split
  · have hlow : (mBuf.be32 12 ++ mBuf.be32 0).toNat % 256 = (mBuf 3).toNat := by
      rw [BitVec.toNat_append, ← Nat.shiftLeft_add_eq_or_of_lt (mBuf.be32 0).isLt, Nat.shiftLeft_eq]
      omega
    rw [BitVec.toInt_eq_toNat_cond]
    split <;> omega
  · rw [BitVec.toInt_eq_toNat_cond]
    split <;> omega

/-- The words that `WritePacketID` stored for `p`. -/
structure Holds (settings : UdpSettings) (p : Int) (mBuf : Buf) : Prop where
  id : mBuf.be32 0 = BitVec.ofInt 32 p
  id2 : settings.isSeqNo64b → mBuf.be32 12 = (BitVec.ofInt 64 p).extractLsb' 32 32
  pos : 0 < p
  lt : p < idLimit settings

section
variable {settings : UdpSettings} {p : Int} {mBuf : Buf}

theorem Whole.holds {d : Datagram} {sent : Sent} (whole : Whole settings mBuf d) (carries : Carries d sent)
    (hpos : 0 < sent.packetID) (hlt : sent.packetID < idLimit settings) : Holds settings sent.packetID mBuf := by
  obtain ⟨base, hbytes⟩ := carries.bytes
  obtain ⟨hlow, hhigh⟩ := be32_writePacketID base sent.packetID
  exact {
    id := by rw [whole.1, hbytes, hlow]
    id2 := fun h => by rw [whole.2 h, hbytes, hhigh]
    pos := hpos
    lt := hlt }

theorem Holds.idWord (holds : Holds settings p mBuf) : idWord settings mBuf = p := by
  have hread := idRead_of_lt settings (k := p) (by have := holds.pos; unfold idLimit; split <;> omega) holds.lt
  rw [← hread, Traffic.idWord, idRead, holds.id]
  split
  · rename_i h
    rw [holds.id2 h, ← low_word, append_words]
  · rfl

/-- Behind fewer than 4 bytes of the next id the last byte is still the one of `p`. -/
theorem Holds.stale (holds : Holds settings p mBuf) {mBufLen : Nat} {d : Datagram} {sent : Sent}
    (carries : Carries d sent) (hnext : sent.packetID = p + 1) (hshort : min d.len mBufLen < 4) :
    0 < |Traffic.idWord settings (receive mBufLen mBuf d)| ∧
      |Traffic.idWord settings (receive mBufLen mBuf d)| ≠ p + 1 := by
  have hbehind : ∀ i, 3 ≤ i → receive mBufLen mBuf d i = mBuf i := fun i hi => if_neg (by omega)
  have hold := idWord_emod settings mBuf
  have hnew := idWord_emod settings (receive mBufLen mBuf d)
  rw [hbehind 3 le_rfl, ← hold, holds.idWord] at hnew
  -- both signs of the next id differ from `p` in the lowest bit
  have hne : |Traffic.idWord settings (receive mBufLen mBuf d)| ≠ p + 1 := by
    intro h
    rcases le_total 0 (Traffic.idWord settings (receive mBufLen mBuf d)) with hsign | hsign
    · rw [abs_of_nonneg hsign] at h
      omega
    · rw [abs_of_nonpos hsign] at h
      omega
  refine ⟨abs_pos.mpr fun hzero => ?_, hne⟩
  -- the upper bytes change only when the last one runs over, and then the id is not zero
  obtain ⟨base, hbytes⟩ := carries.bytes
  have hold := congrArg BitVec.toNat holds.id
  have hsent := congrArg BitVec.toNat (be32_writePacketID base sent.packetID).1
  rw [← hbytes, hnext, Buf.be32_toNat, BitVec.toNat_ofInt] at hsent
  rw [Buf.be32_toNat, BitVec.toNat_ofInt] at hold
  simp only [Nat.zero_add] at hold hsent
  have hupper : ∀ i < 3, d.bytes i = mBuf i := fun i hi => by
    apply BitVec.eq_of_toNat_eq
    have hi : i = 0 ∨ i = 1 ∨ i = 2 := by omega
    rcases hi with rfl | rfl | rfl <;> omega
  have hsame : receive mBufLen mBuf d = mBuf := funext fun i => by
    by_cases hi : i < 3
    · unfold receive
      rw [hupper i hi, ite_self]
    · exact hbehind i (by omega)
  rw [hsame, holds.idWord] at hzero
  have := holds.pos
  omega

end

/-- Ids in order up to a short datagram. -/
theorem foldl_readIds_short {settings : UdpSettings} {mBufLen : Nat} {pre post : List Datagram} {d : Datagram}
    (hshort : min d.len mBufLen < 4) {mBuf : Buf} {sents : List Sent}
    (carries : List.Forall₂ Carries (pre ++ d :: post) sents) {p : Int} (hp : 0 ≤ p) {more : List Int}
    (hids : sents.map (·.packetID) = idsFrom (p + 1) (pre.length + 1) ++ more)
    (complete : Complete settings mBufLen mBuf pre) (hreach : p + pre.length < idLimit settings)
    (holds : pre = [] → Holds settings p mBuf) :
    ((readIds settings mBufLen mBuf (pre ++ d :: post)).foldl Tally.add ⟨p, 0, 0⟩).Broken := by
  induction pre generalizing p mBuf sents with
  | nil =>
    cases carries with
    | @cons _ sent _ _ hd carries =>
      rw [List.map_cons, idsFrom_succ, List.cons_append] at hids
      obtain ⟨hpos, hne⟩ := (holds rfl).stale hd (List.cons.inj hids).1 hshort
      refine Tally.Broken.foldl (Tally.Nonneg.add_broken ?_ hpos hne) _
      exact ⟨hp, le_rfl, le_rfl⟩
  | cons d' pre ih =>
    cases carries with
    | @cons _ sent _ _ hd carries =>
      rw [List.length_cons, List.map_cons, idsFrom_succ, List.cons_append] at hids
      obtain ⟨hid, hids⟩ := List.cons.inj hids
      obtain ⟨whole, complete⟩ := complete
      rw [List.length_cons] at hreach
      push_cast at hreach
      have hholds : Holds settings (p + 1) (receive mBufLen mBuf d') := by
        rw [← hid]
        exact whole.holds hd (by omega) (by omega)
      rw [List.cons_append, readIds, hholds.idWord, abs_of_nonneg (by omega), if_neg (by omega), List.foldl_cons,
        Tally.add_next p hp]
      exact ih carries (by omega) hids complete (by omega) fun _ => hholds

/-! ## The whole test -/

/-- The FIN has the id of the last datagram, and the server reads it: a fatal write error ended `RunUDP`, the socket
took a datagram before it and the FIN after it, and no id before was read as negative. -/
structure RepeatsId (server : UdpSettings) (first : Option WriteResult) (writes : List Write) (fin : Write) : Prop where
  fatal : writes.any (·.result.isFatal) = true
  sent : 0 < firstCount first + sentBefore writes
  fin : fin.result.isAccepted = true
  reached : (firstCount first + sentBefore writes : Nat) < idLimit server

/-- The tally of a test with `n` datagrams and a FIN that may repeat the last id. -/
theorem foldl_test (server : UdpSettings) (n : Nat) (back : Bool) (result : WriteResult) :
    let t := (postedIds server (idsFrom 1 n ++
      (result.sent (-(1 + n - (if back then 1 else 0)))).map (·.packetID))).foldl Tally.add ⟨0, 0, 0⟩
    t.lost = 0 ∧ (t.outofOrder = 0 ↔
      ¬ (back = true ∧ 0 < n ∧ result.isAccepted = true ∧ (n : Int) < idLimit server)) := by
  have hpos : 0 < idLimit server := by
    unfold idLimit
    split <;> decide
  have hfold := foldl_postedIds server (p := 0) (Int.le_refl 0) n
    ((result.sent (-(1 + n - (if back then 1 else 0)))).map (·.packetID)) hpos
  rw [zero_add, zero_add] at hfold
  intro t
  have ht : t = _ := hfold
  rw [ht]
  by_cases hreach : (n : Int) < idLimit server
  · rw [if_pos hreach]
    cases result with
    | failed fatal => simp [WriteResult.sent, postedIds, WriteResult.isAccepted]
    | accepted len =>
      have hk : 0 ≤ (1 + (n : Int) - (if back then 1 else 0)) ∧
          (1 + (n : Int) - (if back then 1 else 0)) ≤ idLimit server := by
        split <;> omega
      rw [WriteResult.sent, List.map_cons, List.map_nil, postedIds_fin server hk.1 hk.2, List.foldl_cons,
        List.foldl_nil]
      cases back with
      | false =>
        have hnext : (1 + (n : Int) - (if false = true then 1 else 0)) = n + 1 := by simp; omega
        rw [hnext, Tally.add_next _ (by omega)]
        simp
      | true =>
        have hagain : (1 + (n : Int) - (if true = true then 1 else 0)) = n := by simp
        rw [hagain, Tally.add]
        by_cases hn : n = 0
        · subst hn
          simp
        · rw [if_neg (by omega), if_neg (by dsimp only; omega), if_pos (by dsimp only; omega)]
          simp [WriteResult.isAccepted, hreach, Nat.pos_of_ne_zero hn]
  · rw [if_neg hreach]
    simp [hreach]

/-- A datagram before the FIN brings fewer than the 4 bytes of its id, after others whose ids were whole. -/
def CutsId (server : UdpSettings) (mBufLen : Nat) (mBuf : Buf) (sent : Nat) (wire : List Datagram) : Prop :=
  ∃ pre d post, wire = pre ++ d :: post ∧ pre ≠ [] ∧ Complete server mBufLen mBuf pre ∧ min d.len mBufLen < 4 ∧
    pre.length < sent ∧ (pre.length : Int) < idLimit server

/-- The ids of a whole test. -/
theorem clientSent_ids (settings : ClientSettings) (mAmount : Int) (startTime : Timeval) (first : Option WriteResult)
    (loop : SendLoop) (fin : Write) :
    let n := (dataSent settings mAmount startTime first loop).length
    (clientSent settings mAmount startTime first loop fin).map (·.packetID) = idsFrom 1 n ++
        (fin.result.sent (-(1 + n - (if loop.endsBack then 1 else 0)))).map (·.packetID) ∧
      ∀ writes, loop = .udp writes → n = firstCount first + sentBefore writes := by
  obtain ⟨n, hids, hlast, hcount⟩ := dataSent_ids settings mAmount startTime first loop
  have hlength : (dataSent settings mAmount startTime first loop).length = n := by
    have := congrArg List.length hids
    simpa [idsFrom] using this
  intro n'
  have hn : n' = n := hlength
  rw [hn]
  refine ⟨?_, hcount⟩
  unfold clientSent
  rw [List.map_append, hids, hlast]

/-- The first datagram has a positive id, or it is a FIN and the only one. -/
theorem start_positive {server : UdpSettings} {mBuf : Buf} {d : Datagram} {ds : List Datagram} {sents : List Sent}
    (carries : List.Forall₂ Carries (d :: ds) sents) {n : Nat} {result : WriteResult} {p : Int}
    (hids : sents.map (·.packetID) = idsFrom 1 n ++ (result.sent p).map (·.packetID)) (whole : Whole server mBuf d) :
    0 ≤ idWord server mBuf ∨ ds = [] := by
  cases carries with
  | @cons _ sent _ _ hd carries =>
    cases n with
    | zero =>
      right
      have hlen := congrArg List.length hids
      have hone : (result.sent p).length ≤ 1 := by cases result <;> simp [WriteResult.sent]
      have hds := carries.length_eq
      simp only [idsFrom, List.range_zero, List.map_nil, List.nil_append, List.length_map, List.length_cons] at hlen
      exact List.eq_nil_of_length_eq_zero (by omega)
    | succ n =>
      left
      rw [List.map_cons, idsFrom_succ, List.cons_append] at hids
      have hone := idRead_of_lt server (k := 1) (by unfold idLimit; split <;> omega) (by unfold idLimit; split <;> omega)
      rw [whole.idWord hd, (List.cons.inj hids).1, hone]
      omega

theorem repeatsId_iff {server : UdpSettings} {first : Option WriteResult} {loop : SendLoop} {fin : Write} {n : Nat}
    (hcount : ∀ writes, loop = .udp writes → n = firstCount first + sentBefore writes) :
    (∃ writes, loop = .udp writes ∧ RepeatsId server first writes fin) ↔
      loop.endsBack = true ∧ 0 < n ∧ fin.result.isAccepted = true ∧ (n : Int) < idLimit server := by
  cases loop with
  | udp writes =>
    rw [hcount writes rfl]
    constructor
    · rintro ⟨writes', h, hrepeats⟩
      cases h
      exact ⟨hrepeats.fatal, hrepeats.sent, hrepeats.fin, hrepeats.reached⟩
    · rintro ⟨hfatal, hsent, hfin, hreached⟩
      exact ⟨writes, rfl, hfatal, hsent, hfin, hreached⟩
  | isochronous frames =>
    constructor
    · rintro ⟨writes', h, -⟩
      cases h
    · rintro ⟨hback, -⟩
      cases hback

/-- The counters of a server, on the ids that it reads. -/
theorem server_tally {server : UdpSettings} {mBufLen : Nat} {mBuf : Buf} {listener : Option Datagram}
    {arrivals : List Arrival} (hlen : ∀ d ∈ listener.toList ++ datagrams arrivals, 0 < min d.len mBufLen)
    (start : ∀ d ∈ listener, 0 ≤ idWord server (receive mBufLen mBuf d) ∨ datagrams arrivals = [])
    {stats : TransferInfo} (fresh : Fresh .serverUdp stats) {events : List FlowEvent}
    (posted : records events = serverRecords server mBufLen mBuf listener arrivals) :
    (¬ CountsEmpty stats events → tallyOf (flowRun .serverUdp stats events) =
        (readIds server mBufLen mBuf (listener.toList ++ datagrams arrivals)).foldl Tally.add ⟨0, 0, 0⟩) ∧
      (CountsEmpty stats events → (tallyOf (flowRun .serverUdp stats events)).Broken) := by
  obtain ⟨hids, hchained⟩ := serverRecords_ids server mBuf hlen start
  have htally : tallyOf stats = ⟨0, 0, 0⟩ := by
    rw [tallyOf, fresh.total, fresh.PacketID]
    rfl
  have h := flowRun_tally (fresh.sampled (.inl rfl)) (posted ▸ hchained) (by rw [fresh.PacketID])
    (by rw [htally]; exact ⟨le_rfl, le_rfl, le_rfl⟩)
  rwa [posted, hids, htally] at h

/-- Every datagram has at least one byte. -/
theorem carries_len {wire : List Datagram} {sents : List Sent} (carries : List.Forall₂ Carries wire sents)
    {mBufLen : Nat} (hbuf : 0 < mBufLen) : ∀ d ∈ wire, 0 < min d.len mBufLen := by
  induction carries with
  | nil => exact fun d hd => by cases hd
  | @cons d sent wire sents hd carries ih =>
    intro d' hd'
    rcases List.mem_cons.mp hd' with rfl | hd'
    · have hpos := sent.pos
      rw [hd.len]
      omega
    · exact ih d' hd'

/-- **Sequence numbers.** For every run of a UDP client and its FIN, of which the network delivers what the socket
took, once and in order, and every server with its timeouts: when all ids are whole in the buffer of the server,
nothing is lost or out of order exactly if the reporter accounts no empty record and the FIN does not repeat the id of
the last datagram. An id that is cut is never in order. -/
theorem udp_sequence_numbers (settings : ClientSettings) (mAmount : Int) (startTime : Timeval)
    (first : Option WriteResult) (loop : SendLoop) (fin : Write) (server : UdpSettings) {mBufLen : Nat}
    (hbuf : 0 < mBufLen) (mBuf : Buf) {listener : Option Datagram} {arrivals : List Arrival}
    (carries : List.Forall₂ Carries (listener.toList ++ datagrams arrivals)
      (clientSent settings mAmount startTime first loop fin))
    {stats : TransferInfo} (fresh : Fresh .serverUdp stats) {events : List FlowEvent}
    (posted : records events = serverRecords server mBufLen mBuf listener arrivals) :
    let wire := listener.toList ++ datagrams arrivals
    let after := flowRun .serverUdp stats events
    let inOrder := after.total.Lost.current = 0 ∧ after.total.OutofOrder.current = 0
    (Complete server mBufLen mBuf wire → (inOrder ↔
        ¬ CountsEmpty stats events ∧ ¬ ∃ writes, loop = .udp writes ∧ RepeatsId server first writes fin)) ∧
      (CutsId server mBufLen mBuf (dataSent settings mAmount startTime first loop).length wire → ¬ inOrder) := by
  obtain ⟨hids, hcount⟩ := clientSent_ids settings mAmount startTime first loop fin
  intro wire after inOrder
  have hbroken : (tallyOf after).Broken → ¬ inOrder := by
    rintro (hlost | hout) ⟨hlost', hout'⟩
    · exact absurd hlost' (ne_of_gt hlost)
    · exact absurd hout' (ne_of_gt hout)
  have hlen := carries_len carries hbuf
  have hstart : (∀ d ∈ wire.head?, Whole server (receive mBufLen mBuf d) d) →
      ∀ d ∈ listener, 0 ≤ idWord server (receive mBufLen mBuf d) ∨ datagrams arrivals = [] := by
    intro hfirst d hd
    have hsome : listener = some d := hd
    subst hsome
    exact start_positive carries hids (hfirst d rfl)
  refine ⟨fun complete => ?_, ?_⟩
  · obtain ⟨htally, hcounted⟩ := server_tally hlen (hstart complete.head) fresh posted
    by_cases hcounts : CountsEmpty stats events
    · exact iff_of_false (hbroken (hcounted hcounts)) fun h => h.1 hcounts
    · have hread := htally hcounts
      rw [readIds_complete carries complete, hids] at hread
      obtain ⟨hlost, hout⟩ := foldl_test server (dataSent settings mAmount startTime first loop).length loop.endsBack
        fin.result
      rw [← hread] at hlost hout
      rw [and_iff_right hcounts, repeatsId_iff hcount, ← hout]
      exact and_iff_right hlost
  · rintro ⟨pre, d, post, hwire, hpre, complete, hshort, hsent, hreach⟩
    have hfirst : ∀ d ∈ wire.head?, Whole server (receive mBufLen mBuf d) d := by
      rw [hwire, List.head?_append_of_ne_nil _ hpre]
      exact complete.head
    obtain ⟨htally, hcounted⟩ := server_tally hlen (hstart hfirst) fresh posted
    by_cases hcounts : CountsEmpty stats events
    · exact hbroken (hcounted hcounts)
    · refine hbroken ?_
      obtain ⟨k, hk⟩ := Nat.exists_eq_add_of_lt hsent
      have hsplit : idsFrom 1 (dataSent settings mAmount startTime first loop).length =
          idsFrom (0 + 1) (pre.length + 1) ++ idsFrom (1 + (pre.length + 1 : Nat)) k := by
        rw [zero_add, idsFrom_append, hk]
        congr 1
        omega
      rw [hsplit, List.append_assoc] at hids
      have hwire' : listener.toList ++ datagrams arrivals = pre ++ d :: post := hwire
      have hread := htally hcounts
      rw [hwire'] at hread carries
      show (tallyOf (flowRun .serverUdp stats events)).Broken
      rw [hread]
      exact foldl_readIds_short hshort carries (Int.le_refl 0) hids complete (by omega) fun h => absurd h hpre

/-! One write and the FIN are taken, without and with a fatal error between them. -/

/-- The datagram of what was sent, in a buffer that is zero elsewhere. -/
def onWire (sent : Sent) : Datagram where
  bytes := writePacketID Buf.zero sent.packetID
  len := sent.len

theorem carries_onWire (sents : List Sent) : List.Forall₂ Carries (sents.map onWire) sents := by
  induction sents with
  | nil => exact .nil
  | cons sent sents ih => exact .cons ⟨⟨Buf.zero, rfl⟩, rfl⟩ ih

/-- A test with these writes of `RunUDP`. -/
def sentBy (writes : List Write) : List Sent := clientSent clientSettings 0 ⟨1, 0⟩ none (.udp writes) acceptedWrite

/-- Its datagrams, as the loop of a server reads them. -/
def arrivalsOf (writes : List Write) : List Arrival :=
  (sentBy writes).map fun sent => .datagram (onWire sent) none 0 ⟨1, 0⟩

/-- The records of that server. -/
def eventsOf (writes : List Write) : List FlowEvent :=
  (serverRecords plain 1470 Buf.zero none (arrivalsOf writes)).map .packet

def fatalWrite : Write where
  now := ⟨1, 0⟩
  result := .failed true

theorem udp_sequence_numbers_one :
    let after := flowRun .serverUdp udpServerInfo (eventsOf [acceptedWrite])
    (after.total.Lost.current = 0 ∧ after.total.OutofOrder.current = 0) ∧
      ¬ CutsId plain 1470 Buf.zero 1 (datagrams (arrivalsOf [acceptedWrite])) := by
  have hcarries : List.Forall₂ Carries ((none : Option Datagram).toList ++ datagrams (arrivalsOf [acceptedWrite]))
      (sentBy [acceptedWrite]) := carries_onWire (sentBy [acceptedWrite])
  have hposted : records (eventsOf [acceptedWrite]) =
      serverRecords plain 1470 Buf.zero none (arrivalsOf [acceptedWrite]) := rfl
  have h := udp_sequence_numbers clientSettings 0 ⟨1, 0⟩ none (.udp [acceptedWrite]) acceptedWrite plain (by decide)
    Buf.zero hcarries (initIndividualReport_fresh udpServer none none) hposted
  have hcomplete : Complete plain 1470 Buf.zero (datagrams (arrivalsOf [acceptedWrite])) :=
    complete_of_whole plain (by decide) (by decide) Buf.zero
  have hempty : ¬ CountsEmpty udpServerInfo (eventsOf [acceptedWrite]) := by
    rintro (⟨h, -⟩ | ⟨h, -⟩ | h)
    · cases h
    · cases h
    · exact h
  have hrepeats : ¬ ∃ writes, SendLoop.udp [acceptedWrite] = .udp writes ∧
      RepeatsId plain none writes acceptedWrite := by
    rintro ⟨writes, h, hrepeats⟩
    cases h
    exact absurd hrepeats.fatal (by decide)
  have hin := (h.1 hcomplete).mpr ⟨hempty, hrepeats⟩
  exact ⟨hin, fun hcut => h.2 hcut hin⟩

theorem udp_sequence_numbers_fails :
    List.Forall₂ Carries (datagrams (arrivalsOf [acceptedWrite, fatalWrite])) (sentBy [acceptedWrite, fatalWrite]) ∧
      records (eventsOf [acceptedWrite, fatalWrite]) =
        serverRecords plain 1470 Buf.zero none (arrivalsOf [acceptedWrite, fatalWrite]) ∧
      (flowRun .serverUdp udpServerInfo (eventsOf [acceptedWrite, fatalWrite])).total.OutofOrder.current = 1 :=
  ⟨carries_onWire (sentBy [acceptedWrite, fatalWrite]), rfl, by decide⟩

end Iperf2.Traffic
