import Iperf2.Traffic.Sent
import Iperf2.Traffic.Server
import Iperf2.Lib.Bytes

/-!
# Datagrams that a UDP server reads

The network delivers what the socket took, once and in order; between two datagrams a read may time out. The server
reads an id from its buffer, which has what earlier datagrams left in it behind a short one.

* `serverRecords` : the records that the server posts, with the loop's body of `runUDP`;
* `Complete` : every id is in the buffer with all its bytes;
* `packet_id_codec` : an id that the client packed is read back, without its sign;
* `serverRecords_ids` : the ids of the records that are not empty; `serverRecords_chained`, an empty one has the id of
  the record before it.
-/

namespace Iperf2.Traffic
open Report

/-! ## What the server reads -/

/-- A datagram on the wire. -/
structure Datagram where
  bytes : Buf
  len : Nat

/-- `Client::WritePacketID` -/
def writePacketID (mBuf : Buf) (packetID : Int) : Buf :=
  let id := BitVec.ofInt 64 packetID
  (mBuf.store32 0 (id.extractLsb' 0 32)).store32 12 (id.extractLsb' 32 32)

/-- The client wrote this datagram, with times and payload that do not matter here. -/
structure Carries (d : Datagram) (sent : Sent) : Prop where
  bytes : ∃ mBuf, d.bytes = writePacketID mBuf sent.packetID
  len : d.len = sent.len

/-- The buffer of the server after a `recvmsg`: a short datagram leaves what is behind it. -/
def receive (mBufLen : Nat) (mBuf : Buf) (d : Datagram) : Buf := fun i =>
  if i < min d.len mBufLen then d.bytes i else mBuf i

/-- The words of the buffer. -/
def udpDatagram (mBuf : Buf) : UdpDatagram where
  id := mBuf.be32 0
  tvSec := mBuf.be32 4
  tvUsec := mBuf.be32 8
  id2 := mBuf.be32 12
  isoch := {
    burstperiod := mBuf.be32 76
    startTvSec := mBuf.be32 80
    startTvUsec := mBuf.be32 84
    prevframeid := mBuf.be32 88
    frameid := mBuf.be32 92
    burstsize := mBuf.be32 96
    remaining := mBuf.be32 100 }

/-- What a read of the server finds: the next datagram, as it was sent, or nothing before the timeout. -/
inductive Arrival
  | datagram (d : Datagram) (timestamp : Option Timeval) (udplen : BitVec 16) (now : Timeval)
  | timeout (now : Timeval)

/-- The buffer after the read. -/
def Arrival.buffer (mBufLen : Nat) (mBuf : Buf) : Arrival → Buf
  | .datagram d .. => receive mBufLen mBuf d
  | .timeout _ => mBuf

/-- The read, when the buffer is `mBuf` after it. -/
def Arrival.read (mBufLen : Nat) (mBuf : Buf) : Arrival → UdpRead
  | .datagram d timestamp udplen now => {
      currLen := (min d.len mBufLen : Nat)
      timestamp
      fatal := false
      now
      datagram := udpDatagram mBuf
      frame := ⟨udplen, false, false⟩ }
  | .timeout now => {
      currLen := -1
      timestamp := none
      fatal := false
      now
      datagram := udpDatagram mBuf
      frame := default }

/-- The records that the loop of `Server::RunUDP` posts, up to the one of the last packet. -/
def loopRecords (settings : UdpSettings) (mBufLen : Nat) (mBuf : Buf) (s : UdpServer) :
    List Arrival → List ReportStruct
  | [] => []
  | a :: as =>
    let mBuf := a.buffer mBufLen mBuf
    let s := runUDP settings s (a.read mBufLen mBuf)
    s.reportstruct :: if s.lastpacket then [] else loopRecords settings mBufLen mBuf s as

/-- The record of the datagram that the `Listener` reads; `InitTrafficLoop` posts it whatever `ReadPacketID`
returns. -/
def firstRecord (settings : UdpSettings) (mBufLen : Nat) (mBuf : Buf) (d : Datagram) : ReportStruct :=
  (readPacketID settings { (default : ReportStruct) with packetLen := (min d.len mBufLen : Nat) }
    (udpDatagram (receive mBufLen mBuf d))).1

/-- All records of a server, whose first datagram the `Listener` may read. -/
def serverRecords (settings : UdpSettings) (mBufLen : Nat) (mBuf : Buf) (listener : Option Datagram)
    (arrivals : List Arrival) : List ReportStruct :=
  match listener with
  | none => loopRecords settings mBufLen mBuf default arrivals
  | some d =>
    firstRecord settings mBufLen mBuf d :: loopRecords settings mBufLen (receive mBufLen mBuf d)
      { (default : UdpServer) with reportstruct := firstRecord settings mBufLen mBuf d } arrivals

/-- The datagrams among the arrivals. -/
def datagrams (arrivals : List Arrival) : List Datagram :=
  arrivals.filterMap fun
    | .datagram d .. => some d
    | .timeout _ => none

/-- The id in the buffer is the one of the datagram, with no byte left from an earlier one. -/
def Whole (settings : UdpSettings) (mBuf : Buf) (d : Datagram) : Prop :=
  mBuf.be32 0 = d.bytes.be32 0 ∧ (settings.isSeqNo64b → mBuf.be32 12 = d.bytes.be32 12)

/-- All ids are whole as they are read. -/
def Complete (settings : UdpSettings) (mBufLen : Nat) (mBuf : Buf) : List Datagram → Prop
  | [] => True
  | d :: ds => Whole settings (receive mBufLen mBuf d) d ∧ Complete settings mBufLen (receive mBufLen mBuf d) ds

theorem Complete.head {settings : UdpSettings} {mBufLen : Nat} {mBuf : Buf} {wire : List Datagram}
    (complete : Complete settings mBufLen mBuf wire) : ∀ d ∈ wire.head?, Whole settings (receive mBufLen mBuf d) d := by
  cases wire with
  | nil => exact fun d hd => by cases hd
  | cons d ds =>
    intro d' hd'
    cases hd'
    exact complete.1

/-- Datagrams with their whole `UDP_datagram` are complete. -/
theorem complete_of_whole (settings : UdpSettings) {mBufLen : Nat} (hbuf : 16 ≤ mBufLen) {wire : List Datagram}
    (whole : ∀ d ∈ wire, 16 ≤ d.len) (mBuf : Buf) : Complete settings mBufLen mBuf wire := by
  induction wire generalizing mBuf with
  | nil => trivial
  | cons d ds ih =>
    have hlen := whole d (List.mem_cons_self ..)
    have hread : ∀ i < 16, receive mBufLen mBuf d i = d.bytes i := fun i hi => if_pos (by omega)
    refine ⟨⟨?_, fun _ => ?_⟩, ih (fun d' hd' => whole d' (List.mem_cons_of_mem _ hd')) _⟩
    · exact Buf.be32_congr fun i _ hi => hread i (by omega)
    · exact Buf.be32_congr fun i _ hi => hread i (by omega)

/-! ## The ids it reads -/

/-- The id that `ReadPacketID` makes of the words of `packetID`. -/
def idRead (settings : UdpSettings) (packetID : Int) : Int :=
  if settings.isSeqNo64b then (BitVec.ofInt 64 packetID).toInt else (BitVec.ofInt 32 packetID).toInt

/-- The ids below this one are positive as they are read. -/
def idLimit (settings : UdpSettings) : Int := if settings.isSeqNo64b then 9223372036854775808 else 2147483648

theorem append_words (x : BitVec 64) : x.extractLsb' 32 32 ++ x.extractLsb' 0 32 = x := by
  apply BitVec.eq_of_getLsbD_eq
  intro i hi
  simp only [BitVec.getLsbD_append, BitVec.getLsbD_extractLsb']
  grind

theorem low_word (k : Int) : (BitVec.ofInt 64 k).extractLsb' 0 32 = BitVec.ofInt 32 k := by
  apply BitVec.eq_of_toNat_eq
  simp only [BitVec.extractLsb'_toNat, BitVec.toNat_ofInt, Nat.shiftRight_zero]
  omega

theorem idRead_of_lt (settings : UdpSettings) {k : Int} (hle : -idLimit settings ≤ k) (hlt : k < idLimit settings) :
    idRead settings k = k := by
  unfold idRead
  unfold idLimit at hle hlt
  split
  · rename_i h
    rw [if_pos h] at hle hlt
    rw [BitVec.toInt_ofInt]
    exact Int.bmod_eq_of_le (by omega) (by omega)
  · rename_i h
    rw [if_neg h] at hle hlt
    rw [BitVec.toInt_ofInt]
    exact Int.bmod_eq_of_le (by omega) (by omega)

theorem idRead_limit (settings : UdpSettings) : idRead settings (idLimit settings) = -idLimit settings := by
  unfold idRead idLimit
  split <;> decide

theorem be32_writePacketID (mBuf : Buf) (packetID : Int) :
    (writePacketID mBuf packetID).be32 0 = BitVec.ofInt 32 packetID ∧
      (writePacketID mBuf packetID).be32 12 = (BitVec.ofInt 64 packetID).extractLsb' 32 32 := by
  unfold writePacketID
  refine ⟨?_, Buf.be32_store ..⟩
  rw [Buf.store32, Buf.be32_store_of_disjoint (.inl (by decide)), ← low_word]
  exact Buf.be32_store ..

/-- The id in the words of the buffer. -/
def idWord (settings : UdpSettings) (mBuf : Buf) : Int :=
  if settings.isSeqNo64b then (mBuf.be32 12 ++ mBuf.be32 0).toInt else (mBuf.be32 0).toInt

theorem idWord_writePacketID (settings : UdpSettings) (mBuf : Buf) (packetID : Int) :
    idWord settings (writePacketID mBuf packetID) = idRead settings packetID := by
  obtain ⟨hlow, hhigh⟩ := be32_writePacketID mBuf packetID
  rw [idWord, idRead, hlow, hhigh]
  split
  · rw [← low_word, append_words]
  · rfl

/-- A whole id is read as it was written. -/
theorem Whole.idWord {settings : UdpSettings} {mBuf : Buf} {d : Datagram} {sent : Sent} (whole : Whole settings mBuf d)
    (carries : Carries d sent) : idWord settings mBuf = idRead settings sent.packetID := by
  obtain ⟨base, hbytes⟩ := carries.bytes
  have hsame : Traffic.idWord settings mBuf = Traffic.idWord settings d.bytes := by
    unfold Traffic.idWord
    split
    · rename_i h
      rw [whole.1, whole.2 h]
    · rw [whole.1]
  rw [hsame, hbytes, idWord_writePacketID]

/-- `ReadPacketID` takes the sign off the id, and stops on a negative one. -/
theorem readPacketID_word (settings : UdpSettings) (reportstruct : ReportStruct) (mBuf : Buf) :
    (readPacketID settings reportstruct (udpDatagram mBuf)).1.packetID = |idWord settings mBuf| ∧
      (readPacketID settings reportstruct (udpDatagram mBuf)).1.emptyreport = reportstruct.emptyreport ∧
      ((readPacketID settings reportstruct (udpDatagram mBuf)).2 = true ↔ idWord settings mBuf < 0) := by
  refine ⟨?_, rfl, ?_⟩
  · show (if idWord settings mBuf < 0 then -idWord settings mBuf else idWord settings mBuf) = _
    split
    · rename_i h
      exact (abs_of_neg h).symm
    · rename_i h
      exact (abs_of_nonneg (not_lt.mp h)).symm
  · show decide (idWord settings mBuf < 0) = true ↔ _
    rw [decide_eq_true_iff]

/-- **The id of a datagram** comes back with its sign taken off, and the sign ends the test. A reader of the first
word alone finds the same for ids below `2 ^ 31`. -/
theorem packet_id_codec (settings : UdpSettings) (mBuf : Buf) (reportstruct : ReportStruct) (packetID : Int)
    (hlo : -9223372036854775808 < packetID) (hhi : packetID < 9223372036854775808) :
    let datagram := udpDatagram (writePacketID mBuf packetID)
    let read := readPacketID { settings with isSeqNo64b := true } reportstruct datagram
    let legacy := readPacketID { settings with isSeqNo64b := false } reportstruct datagram
    (read.1.packetID = |packetID| ∧ (read.2 = true ↔ packetID < 0)) ∧
      (|packetID| < 2147483648 → legacy.1.packetID = |packetID| ∧ (legacy.2 = true ↔ packetID < 0)) := by
  intro datagram read legacy
  have hread : ∀ settings : UdpSettings, -idLimit settings ≤ packetID → packetID < idLimit settings →
      (readPacketID settings reportstruct datagram).1.packetID = |packetID| ∧
        ((readPacketID settings reportstruct datagram).2 = true ↔ packetID < 0) := by
    intro settings hle hlt
    obtain ⟨hid, -, hneg⟩ := readPacketID_word settings reportstruct (writePacketID mBuf packetID)
    rw [idWord_writePacketID, idRead_of_lt settings hle hlt] at hid hneg
    exact ⟨hid, hneg⟩
  refine ⟨hread _ ?_ ?_, fun hlegacy => ?_⟩
  · simp only [idLimit, if_true]
    omega
  · simp only [idLimit, if_true]
    omega
  · obtain ⟨hlo', hhi'⟩ := abs_lt.mp hlegacy
    apply hread
    · simp only [idLimit, Bool.false_eq_true, if_false]
      omega
    · simp only [idLimit, Bool.false_eq_true, if_false]
      omega

/-- The last packet of a long test, with an id of more than 32 bits. -/
theorem packet_id_codec_fin :
    let settings : UdpSettings := ⟨false, false, true, 0⟩
    let read := readPacketID settings default (udpDatagram (writePacketID Buf.zero (-4294967297)))
    read.1.packetID = 4294967297 ∧ read.2 = true := by
  intro settings read
  obtain ⟨⟨hid, hneg⟩, -⟩ := packet_id_codec settings Buf.zero default (-4294967297) (by decide) (by decide)
  exact ⟨hid.trans (by decide), hneg.mpr (by decide)⟩

/-! ## The loop -/

/-- The loop goes on, and the L2 checks found nothing. -/
structure Running (s : UdpServer) : Prop where
  peerclose : s.peerclose = false
  lastpacket : s.lastpacket = false
  known : s.reportstruct.l2errors.unknown = false

/-- A frame without errors stays known. -/
theorem l2Check_known (settings : UdpSettings) {reportstruct : ReportStruct} (rxlen : Int) (udplen : BitVec 16)
    (known : reportstruct.l2errors.unknown = false) :
    (l2Check settings reportstruct rxlen ⟨udplen, false, false⟩).l2errors.unknown = false ∧
      (l2Check settings reportstruct rxlen ⟨udplen, false, false⟩).emptyreport = false := by
  unfold l2Check
  split
  · simp only [l2Processing]
    split_ifs <;> simp_all
  · exact ⟨known, rfl⟩

theorem readDatagram_spec (settings : UdpSettings) (s : UdpServer) (rxlen : Int) (mBuf : Buf) :
    let after := readDatagram settings s rxlen (udpDatagram mBuf)
    after.reportstruct.packetID = |idWord settings mBuf| ∧
      (after.lastpacket = true ↔ idWord settings mBuf < 0) ∧ after.peerclose = s.peerclose ∧
      after.reportstruct.l2errors = s.reportstruct.l2errors := by
  obtain ⟨hread, -, hneg⟩ := readPacketID_word settings { s.reportstruct with
    prevSentTime := s.prevsendTime
    prevPacketTime := s.prevpacketTime } mBuf
  refine ⟨?_, hneg, rfl, ?_⟩
  · rw [← hread]
    simp only [readDatagram, udpIsochProcessing]
    split_ifs <;> rfl
  · simp only [readDatagram, udpIsochProcessing, readPacketID]
    split_ifs <;> rfl

theorem processDatagram_spec (settings : UdpSettings) {s : UdpServer} (rxlen : Int) {read : UdpRead} {mBuf : Buf}
    {udplen : BitVec 16} (hdatagram : read.datagram = udpDatagram mBuf) (hframe : read.frame = ⟨udplen, false, false⟩)
    (running : Running s) :
    let after := processDatagram settings s rxlen read
    after.reportstruct.packetID = |idWord settings mBuf| ∧ after.reportstruct.emptyreport = false ∧
      (after.lastpacket = true ↔ idWord settings mBuf < 0) ∧ after.peerclose = false ∧
      after.reportstruct.l2errors.unknown = false := by
  obtain ⟨hknown, hempty⟩ := l2Check_known settings rxlen udplen running.known
  obtain ⟨hid, hlast, hpeer, hl2⟩ := readDatagram_spec settings { s with
    reportstruct := l2Check settings s.reportstruct rxlen ⟨udplen, false, false⟩ } rxlen mBuf
  unfold processDatagram
  rw [hdatagram, hframe, if_neg (by simp [hknown])]
  refine ⟨hid, ?_, hlast, ?_, ?_⟩
  · rw [readDatagram_emptyreport, hempty]
  · rw [hpeer, running.peerclose]
  · rw [hl2, hknown]

/-- A read that is neither empty nor fatal. -/
theorem readWithRxTimestamp_spec {s : UdpServer} (read : UdpRead) (hfatal : read.fatal = false)
    (hlen : read.currLen ≠ 0) (running : Running s) (hempty : s.reportstruct.emptyreport = true) :
    Running (readWithRxTimestamp s read).1 ∧ (readWithRxTimestamp s read).2 = read.currLen ∧
      (readWithRxTimestamp s read).1.reportstruct.packetID = s.reportstruct.packetID ∧
      (readWithRxTimestamp s read).1.reportstruct.emptyreport = true := by
  unfold readWithRxTimestamp
  have hkeep : (if read.currLen < 0 ∧ read.fatal = true then 0 else read.currLen) = read.currLen :=
    if_neg (by simp [hfatal])
  dsimp only
  rw [hkeep, if_neg hlen, hempty, ite_self]
  refine ⟨?_, rfl, rfl, rfl⟩
  exact {
    peerclose := running.peerclose
    lastpacket := running.lastpacket
    known := running.known }

section
variable (settings : UdpSettings) (mBufLen : Nat) (mBuf : Buf) {s : UdpServer}

/-- The record is emptied before the read. -/
theorem Running.emptied (running : Running s) : Running { s with reportstruct := { s.reportstruct with
    emptyreport := true
    packetLen := 0 } } where
  peerclose := running.peerclose
  lastpacket := running.lastpacket
  known := running.known

/-- A datagram gives a full record, and its sign ends the loop. -/
theorem runUDP_datagram (running : Running s) {d : Datagram} (hlen : 0 < min d.len mBufLen)
    (timestamp : Option Timeval) (udplen : BitVec 16) (now : Timeval) :
    let after := runUDP settings s (Arrival.read mBufLen mBuf (.datagram d timestamp udplen now))
    after.reportstruct.packetID = |idWord settings mBuf| ∧ after.reportstruct.emptyreport = false ∧
      (after.lastpacket = true ↔ idWord settings mBuf < 0) ∧ after.peerclose = false ∧
      after.reportstruct.l2errors.unknown = false := by
  obtain ⟨hrunning, hread, -, -⟩ := readWithRxTimestamp_spec
    (Arrival.read mBufLen mBuf (.datagram d timestamp udplen now)) rfl (by simp only [Arrival.read]; omega)
    running.emptied rfl
  have hpos : (0 : Int) < (min d.len mBufLen : Nat) := by omega
  unfold runUDP
  dsimp only
  rw [hread, if_pos ⟨by simp [hrunning.peerclose], hpos⟩]
  exact processDatagram_spec settings _ rfl rfl hrunning

/-- A timeout gives an empty record that keeps the id. -/
theorem runUDP_timeout (running : Running s) (now : Timeval) :
    let after := runUDP settings s (Arrival.read mBufLen mBuf (.timeout now))
    after.reportstruct.packetID = s.reportstruct.packetID ∧ after.reportstruct.emptyreport = true ∧ Running after := by
  obtain ⟨hrunning, hread, hid, hempty⟩ := readWithRxTimestamp_spec
    (Arrival.read mBufLen mBuf (.timeout now)) rfl (show (-1 : Int) ≠ 0 by decide) running.emptied rfl
  have hneg : ¬ (-1 : Int) > 0 := by decide
  unfold runUDP
  dsimp only
  rw [hread, if_neg fun h => hneg h.2]
  exact ⟨hid, hempty, hrunning⟩

end

/-! ## The records -/

/-- The ids that the server posts. -/
def readIds (settings : UdpSettings) (mBufLen : Nat) (mBuf : Buf) : List Datagram → List Int
  | [] => []
  | d :: ds =>
    let mBuf := receive mBufLen mBuf d
    |idWord settings mBuf| :: if idWord settings mBuf < 0 then [] else readIds settings mBufLen mBuf ds

/-- The ids of the records that are not empty. -/
def fullIds (rs : List ReportStruct) : List Int := (rs.filter (!·.emptyreport)).map (·.packetID)

@[simp] theorem fullIds_nil : fullIds [] = [] := rfl

theorem fullIds_full {r : ReportStruct} (h : r.emptyreport = false) (rs : List ReportStruct) :
    fullIds (r :: rs) = r.packetID :: fullIds rs := by
  unfold fullIds
  rw [List.filter_cons_of_pos (by simp [h]), List.map_cons]

theorem fullIds_empty {r : ReportStruct} (h : r.emptyreport = true) (rs : List ReportStruct) :
    fullIds (r :: rs) = fullIds rs := by
  unfold fullIds
  rw [List.filter_cons_of_neg (by simp [h])]

/-- Every empty record has the id of the record before it, the first one the id `last`. -/
def Chained (last : Int) : List ReportStruct → Prop
  | [] => True
  | r :: rs => (r.emptyreport = true → r.packetID = last) ∧ Chained r.packetID rs

section
variable (settings : UdpSettings) {mBufLen : Nat} (mBuf : Buf) {arrivals : List Arrival}

/-- The loop posts a full record for each datagram, up to the first negative id. -/
theorem loopRecords_ids (hlen : ∀ d ∈ datagrams arrivals, 0 < min d.len mBufLen) {s : UdpServer}
    (running : Running s) :
    fullIds (loopRecords settings mBufLen mBuf s arrivals) = readIds settings mBufLen mBuf (datagrams arrivals) ∧
      Chained s.reportstruct.packetID (loopRecords settings mBufLen mBuf s arrivals) := by
  induction arrivals generalizing mBuf s with
  | nil => exact ⟨rfl, trivial⟩
  | cons a arrivals ih =>
    cases a with
    | datagram d timestamp udplen now =>
      have hds : datagrams (.datagram d timestamp udplen now :: arrivals) = d :: datagrams arrivals := rfl
      rw [hds] at hlen ⊢
      obtain ⟨hid, hempty, hlast, hpeer, hknown⟩ := runUDP_datagram settings mBufLen
        (receive mBufLen mBuf d) running (hlen d (List.mem_cons_self ..)) timestamp udplen now
      simp only [loopRecords, readIds, Arrival.buffer]
      rw [fullIds_full hempty, hid]
      by_cases hneg : idWord settings (receive mBufLen mBuf d) < 0
      · have hstop := hlast.mpr hneg
        simp only [hstop, if_pos hneg, if_true]
        exact ⟨rfl, by simp [hempty], trivial⟩
      · have hmore := Bool.eq_false_iff.mpr fun h => hneg (hlast.mp h)
        simp only [hmore, if_neg hneg, Bool.false_eq_true, if_false]
        obtain ⟨hids, hchained⟩ := ih (receive mBufLen mBuf d) (fun d' hd' => hlen d' (List.mem_cons_of_mem _ hd')) {
          peerclose := hpeer
          lastpacket := hmore
          known := hknown }
        exact ⟨by rw [hids], by simp [hempty], hchained⟩
    | timeout now =>
      obtain ⟨hid, hempty, hrunning⟩ := runUDP_timeout settings mBufLen mBuf running now
      obtain ⟨hids, hchained⟩ := ih mBuf hlen hrunning
      simp only [loopRecords, Arrival.buffer]
      rw [fullIds_empty hempty]
      simp only [hrunning.lastpacket, Bool.false_eq_true, if_false]
      exact ⟨hids, fun _ => hid, hchained⟩

/-- So does the server, if the `Listener` did not read the FIN of a longer traffic. -/
theorem serverRecords_ids {listener : Option Datagram}
    (hlen : ∀ d ∈ listener.toList ++ datagrams arrivals, 0 < min d.len mBufLen)
    (start : ∀ d ∈ listener, 0 ≤ idWord settings (receive mBufLen mBuf d) ∨ datagrams arrivals = []) :
    fullIds (serverRecords settings mBufLen mBuf listener arrivals) =
        readIds settings mBufLen mBuf (listener.toList ++ datagrams arrivals) ∧
      Chained 0 (serverRecords settings mBufLen mBuf listener arrivals) := by
  cases listener with
  | none => exact loopRecords_ids settings mBuf hlen ⟨rfl, rfl, rfl⟩
  | some d =>
    obtain ⟨hid, hempty, -⟩ := readPacketID_word settings { (default : ReportStruct) with
      packetLen := (min d.len mBufLen : Nat) } (receive mBufLen mBuf d)
    have hfirst : (firstRecord settings mBufLen mBuf d).emptyreport = false := hempty
    have running : Running { (default : UdpServer) with reportstruct := firstRecord settings mBufLen mBuf d } :=
      ⟨rfl, rfl, rfl⟩
    obtain ⟨hids, hchained⟩ := loopRecords_ids settings (receive mBufLen mBuf d)
      (fun d' hd' => hlen d' (List.mem_append_right _ hd')) running
    have hid' : (firstRecord settings mBufLen mBuf d).packetID = |idWord settings (receive mBufLen mBuf d)| := hid
    refine ⟨?_, by simp [hfirst], hchained⟩
    show fullIds (_ :: _) = |idWord settings (receive mBufLen mBuf d)| :: _
    rw [fullIds_full hfirst, hids, hid']
    rcases start d rfl with hpos | hnil
    · rw [if_neg (not_lt.mpr hpos)]
      rfl
    · rw [hnil, show readIds settings mBufLen (receive mBufLen mBuf d) ([].append []) = [] from rfl, ite_self]
      rfl

end

end Iperf2.Traffic
