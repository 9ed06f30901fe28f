import Iperf2.Report.Loss

/-!
# Records of a UDP server

`Server::RunUDP` fills one packet record over and over and posts it after every read, also after a timeout, an error
or a frame that the L2 checks reject; such a record has `emptyreport` set, and what earlier reads left in it. What a
read gives (the buffer, the result of `recvmsg`, the checks of the frame, the clock) is an input of the loop's body.

* `runUDP_stale` : an empty record has the id and the sent time that were in the record before;
* `empty_record_counts_nothing` : the reporter counts nothing for an empty record just if the interval has no transit
  times yet or no id was read yet.
-/

namespace Iperf2.Traffic
open Report

/-! ## Reads -/

/-- `struct isoch_payload`, in host byte order as all words of a datagram here. -/
structure IsochPayload where
  burstperiod : BitVec 32
  startTvSec : BitVec 32
  startTvUsec : BitVec 32
  prevframeid : BitVec 32
  frameid : BitVec 32
  burstsize : BitVec 32
  remaining : BitVec 32
  deriving Inhabited

/-- `struct UDP_datagram` and the isochronous payload behind it. -/
structure UdpDatagram where
  id : BitVec 32
  tvSec : BitVec 32
  tvUsec : BitVec 32
  id2 : BitVec 32
  isoch : IsochPayload
  deriving Inhabited

/-- What the L2 checks find in a frame: the length in its UDP header, whether `L2_quintuple_filter` and `udpchecksum`
return an error. -/
structure L2Frame where
  udplen : BitVec 16
  quintupleFilter : Bool
  udpchecksum : Bool
  deriving Inhabited

/-- The outcome of one `recvmsg`: its result, the receive time stamp if there is one, whether `errno` is fatal, the
clock, and the buffer. -/
structure UdpRead where
  currLen : Int
  timestamp : Option Timeval
  fatal : Bool
  now : Timeval
  datagram : UdpDatagram
  frame : L2Frame
  deriving Inhabited

/-- The settings that the receive loop tests. -/
structure UdpSettings where
  isL2LengthCheck : Bool
  isIsochronous : Bool
  isSeqNo64b : Bool
  l4offset : Int

/-- The state of the receive loop. -/
structure UdpServer where
  reportstruct : ReportStruct
  peerclose : Bool
  lastpacket : Bool
  prevsendTime : Timeval
  prevpacketTime : Timeval
  deriving Inhabited

/-! ## The loop's body -/

/-- `Server::ReadWithRxTimestamp` -/
def readWithRxTimestamp (s : UdpServer) (read : UdpRead) : UdpServer × Int :=
  let packetTime :=
    if read.currLen > 0 then read.timestamp.getD s.reportstruct.packetTime else s.reportstruct.packetTime
  let tsdone := read.currLen > 0 ∧ read.timestamp.isSome
  let currLen := if read.currLen < 0 ∧ read.fatal then 0 else read.currLen
  ({ s with
     reportstruct := { s.reportstruct with
       -- socket read timeout or read error
       emptyreport := if read.currLen ≤ 0 then true else s.reportstruct.emptyreport
       packetTime := if tsdone then packetTime else read.now }
     peerclose := if currLen = 0 then true else s.peerclose
     prevpacketTime := if read.currLen > 0 ∧ timeZero s.prevpacketTime then packetTime else s.prevpacketTime },
   currLen)

/-- `sizeof(struct udphdr)` -/
def sizeofUdphdr : Int := 8

/-- `Server::L2_processing` -/
def l2Processing (settings : UdpSettings) (reportstruct : ReportStruct) (frame : L2Frame) : ReportStruct :=
  let packetLen := frame.udplen.toNat - sizeofUdphdr
  let expectedL2len := packetLen + settings.l4offset + sizeofUdphdr
  let lenErr := reportstruct.l2len ≠ expectedL2len
  let reportstruct := { reportstruct with
    packetLen
    expectedL2len
    l2errors := if lenErr then { reportstruct.l2errors with lenErr := true } else reportstruct.l2errors }
  let reportstruct :=
    if lenErr ∧ frame.quintupleFilter then
      { reportstruct with
        l2errors := { reportstruct.l2errors with
          unknown := true
          csumErr := true }
        emptyreport := true }
    else reportstruct
  if !reportstruct.l2errors.unknown ∧ frame.udpchecksum then
    let reportstruct := { reportstruct with l2errors := { reportstruct.l2errors with csumErr := true } }
    if !reportstruct.l2errors.lenErr ∧ frame.quintupleFilter then
      { reportstruct with
        emptyreport := true
        l2errors := { reportstruct.l2errors with unknown := true } }
    else reportstruct
  else reportstruct

/-- `Server::ReadPacketID`: the record, and whether the datagram is the last one, which has a negative id. -/
def readPacketID (settings : UdpSettings) (reportstruct : ReportStruct) (datagram : UdpDatagram) :
    ReportStruct × Bool :=
  let packetID := if settings.isSeqNo64b then (datagram.id2 ++ datagram.id).toInt else datagram.id.toInt
  ({ reportstruct with
     packetID := if packetID < 0 then -packetID else packetID
     sentTime := ⟨datagram.tvSec.toNat, datagram.tvUsec.toNat⟩ }, packetID < 0)

/-- `sizeof(struct UDP_datagram) + sizeof(struct client_hdr_v1) + sizeof(struct client_hdrext) +
sizeof(struct isoch_payload)` -/
def isochHeaderLen : Int := 16 + 24 + 36 + 32

/-- `Server::udp_isoch_processing` -/
def udpIsochProcessing (reportstruct : ReportStruct) (rxlen : Int) (isoch : IsochPayload) : ReportStruct :=
  -- runt sized isoch packets
  if rxlen < isochHeaderLen then
    { reportstruct with
      burstsize := 0
      remaining := 0
      frameID := 0 }
  else
    let ready := (isoch.remaining.toNat : Int) = rxlen ∧ (isoch.frameid.toNat : Int) - isoch.prevframeid.toNat = 1
    { reportstruct with
      isochStartTime := ⟨isoch.startTvSec.toNat, isoch.startTvUsec.toNat⟩
      frameID := isoch.frameid.toNat
      prevframeID := isoch.prevframeid.toNat
      burstsize := isoch.burstsize.toNat
      burstperiod := isoch.burstperiod.toNat
      remaining := isoch.remaining.toNat
      transitReady := if ready then true else reportstruct.transitReady }

/-- The record of a read of `rxlen` bytes, after the L2 checks if they are on. -/
def l2Check (settings : UdpSettings) (reportstruct : ReportStruct) (rxlen : Int) (frame : L2Frame) : ReportStruct :=
  let reportstruct := { reportstruct with
    emptyreport := false
    packetLen := rxlen }
  if settings.isL2LengthCheck then
    l2Processing settings { reportstruct with
      l2len := rxlen
      l2errors := ⟨false, false, false⟩ } frame
  else reportstruct

/-- The id, the times and the frame of a datagram. -/
def readDatagram (settings : UdpSettings) (s : UdpServer) (rxlen : Int) (datagram : UdpDatagram) : UdpServer :=
  let (reportstruct, lastpacket) := readPacketID settings { s.reportstruct with
    prevSentTime := s.prevsendTime
    prevPacketTime := s.prevpacketTime } datagram
  { reportstruct :=
      if settings.isIsochronous then udpIsochProcessing reportstruct rxlen datagram.isoch else reportstruct
    peerclose := s.peerclose
    lastpacket
    prevsendTime := reportstruct.sentTime
    prevpacketTime := reportstruct.packetTime }

/-- The branch of `Server::RunUDP` for a read that got a datagram. -/
def processDatagram (settings : UdpSettings) (s : UdpServer) (rxlen : Int) (read : UdpRead) : UdpServer :=
  let s := { s with reportstruct := l2Check settings s.reportstruct rxlen read.frame }
  if s.reportstruct.l2errors.unknown then s else readDatagram settings s rxlen read.datagram

/-- The body of the loop of `Server::RunUDP`; the record that it posts is the `reportstruct` after it. -/
def runUDP (settings : UdpSettings) (s : UdpServer) (read : UdpRead) : UdpServer :=
  let (s, rxlen) := readWithRxTimestamp { s with reportstruct := { s.reportstruct with
    emptyreport := true
    packetLen := 0 } } read
  if !s.peerclose ∧ rxlen > 0 then processDatagram settings s rxlen read else s

/-! ## Empty records -/

/-- What an earlier read left in a record. -/
structure Stale (before after : ReportStruct) : Prop where
  packetID : after.packetID = before.packetID
  sentTime : after.sentTime = before.sentTime
  isochStartTime : after.isochStartTime = before.isochStartTime
  frameID : after.frameID = before.frameID
  prevframeID : after.prevframeID = before.prevframeID
  burstsize : after.burstsize = before.burstsize
  remaining : after.remaining = before.remaining
  transitReady : after.transitReady = before.transitReady

theorem l2Processing_stale (settings : UdpSettings) (reportstruct : ReportStruct) (frame : L2Frame) :
    Stale reportstruct (l2Processing settings reportstruct frame) := by
  simp only [l2Processing]
  split_ifs <;> exact ⟨rfl, rfl, rfl, rfl, rfl, rfl, rfl, rfl⟩

/-- A frame that makes the record empty is one that the L2 checks do not know. -/
theorem l2Processing_unknown {settings : UdpSettings} {reportstruct : ReportStruct} {frame : L2Frame}
    (hfull : reportstruct.emptyreport = false)
    (hempty : (l2Processing settings reportstruct frame).emptyreport = true) :
    (l2Processing settings reportstruct frame).l2errors.unknown = true := by
  simp only [l2Processing] at hempty ⊢
  split_ifs at hempty ⊢ <;> simp_all

theorem l2Check_stale (settings : UdpSettings) (reportstruct : ReportStruct) (rxlen : Int) (frame : L2Frame) :
    Stale reportstruct (l2Check settings reportstruct rxlen frame) := by
  unfold l2Check
  split
  · obtain ⟨h1, h2, h3, h4, h5, h6, h7, h8⟩ := l2Processing_stale settings { reportstruct with
      emptyreport := false
      packetLen := rxlen
      l2len := rxlen
      l2errors := ⟨false, false, false⟩ } frame
    exact ⟨h1, h2, h3, h4, h5, h6, h7, h8⟩
  · exact ⟨rfl, rfl, rfl, rfl, rfl, rfl, rfl, rfl⟩

theorem l2Check_unknown {settings : UdpSettings} {reportstruct : ReportStruct} {rxlen : Int} {frame : L2Frame}
    (hempty : (l2Check settings reportstruct rxlen frame).emptyreport = true) :
    (l2Check settings reportstruct rxlen frame).l2errors.unknown = true := by
  unfold l2Check at hempty ⊢
  simp only at hempty ⊢
  split at hempty
  · rename_i hcheck
    rw [if_pos hcheck]
    exact l2Processing_unknown rfl hempty
  · cases hempty

theorem readDatagram_emptyreport (settings : UdpSettings) (s : UdpServer) (rxlen : Int) (datagram : UdpDatagram) :
    (readDatagram settings s rxlen datagram).reportstruct.emptyreport = s.reportstruct.emptyreport := by
  simp only [readDatagram, readPacketID, udpIsochProcessing]
  split_ifs <;> rfl

/-- A datagram that is read makes the record full, one that is not leaves what was read before. -/
theorem processDatagram_stale {settings : UdpSettings} {s : UdpServer} {rxlen : Int} {read : UdpRead}
    (hempty : (processDatagram settings s rxlen read).reportstruct.emptyreport = true) :
    Stale s.reportstruct (processDatagram settings s rxlen read).reportstruct := by
  simp only [processDatagram] at hempty ⊢
  split at hempty
  · rename_i hunknown
    rw [if_pos hunknown]
    exact l2Check_stale settings s.reportstruct rxlen read.frame
  · rename_i hknown
    rw [readDatagram_emptyreport] at hempty
    exact absurd (l2Check_unknown hempty) hknown

/-- An empty record is the one of the read before, but for its times, lengths and L2 errors. -/
theorem runUDP_stale {settings : UdpSettings} {s : UdpServer} {read : UdpRead}
    (hempty : (runUDP settings s read).reportstruct.emptyreport = true) :
    Stale s.reportstruct (runUDP settings s read).reportstruct := by
  simp only [runUDP] at hempty ⊢
  split at hempty
  · rename_i hread
    obtain ⟨h1, h2, h3, h4, h5, h6, h7, h8⟩ := processDatagram_stale hempty
    rw [if_pos hread]
    exact ⟨h1, h2, h3, h4, h5, h6, h7, h8⟩
  · rename_i hread
    rw [if_neg hread]
    exact ⟨rfl, rfl, rfl, rfl, rfl, rfl, rfl, rfl⟩

/-- The reporter counts nothing: the totals, the largest id, the transit times and the frame counts are as they were,
except that an interval without transit times may start them again. -/
structure CountsNothing (stats after : TransferInfo) : Prop where
  total : after.total = stats.total
  PacketID : after.PacketID = stats.PacketID
  transit : after.transit = stats.transit ∨
    stats.transit.cntTransit = 0 ∧ after.transit = stats.transit.clearInterval
  isochstats : after.isochstats = stats.isochstats

/-- A transit time is counted in the total. -/
theorem update_totcntTransit (t : TransitStats) (transit : Rat) :
    (t.update transit).totcntTransit = t.totcntTransit + 1 := by
  unfold TransitStats.update
  split
  · rename_i hzero
    rw [hzero]
    rfl
  · rfl

/-- An empty record counts nothing if the interval has no transit times, or if the record has no id. -/
theorem handlePacketServerUdp_empty {stats : TransferInfo} {packet : ReportStruct} (hempty : packet.emptyreport = true) :
    CountsNothing stats (reporterHandlePacketServerUdp stats packet) ↔
      stats.transit.cntTransit = 0 ∨ packet.packetID ≤ 0 := by
  constructor
  · intro hnothing
    by_contra hcond
    obtain ⟨hcnt, hid⟩ := not_or.mp hcond
    rw [handlePacketServerUdp_valid stats (by simp [hcnt]) (by omega)] at hnothing
    rcases hnothing.transit with hsame | ⟨hzero, -⟩
    · have htot := congrArg TransitStats.totcntTransit hsame
      simp only [reporterHandlePacketIsochronous, reporterHandlePacketOnewayTransit, update_totcntTransit] at htot
      simp only [reporterHandlePacketPps, serverUdpAccount] at htot
      omega
    · exact hcnt hzero
  · intro hcond
    unfold reporterHandlePacketServerUdp
    by_cases hcnt : stats.transit.cntTransit = 0
    · rw [if_pos ⟨hempty, hcnt⟩]
      exact ⟨rfl, rfl, .inr ⟨hcnt, rfl⟩, rfl⟩
    · have hid : ¬ packet.packetID > 0 := by
        have := hcond.resolve_left hcnt
        omega
      rw [if_neg (by simp [hcnt]), if_neg hid]
      exact ⟨rfl, rfl, .inl rfl, rfl⟩

/-- **Empty records.** For every report and every record that the receive loop posts as empty, whatever was read
before, the reporter counts nothing just if the interval has no transit times yet or no id was read yet. -/
theorem empty_record_counts_nothing (settings : UdpSettings) (s : UdpServer) (read : UdpRead) (stats : TransferInfo)
    (hempty : (runUDP settings s read).reportstruct.emptyreport = true) :
    CountsNothing stats (reporterHandlePacketServerUdp stats (runUDP settings s read).reportstruct) ↔
      stats.transit.cntTransit = 0 ∨ s.reportstruct.packetID ≤ 0 := by
  rw [handlePacketServerUdp_empty hempty, (runUDP_stale hempty).packetID]

/-! A timeout after the datagram with id 1: it counts as out of order. -/

def plain : UdpSettings where
  isL2LengthCheck := false
  isIsochronous := false
  isSeqNo64b := false
  l4offset := 0

/-- A datagram of 100 bytes. -/
def readOne : UdpRead := { (default : UdpRead) with
  currLen := 100
  datagram := { (default : UdpDatagram) with id := 1 } }

def readTimeout : UdpRead := { (default : UdpRead) with currLen := -1 }

theorem empty_record_counts_nothing_timeout :
    CountsNothing udpServerInfo (reporterHandlePacketServerUdp udpServerInfo
      (runUDP plain default readTimeout).reportstruct) :=
  (empty_record_counts_nothing plain default readTimeout udpServerInfo rfl).mpr (.inl rfl)

theorem empty_record_counted :
    let s := runUDP plain default readOne
    let stats := reporterHandlePacketServerUdp udpServerInfo s.reportstruct
    let posted := (runUDP plain s readTimeout).reportstruct
    let after := reporterHandlePacketServerUdp stats posted
    posted.emptyreport = true ∧ stats.total.OutofOrder.current = 0 ∧ after.total.OutofOrder.current = 1 ∧
      ¬ CountsNothing stats after := by
  refine ⟨rfl, rfl, rfl, fun hnothing => ?_⟩
  exact absurd (congrArg (·.OutofOrder.current) hnothing.total) (by decide)

end Iperf2.Traffic
