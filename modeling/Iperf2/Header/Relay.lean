import Iperf2.Header.Reads
import Iperf2.Report.Init

/-!
# The server's report to its client

When a UDP test ends the server sends its counters back: `write_UDP_AckFIN` fills a `server_hdr` behind a
`UDP_datagram`, and the client makes its server report of it, `InitServerRelayUDPReport`. The words of the header are
listed in the order of `payloads.h`. A count has its lower and its upper word in different structs of the header.

* `writeUdpAckFIN_word` : a field of the header read back; `covered_initServerRelayUDPReport` : the client reads no more
  than what is sent;
* `count64_words` : a count in two words;
* `server_relay_counters` : the client reports the counters that the server had.
-/

namespace Iperf2.Header
open Report Decoder

def SERVER_HEADER_EXTEND : BitVec 32 := 0x40000000

def sizeofServerHdr : Nat := 112

/-! ## The server -/

/-- `htonl((long)(n >> 32))` -/
def upperWord (n : Int) : BitVec 32 := BitVec.ofInt 32 (n / 2 ^ 32)

/-- `htonl((long)(n & 0xFFFFFFFF))` -/
def lowerWord (n : Int) : BitVec 32 := BitVec.ofInt 32 (n % 2 ^ 32)

def serverFlags (common : ReportCommon) : BitVec 32 :=
  Flags.orIf HEADER_VERSION1 (common.isEnhanced || common.isTripTime) SERVER_HEADER_EXTEND ||| HEADER_SEQNO64B

/-- `struct server_hdr_v1` -/
def serverHdrV1 (stats : TransferInfo) : List (BitVec 32) :=
  [ serverFlags stats.common,
    -- total_len1, total_len2
    upperWord stats.cntBytes, lowerWord stats.cntBytes,
    -- stop_sec, stop_usec
    whole stats.ts.iEnd, micros stats.ts.iEnd,
    -- error_cnt, outorder_cnt, datagrams
    lowerWord stats.cntError, lowerWord stats.cntOutofOrder, lowerWord stats.cntDatagrams,
    -- jitter1, jitter2
    whole stats.jitter, micros stats.jitter ]

/-- `struct server_hdr_extension` -/
def serverHdrExtension (stats : TransferInfo) : List (BitVec 32) :=
  [ whole stats.transit.totminTransit, micros stats.transit.totminTransit,
    whole stats.transit.totmaxTransit, micros stats.transit.totmaxTransit,
    whole stats.transit.totsumTransit, micros stats.transit.totsumTransit,
    whole stats.transit.totmeanTransit, micros stats.transit.totmeanTransit,
    whole stats.transit.totm2Transit, micros stats.transit.totm2Transit,
    whole stats.transit.totvdTransit, micros stats.transit.totvdTransit,
    BitVec.ofInt 32 stats.transit.totcntTransit,
    -- cntIPG, IPGsum
    whole (stats.cntDatagrams / (stats.ts.iEnd - stats.ts.iStart)), 1 ]

/-- `struct server_hdr_extension2` -/
def serverHdrExtension2 (stats : TransferInfo) : List (BitVec 32) :=
  if Flags.test (serverFlags stats.common) HEADER_SEQNO64B then
    [upperWord stats.cntError, upperWord stats.cntOutofOrder, upperWord stats.cntDatagrams]
  else [0, 0, 0]

def serverHdr (stats : TransferInfo) : List (BitVec 32) :=
  serverHdrV1 stats ++ serverHdrExtension stats ++ serverHdrExtension2 stats

/-- The packet of `write_UDP_AckFIN`. -/
def writeUdpAckFIN (stats : TransferInfo) : Buf := Buf.zero.storeWords sizeofUdpDatagram (serverHdr stats)

/-- `ackpacket_length` -/
def ackpacketLength : Nat := sizeofUdpDatagram + sizeofServerHdr

/-! ## The client -/

/-- A count in an upper and a lower word: `(((intmax_t) ntohl(upper)) << 32) + ntohl(lower)`. -/
def count64 (upper lower : Nat) : Decoder (BitVec 64) := do
  let upper ← ntohl upper
  let lower ← ntohl lower
  pure (upper ++ lower)

/-- The error, reordering and datagram counts. -/
def relayCounts (server : Nat) (flags : BitVec 32) (stats : TransferInfo) : Decoder TransferInfo :=
  if Flags.test flags HEADER_SEQNO64B then do
    let cntError ← count64 (server + 100) (server + 20)
    let cntOutofOrder ← count64 (server + 104) (server + 24)
    let cntDatagrams ← count64 (server + 108) (server + 28)
    pure { stats with
      cntError := cntError.toInt
      cntOutofOrder := cntOutofOrder.toInt
      cntDatagrams := cntDatagrams.toInt }
  else do
    let cntError ← ntohl (server + 20)
    let cntOutofOrder ← ntohl (server + 24)
    let cntDatagrams ← ntohl (server + 28)
    pure { stats with
      cntError := cntError.toNat
      cntOutofOrder := cntOutofOrder.toNat
      cntDatagrams := cntDatagrams.toNat }

/-- The transit times, which need `SERVER_HEADER_EXTEND`. -/
def relayTransit (server : Nat) (flags : BitVec 32) (stats : TransferInfo) : Decoder TransferInfo :=
  if Flags.test flags SERVER_HEADER_EXTEND then do
    let minTransit ← fixedPoint (server + 40)
    let maxTransit ← fixedPoint (server + 48)
    let sumTransit ← fixedPoint (server + 56)
    let meanTransit ← fixedPoint (server + 64)
    let m2Transit ← fixedPoint (server + 72)
    let vdTransit ← fixedPoint (server + 80)
    let cntTransit ← ntohl (server + 88)
    let cntIPG ← ntohl (server + 92)
    let IPGsum ← ntohl (server + 96)
    pure { stats with
      common := { stats.common with isEnhanced := true }
      transit := { stats.transit with
        minTransit
        maxTransit
        sumTransit
        meanTransit
        m2Transit
        vdTransit
        cntTransit := cntTransit.toInt }
      cntIPG := cntIPG.toNat
      IPGsum := IPGsum.toNat }
  else pure { stats with common := { stats.common with isEnhanced := false } }

/-- `InitServerRelayUDPReport` of the header at `server`, without the addresses. -/
def initServerRelayUDPReport (inSettings : Settings) (server : Nat) : Decoder TransferInfo := do
  let jitter ← fixedPoint (server + 32)
  let cntBytes ← count64 (server + 4) (server + 8)
  let iEnd ← fixedPoint (server + 12)
  let flags ← ntohl server
  let stats : TransferInfo := { (default : TransferInfo) with
    common := commonCopy inSettings
    jitter
    cntBytes := cntBytes.toNat
    ts := { (default : ReportTimeStamps) with
      iStart := 0
      iEnd } }
  let stats ← relayCounts server flags stats
  relayTransit server flags stats

/-! ## Counts -/

/-- A count in two words has its value, signed or not, if it is not negative. -/
theorem count64_words {n : Int} (h : 0 ≤ n) (hlt : n < 2 ^ 63) :
    (upperWord n ++ lowerWord n).toNat = n ∧ (upperWord n ++ lowerWord n).toInt = n := by
  have hupper : (upperWord n).toNat = n / 2 ^ 32 := by
    rw [upperWord, BitVec.toNat_ofInt]
    omega
  have hlower : (lowerWord n).toNat = n % 2 ^ 32 := by
    rw [lowerWord, BitVec.toNat_ofInt]
    omega
  have hnat : ((upperWord n ++ lowerWord n).toNat : Int) = n := by
    rw [BitVec.toNat_append, ← Nat.shiftLeft_add_eq_or_of_lt (lowerWord n).isLt, Nat.shiftLeft_eq]
    push_cast
    rw [hupper, hlower]
    omega
  refine ⟨hnat, ?_⟩
  rw [BitVec.toInt_eq_toNat_of_lt (by omega), hnat]

section
variable (stats : TransferInfo) (inSettings : Settings) (mBuf : Buf)

theorem serverFlags_seqNo64b (common : ReportCommon) : Flags.test (serverFlags common) HEADER_SEQNO64B = true := by
  unfold serverFlags
  rw [Flags.test_or]
  exact Bool.or_true _

theorem serverHdrExtension2_eq : serverHdrExtension2 stats =
    [upperWord stats.cntError, upperWord stats.cntOutofOrder, upperWord stats.cntDatagrams] :=
  if_pos (serverFlags_seqNo64b stats.common)

/-- A field of the header. -/
theorem writeUdpAckFIN_word {i : Nat} {w : BitVec 32} (h : (serverHdr stats)[i]? = some w) :
    (writeUdpAckFIN stats).be32 (sizeofUdpDatagram + 4 * i) = w := by
  obtain ⟨hi, hw⟩ := List.getElem?_eq_some_iff.mp h
  rw [← hw]
  exact Buf.be32_storeWords Buf.zero sizeofUdpDatagram (serverHdr stats) hi

theorem writeUdpAckFIN_flags : (writeUdpAckFIN stats).be32 sizeofUdpDatagram = serverFlags stats.common :=
  writeUdpAckFIN_word stats (i := 0) rfl

/-- A count whose words are the fields `i` and `j` of the header. -/
theorem count64_run {i j : Nat} {n : Int} (hupper : (serverHdr stats)[i]? = some (upperWord n))
    (hlower : (serverHdr stats)[j]? = some (lowerWord n)) :
    (count64 (sizeofUdpDatagram + 4 * i) (sizeofUdpDatagram + 4 * j)).run (writeUdpAckFIN stats) =
      upperWord n ++ lowerWord n := by
  unfold count64
  rw [run_bind, run_bind, run_ntohl, run_ntohl, run_pure, writeUdpAckFIN_word stats hupper,
    writeUdpAckFIN_word stats hlower]

/-- Bytes, errors, reordered and all datagrams in the header. -/
theorem count64_fields :
    (count64 (sizeofUdpDatagram + 4) (sizeofUdpDatagram + 8)).run (writeUdpAckFIN stats) =
        upperWord stats.cntBytes ++ lowerWord stats.cntBytes ∧
      (count64 (sizeofUdpDatagram + 100) (sizeofUdpDatagram + 20)).run (writeUdpAckFIN stats) =
        upperWord stats.cntError ++ lowerWord stats.cntError ∧
      (count64 (sizeofUdpDatagram + 104) (sizeofUdpDatagram + 24)).run (writeUdpAckFIN stats) =
        upperWord stats.cntOutofOrder ++ lowerWord stats.cntOutofOrder ∧
      (count64 (sizeofUdpDatagram + 108) (sizeofUdpDatagram + 28)).run (writeUdpAckFIN stats) =
        upperWord stats.cntDatagrams ++ lowerWord stats.cntDatagrams := by
  have hwords : serverHdr stats = serverHdrV1 stats ++ serverHdrExtension stats ++
      [upperWord stats.cntError, upperWord stats.cntOutofOrder, upperWord stats.cntDatagrams] := by
    rw [serverHdr, serverHdrExtension2_eq]
  refine ⟨count64_run stats (i := 1) (j := 2) ?_ ?_, count64_run stats (i := 25) (j := 5) ?_ ?_,
    count64_run stats (i := 26) (j := 6) ?_ ?_, count64_run stats (i := 27) (j := 7) ?_ ?_⟩
  all_goals rw [hwords]; rfl

/-- The transit times leave the counts alone. -/
theorem relayTransit_counts (server : Nat) (flags : BitVec 32) :
    let relay := (relayTransit server flags stats).run mBuf
    relay.cntBytes = stats.cntBytes ∧ relay.cntError = stats.cntError ∧ relay.cntOutofOrder = stats.cntOutofOrder ∧
      relay.cntDatagrams = stats.cntDatagrams := by
  unfold relayTransit
  rw [run_ite]
  split <;> exact ⟨rfl, rfl, rfl, rfl⟩

theorem covered_count64 {n : Nat} (upper lower : Nat) :
    Covered n (count64 upper lower) mBuf ↔ upper + 4 ≤ n ∧ lower + 4 ≤ n := by
  simp only [count64, covered_bind, covered_ntohl, covered_pure, and_true]

/-- The client reads no more than the header. -/
theorem covered_initServerRelayUDPReport {server n : Nat} (h : server + sizeofServerHdr ≤ n) :
    Covered n (initServerRelayUDPReport inSettings server) mBuf := by
  unfold sizeofServerHdr at h
  have hcounts : ∀ flags stats, Covered n (relayCounts server flags stats) mBuf := by
    intro flags stats
    simp only [relayCounts, covered_ite, covered_bind, covered_count64, covered_ntohl, covered_pure, and_true]
    exact ⟨fun _ => by omega, fun _ => by omega⟩
  have htransit : ∀ flags stats, Covered n (relayTransit server flags stats) mBuf := by
    intro flags stats
    simp only [relayTransit, covered_ite, covered_bind, covered_fixedPoint, covered_ntohl, covered_pure, and_true,
      implies_true]
    exact fun _ => by omega
  simp only [initServerRelayUDPReport, covered_bind, covered_fixedPoint, covered_count64, covered_ntohl, hcounts,
    htransit, and_true]
  omega

end

/-- The client, which has the packet at the start of its buffer, makes the same report of it as of the packet alone. -/
theorem initServerRelayUDPReport_received (stats : TransferInfo) (inSettings : Settings) (mBuf : Buf) :
    (initServerRelayUDPReport inSettings sizeofUdpDatagram).run
        (mBuf.store 0 ((writeUdpAckFIN stats).window 0 ackpacketLength)) =
      (initServerRelayUDPReport inSettings sizeofUdpDatagram).run (writeUdpAckFIN stats) := by
  apply run_congr
  · exact covered_initServerRelayUDPReport inSettings _ (le_refl (sizeofUdpDatagram + sizeofServerHdr))
  · exact Agree.window mBuf (writeUdpAckFIN stats) ackpacketLength

/-- **Server relay counters.** The report that the client makes of the packet, which it has at the start of its buffer,
shows the server's bytes, errors, reordered datagrams and datagrams. -/
theorem server_relay_counters (stats : TransferInfo) (inSettings : Settings) (mBuf : Buf)
    (hbytes : 0 ≤ stats.cntBytes ∧ stats.cntBytes < 2 ^ 63) (herror : 0 ≤ stats.cntError ∧ stats.cntError < 2 ^ 63)
    (hreordered : 0 ≤ stats.cntOutofOrder ∧ stats.cntOutofOrder < 2 ^ 63)
    (hdatagrams : 0 ≤ stats.cntDatagrams ∧ stats.cntDatagrams < 2 ^ 63) :
    let received := mBuf.store 0 ((writeUdpAckFIN stats).window 0 ackpacketLength)
    let relay := (initServerRelayUDPReport inSettings sizeofUdpDatagram).run received
    relay.cntBytes = stats.cntBytes ∧ relay.cntError = stats.cntError ∧ relay.cntOutofOrder = stats.cntOutofOrder ∧
      relay.cntDatagrams = stats.cntDatagrams := by
  intro received relay
  have hrelay : relay = (initServerRelayUDPReport inSettings sizeofUdpDatagram).run (writeUdpAckFIN stats) :=
    initServerRelayUDPReport_received stats inSettings mBuf
  obtain ⟨hcntBytes, hcntError, hcntOutofOrder, hcntDatagrams⟩ := count64_fields stats
  have hflags := serverFlags_seqNo64b stats.common
  rw [hrelay]
  simp only [initServerRelayUDPReport, relayCounts, run_bind, run_ntohl, writeUdpAckFIN_flags, hflags, if_true,
    run_pure, relayTransit_counts, hcntBytes, hcntError, hcntOutofOrder, hcntDatagrams]
  exact ⟨(count64_words hbytes.1 hbytes.2).1, (count64_words herror.1 herror.2).2,
    (count64_words hreordered.1 hreordered.2).2, (count64_words hdatagrams.1 hdatagrams.2).2⟩

/-- Counts whose words have their upper bits set. -/
theorem server_relay_counters_large :
    let stats : TransferInfo := { (default : TransferInfo) with
      cntBytes := 2 ^ 63 - 1
      cntError := 2 ^ 31
      cntOutofOrder := 2 ^ 32 - 1
      cntDatagrams := 2 ^ 62 + 2 ^ 31 }
    let relay := (initServerRelayUDPReport default sizeofUdpDatagram).run
      (Buf.zero.store 0 ((writeUdpAckFIN stats).window 0 ackpacketLength))
    relay.cntBytes = 2 ^ 63 - 1 ∧ relay.cntError = 2 ^ 31 ∧ relay.cntOutofOrder = 2 ^ 32 - 1 ∧
      relay.cntDatagrams = 2 ^ 62 + 2 ^ 31 :=
  server_relay_counters _ default Buf.zero (by decide) (by decide) (by decide) (by decide)

end Iperf2.Header
