import Iperf2.Header.ModalOptions

/-!
# Writing the test header

`Settings_GenerateClientHdr`. The function builds two flag words, a length and the fields in one pass; here each has a
definition of its own, with the conditions in the order of the source.

* `tcpFlags_test`, `udpFlags_test`, `tcpUpperflags_test`, `udpUpperflags_test` : what the flag words say under a mask;
* `tcpHdr_flags`, `tcpHdr_upperflags`, `udpHdr_flags`, `udpHdr_upperflags` : the flag words read back;
* `tcpHdr_keylen`, `tcpHdr_key` : so does the permit key;
* `tcpLen_cases`, `udpLen_cases` : the lengths a header can have.
-/

namespace Iperf2.Header
open Report

/-! ## Numbers -/

/-- `htonl((long)q)` -/
def whole (q : Rat) : BitVec 32 := BitVec.ofInt 32 (truncate q)

/-- `htonl((long)((q - (long)q) * rMillion))` -/
def micros (q : Rat) : BitVec 32 := BitVec.ofInt 32 (truncate ((q - truncate q) * rMillion))

/-- The two words of a rate; the upper one leaves its low byte free. -/
def rateWords (rate : BitVec 64) : BitVec 32 × BitVec 32 := (rate.setWidth 32, (rate >>> 32).setWidth 32 <<< 8)

/-! ## Parts of both headers -/

/-- `Settings_GenerateClientHdrV1` -/
def settingsGenerateClientHdrV1 (client : ThreadSettings) (base : Nat) (hdr : Buf) : Buf :=
  let hdr := hdr.store32 (base + 12) (if client.isBuflenSet then BitVec.ofInt 32 client.mBufLen else 0)
  let mPort := if client.mListenPort ≠ 0 then client.mListenPort else client.mPort
  let hdr := hdr.store32 (base + 8) (mPort.setWidth 32)
  let hdr := hdr.store32 (base + 4) (BitVec.ofInt 32 client.mThreads)
  hdr.store32 (base + 20)
    (if client.isModeTime then (-client.mAmount).setWidth 32 else client.mAmount.setWidth 32 &&& 0x7FFFFFFF)

/-- The version and the type of service in `client_hdrext`. -/
def storeVersion (client : ThreadSettings) (extend : Nat) (hdr : Buf) : Buf :=
  let hdr := hdr.store32 (extend + 12) IPERF_VERSION_MAJORHEX
  let hdr := hdr.store32 (extend + 16) IPERF_VERSION_MINORHEX
  hdr.store16 (extend + 22) (BitVec.ofInt 16 client.mTOS &&& 0xFF)

def storeRate (rate : BitVec 64) (extend : Nat) (hdr : Buf) : Buf :=
  (hdr.store32 (extend + 24) (rateWords rate).1).store32 (extend + 28) (rateWords rate).2

def storeStartTime (startTime : Timeval) (startFq : Nat) (hdr : Buf) : Buf :=
  (hdr.store32 (startFq + 4) (BitVec.ofInt 32 startTime.sec)).store32 (startFq + 8) (BitVec.ofInt 32 startTime.usec)

def storeFQRate (client : ThreadSettings) (startFq : Nat) (hdr : Buf) : Buf :=
  (hdr.store32 (startFq + 12) (client.mFQPacingRate.setWidth 32)).store32 (startFq + 16)
    ((client.mFQPacingRate >>> 32).setWidth 32)

/-- The upper flags that TCP and UDP share. -/
def commonUpperflags (client : ThreadSettings) (startTime : Timeval) : BitVec 16 :=
  let upperflags := Flags.orIf 0 (client.isReverse && !client.isCompat) HEADER_REVERSE
  let upperflags := Flags.orIf upperflags (client.isFullDuplex && !client.isCompat) HEADER_FULLDUPLEX
  Flags.orIf upperflags (client.isTxStartTime && !timeZero startTime) HEADER_EPOCH_START

/-- The flags of `-d` and `-r`. -/
def dualFlags (client : ThreadSettings) (flags : BitVec 32) : BitVec 32 :=
  let dual := !client.isCompat && client.mMode != .normal
  Flags.orIf (Flags.orIf flags dual HEADER_VERSION1) (dual && client.mMode == .dualTest) RUN_NOW

/-! ## UDP -/

def udpUpperflags (client : ThreadSettings) (startTime : Timeval) : BitVec 16 :=
  let upperflags := commonUpperflags client startTime
  let upperflags := Flags.orIf upperflags client.isL2LengthCheck HEADER_L2LENCHECK
  let upperflags := Flags.orIf upperflags (client.isL2LengthCheck && client.isIPV6) HEADER_L2ETHPIPV6
  let upperflags := Flags.orIf upperflags client.isIsochronous HEADER_ISOCH
  let upperflags :=
    Flags.orIf upperflags (client.isIsochronous && (client.isFullDuplex || client.isReverse)) HEADER_ISOCH_SETTINGS
  let upperflags := Flags.orIf upperflags client.isNoUDPfin HEADER_NOUDPFIN
  let upperflags := Flags.orIf upperflags client.isTripTime HEADER_TRIPTIME
  Flags.orIf upperflags client.isFQPacing HEADER_FQRATESET

/-- The length of the header, which does not count `start_fq`. -/
def udpLen (client : ThreadSettings) : Nat :=
  sizeofClientHdrext + sizeofClientHdrV1 +
    (if client.isIsochronous && (client.isFullDuplex || client.isReverse) then sizeofIsochSettings else 0) +
    (if client.isTripTime || client.isFQPacing || client.isIsochronous then sizeofIsochPayload else 0) +
    sizeofUdpDatagram

def udpFlags (client : ThreadSettings) : BitVec 32 :=
  let flags := dualFlags client (HEADER_SEQNO64B ||| HEADER_EXTEND)
  let flags := Flags.orIf flags client.isL2LengthCheck HEADER_UDPTESTS
  let flags := Flags.orIf flags client.isIsochronous (HEADER_UDPTESTS ||| HEADER_EXTEND)
  let flags := Flags.orIf flags (client.isReverse || client.isFullDuplex) (HEADER_UDPTESTS ||| HEADER_VERSION2)
  let flags := Flags.orIf flags client.isNoUDPfin (HEADER_UDPTESTS ||| HEADER_EXTEND)
  let flags := Flags.orIf flags (client.isTripTime || client.isFQPacing || client.isTxStartTime) HEADER_UDPTESTS
  flags ||| (BitVec.ofNat 32 (udpLen client) <<< 1 &&& HEADER_KEYLEN_MASK) ||| HEADER_LEN_BIT

/-- The offered load; packets per second are sent as bits when the server is to offer it. -/
def udpRate (client : ThreadSettings) : BitVec 64 :=
  if client.isBWSet && client.mAppRate > 0 then
    if client.mAppRateUnits == .pps && (client.isFullDuplex || client.isReverse || client.mMode != .normal) then
      BitVec.ofNat 64 client.mAppRate * 8 * BitVec.ofInt 64 client.mBufLen
    else BitVec.ofNat 64 client.mAppRate
  else BitVec.ofNat 64 kDefault_UDPRate

def storeUdpIsoch (client : ThreadSettings) (hdr : Buf) : Buf :=
  let hdr := (hdr.store32 128 (whole client.mFPS)).store32 132 (micros client.mFPS)
  let hdr := (hdr.store32 136 (whole client.mMean)).store32 140 (micros client.mMean)
  let hdr := (hdr.store32 144 (whole client.mVariance)).store32 148 (micros client.mVariance)
  (hdr.store32 152 (whole client.mBurstIPG)).store32 156 (micros client.mBurstIPG)

/-- The fields of a UDP header but for its flag words. -/
def udpFields (client : ThreadSettings) (startTime : Timeval) (testhdr : Buf) : Buf :=
  let hdr := testhdr.store 0 (List.replicate sizeofClientUdpTesthdr 0)
  let hdr := storeRate (udpRate client) 40 (storeVersion client 40 hdr)
  let hdr := settingsGenerateClientHdrV1 client 16 hdr
  let hdr :=
    if client.isIsochronous && (client.isFullDuplex || client.isReverse) then storeUdpIsoch client hdr else hdr
  let hdr := if client.isTripTime || client.isTxStartTime then storeStartTime startTime 108 hdr else hdr
  if client.isFQPacing then storeFQRate client 108 hdr else hdr

def udpHdr (client : ThreadSettings) (startTime : Timeval) (testhdr : Buf) : Buf :=
  let hdr := (udpFields client startTime testhdr).store16 48 (udpUpperflags client startTime)
  (hdr.store16 50 0).store32 16 (udpFlags client)

/-! ## TCP -/

def tcpUpperflags (build : Build) (client : ThreadSettings) (startTime : Timeval) : BitVec 16 :=
  let upperflags := commonUpperflags client startTime
  let upperflags := Flags.orIf upperflags client.isTripTime HEADER_TRIPTIME
  let upperflags := Flags.orIf upperflags client.isFQPacing HEADER_FQRATESET
  let upperflags := Flags.orIf upperflags
    (build.tcpNotsentLowat && client.isWritePrefetch && (client.isReverse || client.isFullDuplex)) HEADER_WRITEPREFETCH
  let upperflags := Flags.orIf upperflags client.isPeriodicBurst HEADER_PERIODICBURST
  Flags.orIf upperflags (client.isIsochronous && !client.isPeriodicBurst) HEADER_ISOCH

/-- The header has a start time. -/
def tcpStartTime (client : ThreadSettings) : Bool :=
  client.isTripTime || client.isFQPacing || client.isIsochronous || client.isTxStartTime

/-- The header has the values of `--isochronous` or `--burst-period`. -/
def tcpIsochSettings (client : ThreadSettings) : Bool :=
  (client.isIsochronous || client.isPeriodicBurst) &&
    (client.isFullDuplex || client.isReverse || client.isPeriodicBurst)

/-- The length of the header before a permit key. -/
def tcpLen (client : ThreadSettings) : Nat :=
  sizeofClientHdrext + sizeofClientHdrV1 + (if tcpStartTime client then sizeofStarttimeFq else 0) +
    (if tcpIsochSettings client then sizeofIsochSettings else 0)

/-- The header has a permit key. -/
def tcpPermitKey (client : ThreadSettings) : Bool :=
  !client.isServerReverse && client.isPermitKey && client.mPermitKey != []

/-- `strnlen(client->mPermitKey, MAX_PERMITKEY_LEN)` -/
def tcpKeylen (client : ThreadSettings) : Nat :=
  if tcpPermitKey client then min client.mPermitKey.length MAX_PERMITKEY_LEN else 0

/-- The length of the header before the value of its permit key. -/
def tcpKeyOffset (client : ThreadSettings) : Nat := tcpLen client + if tcpPermitKey client then 2 else 0

def tcpFlags (client : ThreadSettings) : BitVec 32 :=
  let flags := dualFlags client HEADER_EXTEND
  let flags := Flags.orIf flags client.isPeerVerDetect (HEADER_V2PEERDETECT ||| HEADER_VERSION2)
  let flags := Flags.orIf flags (client.isReverse || client.isFullDuplex) HEADER_VERSION2
  let flags := Flags.orIf (flags ||| HEADER_LEN_BIT) (tcpPermitKey client) HEADER_KEYCHECK
  flags ||| (BitVec.ofNat 32 (tcpKeyOffset client) <<< 1 &&& HEADER_KEYLEN_MASK)

def storeTcpIsoch (client : ThreadSettings) (hdr : Buf) : Buf :=
  let hdr := (hdr.store32 80 (whole client.mFPS)).store32 84 (micros client.mFPS)
  let hdr := (hdr.store32 96 (whole client.mVariance)).store32 100 (micros client.mVariance)
  if !client.isPeriodicBurst then
    let hdr := (hdr.store32 88 (whole client.mMean)).store32 92 (micros client.mMean)
    let ipg := truncate client.mBurstIPG
    (hdr.store32 104 (whole client.mBurstIPG)).store32 108 (BitVec.ofInt 32 (ipg - ipg * rMillion))
  else hdr.store32 88 client.mBurstSize

/-- The fields of a TCP header but for its flag words and its permit key. -/
def tcpFields (build : Build) (client : ThreadSettings) (startTime : Timeval) (testhdr : Buf) : Buf :=
  let hdr := testhdr.store 0 (List.replicate sizeofClientTcpTesthdr 0)
  let hdr := storeVersion client 24 hdr
  let hdr := if client.isBWSet then storeRate (BitVec.ofNat 64 client.mAppRate) 24 hdr else hdr
  let hdr := settingsGenerateClientHdrV1 client 0 hdr
  let hdr := if tcpStartTime client then storeFQRate client 60 (storeStartTime startTime 60 hdr) else hdr
  let hdr :=
    if build.tcpNotsentLowat && client.isWritePrefetch && (client.isReverse || client.isFullDuplex) then
      hdr.store32 56 (BitVec.ofInt 32 client.mWritePrefetch)
    else hdr
  if tcpIsochSettings client then storeTcpIsoch client hdr else hdr

/-- The permit key behind the header; it may lie over fields of the struct that are not sent. -/
def storePermitKey (client : ThreadSettings) (hdr : Buf) : Buf :=
  if tcpPermitKey client then
    (hdr.store16 (tcpLen client) (BitVec.ofNat 16 (tcpKeylen client))).store (tcpLen client + 2)
      (client.mPermitKey.take (tcpKeylen client))
  else hdr

def tcpHdr (build : Build) (client : ThreadSettings) (startTime : Timeval) (testhdr : Buf) : Buf :=
  let hdr := ((tcpFields build client startTime testhdr).store16 32 (tcpUpperflags build client startTime)).store16 34 0
  (storePermitKey client hdr).store32 0 (tcpFlags client)

/-- `Settings_GenerateClientHdr`: the header and its length. -/
def settingsGenerateClientHdr (build : Build) (client : ThreadSettings) (testhdr : Buf) (startTime : Timeval) :
    Buf × Nat :=
  if client.isUDP && client.isSmallTripTime then (testhdr.store16 16 HEADER16_SMALL_TRIPTIMES, MINIPERFPAYLOAD)
  else if client.isUDP then (udpHdr client startTime testhdr, udpLen client)
  else (tcpHdr build client startTime testhdr, tcpKeyOffset client + tcpKeylen client)

/-! ## Flags -/

section
variable (client : ThreadSettings) (startTime : Timeval)

/-- The client is to be served by `-d` or `-r`. -/
def dualTest (client : ThreadSettings) : Bool := !client.isCompat && client.mMode != .normal

theorem dualFlags_test (flags mask : BitVec 32) :
    Flags.test (dualFlags client flags) mask =
      (Flags.test flags mask || dualTest client && Flags.test HEADER_VERSION1 mask ||
        (dualTest client && client.mMode == .dualTest) && Flags.test RUN_NOW mask) := by
  unfold dualFlags
  rw [Flags.test_orIf, Flags.test_orIf]
  rfl

/-- The flags of a TCP header under a mask that leaves the length out. -/
theorem tcpFlags_test {mask : BitVec 32} (hmask : HEADER_KEYLEN_MASK &&& mask = 0) :
    Flags.test (tcpFlags client) mask =
      (Flags.test HEADER_EXTEND mask || dualTest client && Flags.test HEADER_VERSION1 mask ||
        (dualTest client && client.mMode == .dualTest) && Flags.test RUN_NOW mask ||
        client.isPeerVerDetect && Flags.test (HEADER_V2PEERDETECT ||| HEADER_VERSION2) mask ||
        (client.isReverse || client.isFullDuplex) && Flags.test HEADER_VERSION2 mask ||
        Flags.test HEADER_LEN_BIT mask || tcpPermitKey client && Flags.test HEADER_KEYCHECK mask) := by
  unfold tcpFlags
  rw [Flags.test_or, Flags.test_disjoint _ hmask, Bool.or_false, Flags.test_orIf, Flags.test_or, Flags.test_orIf,
    Flags.test_orIf, dualFlags_test]

/-- The flags of a UDP header under a mask that leaves the length out. -/
theorem udpFlags_test {mask : BitVec 32} (hmask : HEADER_KEYLEN_MASK &&& mask = 0) :
    Flags.test (udpFlags client) mask =
      (Flags.test (HEADER_SEQNO64B ||| HEADER_EXTEND) mask || dualTest client && Flags.test HEADER_VERSION1 mask ||
        (dualTest client && client.mMode == .dualTest) && Flags.test RUN_NOW mask ||
        client.isL2LengthCheck && Flags.test HEADER_UDPTESTS mask ||
        client.isIsochronous && Flags.test (HEADER_UDPTESTS ||| HEADER_EXTEND) mask ||
        (client.isReverse || client.isFullDuplex) && Flags.test (HEADER_UDPTESTS ||| HEADER_VERSION2) mask ||
        client.isNoUDPfin && Flags.test (HEADER_UDPTESTS ||| HEADER_EXTEND) mask ||
        (client.isTripTime || client.isFQPacing || client.isTxStartTime) && Flags.test HEADER_UDPTESTS mask ||
        Flags.test HEADER_LEN_BIT mask) := by
  unfold udpFlags
  rw [Flags.test_or, Flags.test_or, Flags.test_disjoint _ hmask, Bool.or_false, Flags.test_orIf, Flags.test_orIf,
    Flags.test_orIf, Flags.test_orIf, Flags.test_orIf, dualFlags_test]

theorem commonUpperflags_test (mask : BitVec 16) :
    Flags.test (commonUpperflags client startTime) mask =
      ((client.isReverse && !client.isCompat) && Flags.test HEADER_REVERSE mask ||
        (client.isFullDuplex && !client.isCompat) && Flags.test HEADER_FULLDUPLEX mask ||
        (client.isTxStartTime && !timeZero startTime) && Flags.test HEADER_EPOCH_START mask) := by
  unfold commonUpperflags
  rw [Flags.test_orIf, Flags.test_orIf, Flags.test_orIf, Flags.test_zero, Bool.false_or]

theorem tcpUpperflags_test (build : Build) (mask : BitVec 16) :
    Flags.test (tcpUpperflags build client startTime) mask =
      (Flags.test (commonUpperflags client startTime) mask || client.isTripTime && Flags.test HEADER_TRIPTIME mask ||
        client.isFQPacing && Flags.test HEADER_FQRATESET mask ||
        (build.tcpNotsentLowat && client.isWritePrefetch && (client.isReverse || client.isFullDuplex)) &&
          Flags.test HEADER_WRITEPREFETCH mask ||
        client.isPeriodicBurst && Flags.test HEADER_PERIODICBURST mask ||
        (client.isIsochronous && !client.isPeriodicBurst) && Flags.test HEADER_ISOCH mask) := by
  unfold tcpUpperflags
  rw [Flags.test_orIf, Flags.test_orIf, Flags.test_orIf, Flags.test_orIf, Flags.test_orIf]

theorem udpUpperflags_test (mask : BitVec 16) :
    Flags.test (udpUpperflags client startTime) mask =
      (Flags.test (commonUpperflags client startTime) mask ||
        client.isL2LengthCheck && Flags.test HEADER_L2LENCHECK mask ||
        (client.isL2LengthCheck && client.isIPV6) && Flags.test HEADER_L2ETHPIPV6 mask ||
        client.isIsochronous && Flags.test HEADER_ISOCH mask ||
        (client.isIsochronous && (client.isFullDuplex || client.isReverse)) && Flags.test HEADER_ISOCH_SETTINGS mask ||
        client.isNoUDPfin && Flags.test HEADER_NOUDPFIN mask || client.isTripTime && Flags.test HEADER_TRIPTIME mask ||
        client.isFQPacing && Flags.test HEADER_FQRATESET mask) := by
  unfold udpUpperflags
  rw [Flags.test_orIf, Flags.test_orIf, Flags.test_orIf, Flags.test_orIf, Flags.test_orIf, Flags.test_orIf,
    Flags.test_orIf]

end

/-! ## Reading back -/

/-- Every header has the extended fields. -/
theorem tcpFlags_extend (client : ThreadSettings) : Flags.test (tcpFlags client) HEADER_EXTEND = true := by
  rw [tcpFlags_test client (by decide), show Flags.test HEADER_EXTEND HEADER_EXTEND = true by decide, Bool.true_or,
    Bool.true_or, Bool.true_or, Bool.true_or, Bool.true_or, Bool.true_or]

theorem udpFlags_extend (client : ThreadSettings) : Flags.test (udpFlags client) HEADER_EXTEND = true := by
  rw [udpFlags_test client (by decide)]
  simp [Flags.test, HEADER_EXTEND, HEADER_SEQNO64B]

/-- A word of one buffer or of another. -/
theorem be32_ite (c : Prop) [Decidable c] (hdr hdr' : Buf) (o : Nat) :
    (if c then hdr else hdr').be32 o = if c then hdr.be32 o else hdr'.be32 o :=
  apply_ite (fun hdr => hdr.be32 o) c hdr hdr'

section
variable (build : Build) (client : ThreadSettings) (startTime : Timeval) (testhdr : Buf)

theorem udpHdr_flags : (udpHdr client startTime testhdr).be32 16 = udpFlags client :=
  Buf.be32_store _ 16 (udpFlags client)

theorem udpHdr_upperflags : (udpHdr client startTime testhdr).be16 48 = udpUpperflags client startTime := by
  unfold udpHdr
  rw [Buf.be16_store32_of_disjoint (by omega), Buf.be16_store16_of_disjoint (by omega), Buf.be16_store]

/-- A header has one of four lengths. -/
theorem tcpLen_cases : tcpLen client = 60 ∨ tcpLen client = 80 ∨ tcpLen client = 92 ∨ tcpLen client = 112 := by
  unfold tcpLen
  cases tcpStartTime client <;> cases tcpIsochSettings client <;> decide

theorem udpLen_cases : udpLen client = 76 ∨ udpLen client = 108 ∨ udpLen client = 140 := by
  unfold udpLen
  cases client.isIsochronous
  · rw [Bool.false_and, Bool.or_false]
    cases (client.isTripTime || client.isFQPacing) <;> decide
  · rw [Bool.or_true, Bool.true_and]
    cases (client.isFullDuplex || client.isReverse) <;> decide

/-- The flag words of a header that was received. -/
theorem udpHdr_received {mBuf : Buf} (h : Agree (udpLen client) (udpHdr client startTime testhdr) mBuf) :
    mBuf.be32 16 = udpFlags client ∧ mBuf.be16 48 = udpUpperflags client startTime := by
  have hlen := udpLen_cases client
  constructor
  · exact (h.be32 (by omega)).symm.trans (udpHdr_flags client startTime testhdr)
  · exact (h.be16 (by omega)).symm.trans (udpHdr_upperflags client startTime testhdr)

theorem tcpHdr_flags : (tcpHdr build client startTime testhdr).be32 0 = tcpFlags client :=
  Buf.be32_store _ 0 (tcpFlags client)

/-- The permit key lies behind the header. -/
theorem storePermitKey_of_lt_tcpLen (hdr : Buf) {i : Nat} (hi : i < tcpLen client) :
    storePermitKey client hdr i = hdr i := by
  unfold storePermitKey
  split
  · rw [Buf.store_of_lt _ _ _ (by omega)]
    exact Buf.store_of_lt _ _ _ (by omega)
  · rfl

theorem storePermitKey_of_lt (hdr : Buf) {i : Nat} (hi : i < 60) : storePermitKey client hdr i = hdr i := by
  have hlen := tcpLen_cases client
  exact storePermitKey_of_lt_tcpLen client hdr (by omega)

theorem tcpHdr_upperflags :
    (tcpHdr build client startTime testhdr).be16 32 = tcpUpperflags build client startTime := by
  unfold tcpHdr
  rw [Buf.be16_store32_of_disjoint (by omega),
    Buf.be16_congr fun i _ hi => storePermitKey_of_lt client _ (by omega),
    Buf.be16_store16_of_disjoint (by omega), Buf.be16_store]

/-- The flag words and the permit key are not over the other fields. -/
theorem tcpHdr_word {o : Nat} (hflags : 36 ≤ o) (hlen : o + 4 ≤ tcpLen client) :
    (tcpHdr build client startTime testhdr).be32 o = (tcpFields build client startTime testhdr).be32 o := by
  unfold tcpHdr
  rw [Buf.be32_store32_of_disjoint (.inr (by omega)),
    Buf.be32_congr fun i _ hi => storePermitKey_of_lt_tcpLen client _ (by omega),
    Buf.be32_store16_of_disjoint (.inr (by omega)), Buf.be32_store16_of_disjoint (.inr (by omega))]

theorem udpHdr_word {o : Nat} (hflags : 52 ≤ o) :
    (udpHdr client startTime testhdr).be32 o = (udpFields client startTime testhdr).be32 o := by
  unfold udpHdr
  rw [Buf.be32_store32_of_disjoint (.inr (by omega)), Buf.be32_store16_of_disjoint (.inr (by omega)),
    Buf.be32_store16_of_disjoint (.inr (by omega))]

variable {client} (hkey : tcpPermitKey client = true)
include hkey

theorem tcpHdr_keylen :
    (tcpHdr build client startTime testhdr).be16 (tcpLen client) = BitVec.ofNat 16 (tcpKeylen client) := by
  have hlen := tcpLen_cases client
  simp only [tcpHdr, storePermitKey]
  rw [if_pos hkey, Buf.be16_store32_of_disjoint (by omega), Buf.be16_store_of_disjoint (by omega), Buf.be16_store]

theorem tcpHdr_key (hmax : client.mPermitKey.length ≤ MAX_PERMITKEY_LEN) :
    (tcpHdr build client startTime testhdr).window (tcpKeyOffset client) (tcpKeylen client) = client.mPermitKey := by
  have hlen := tcpLen_cases client
  have hkeylen : tcpKeylen client = client.mPermitKey.length := by
    unfold tcpKeylen
    rw [if_pos hkey, min_eq_left hmax]
  have htake : client.mPermitKey.take (tcpKeylen client) = client.mPermitKey := by
    rw [hkeylen, List.take_length]
  simp only [tcpHdr, storePermitKey, tcpKeyOffset]
  rw [if_pos hkey, if_pos hkey, htake, hkeylen]
  apply List.ext_getElem
  · rw [Buf.window_length]
  · intro i h h'
    rw [Buf.window_getElem]
    refine (Buf.store_of_le _ 0 _ ?_).trans (Buf.store_getElem _ _ _ h')
    simp only [bytes32, List.length_cons, List.length_nil]
    omega

end

end Iperf2.Header
