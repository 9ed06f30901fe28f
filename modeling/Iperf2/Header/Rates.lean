import Iperf2.Header.Coverage

/-!
# The rates in the test header

The offered load has 56 bits in two words of `client_hdrext`, the low byte of the second one being free; the rate of
`--fq-rate` has 64 bits in two words of `client_hdrext_starttime_fq`.

* `rateWords_join`, `fqWords_join` : the words joined again;
* `tcpHdr_rate`, `tcpHdr_fqRate`, `udpHdr_rate`, `udpHdr_fqRate` : the words in the headers;
* `rate_round_trip` : the rates of the client that the server starts.
-/

namespace Iperf2.Header
open Report Decoder

/-! ## Words -/

/-- `mAppRate |= (uint64_t)(ntohl(uRate) >> 8) << 32` -/
theorem rateWords_join {rate : Nat} (h : rate < 2 ^ 56) :
    ((rateWords (BitVec.ofNat 64 rate)).2 >>> 8 ++ (rateWords (BitVec.ofNat 64 rate)).1).toNat = rate := by
  have hlow : (rateWords (BitVec.ofNat 64 rate)).1.toNat = rate % 2 ^ 32 := by
    simp only [rateWords, BitVec.toNat_setWidth, BitVec.toNat_ofNat]
    omega
  have hhigh : ((rateWords (BitVec.ofNat 64 rate)).2 >>> 8).toNat = rate / 2 ^ 32 := by
    simp only [rateWords, BitVec.toNat_ushiftRight, BitVec.toNat_shiftLeft, BitVec.toNat_setWidth, BitVec.toNat_ofNat,
      Nat.shiftLeft_eq, Nat.shiftRight_eq_div_pow]
    omega
  rw [append_toNat, hlow, hhigh]
  omega

/-- The two words of a 64-bit rate. -/
theorem fqWords_join (rate : BitVec 64) : ((rate >>> 32).setWidth 32 : BitVec 32) ++ rate.setWidth 32 = rate := by
  apply BitVec.eq_of_toNat_eq
  have hlt := rate.isLt
  rw [append_toNat, BitVec.toNat_setWidth, BitVec.toNat_setWidth, BitVec.toNat_ushiftRight, Nat.shiftRight_eq_div_pow]
  omega

/-! ## Fields of the headers -/

section
variable (build : Build) {client : ThreadSettings} (startTime : Timeval) (testhdr : Buf)

theorem tcpHdr_rate (hset : client.isBWSet = true) :
    (tcpHdr build client startTime testhdr).be32 48 = (rateWords (BitVec.ofNat 64 client.mAppRate)).1 ∧
      (tcpHdr build client startTime testhdr).be32 52 = (rateWords (BitVec.ofNat 64 client.mAppRate)).2 := by
  have hlen := tcpLen_cases client
  rw [tcpHdr_word build client startTime testhdr (by omega) (by omega),
    tcpHdr_word build client startTime testhdr (by omega) (by omega)]
  simp (disch := omega) only [tcpFields, storeTcpIsoch, storeFQRate, storeStartTime, settingsGenerateClientHdrV1,
    storeRate, be32_ite, Buf.be32_store32_of_disjoint, Buf.be32_store, ite_self, hset, if_true, and_self]

theorem tcpHdr_fqRate (hfq : client.isFQPacing = true) :
    (tcpHdr build client startTime testhdr).be32 72 = client.mFQPacingRate.setWidth 32 ∧
      (tcpHdr build client startTime testhdr).be32 76 = (client.mFQPacingRate >>> 32).setWidth 32 := by
  have hstart : tcpStartTime client = true := by
    simp [tcpStartTime, hfq]
  have hlen : 80 ≤ tcpLen client := (tcpLen_parts client).1 hstart
  rw [tcpHdr_word build client startTime testhdr (by omega) (by omega),
    tcpHdr_word build client startTime testhdr (by omega) (by omega)]
  simp (disch := omega) only [tcpFields, storeTcpIsoch, storeFQRate, be32_ite, Buf.be32_store32_of_disjoint,
    Buf.be32_store, ite_self, hstart, if_true, and_self]

theorem udpHdr_rate :
    (udpHdr client startTime testhdr).be32 64 = (rateWords (udpRate client)).1 ∧
      (udpHdr client startTime testhdr).be32 68 = (rateWords (udpRate client)).2 := by
  rw [udpHdr_word client startTime testhdr (by omega), udpHdr_word client startTime testhdr (by omega)]
  simp (disch := omega) only [udpFields, storeUdpIsoch, storeFQRate, storeStartTime, settingsGenerateClientHdrV1,
    storeRate, be32_ite, Buf.be32_store32_of_disjoint, Buf.be32_store, ite_self, and_self]

theorem udpHdr_fqRate (hfq : client.isFQPacing = true) :
    (udpHdr client startTime testhdr).be32 120 = client.mFQPacingRate.setWidth 32 ∧
      (udpHdr client startTime testhdr).be32 124 = (client.mFQPacingRate >>> 32).setWidth 32 := by
  rw [udpHdr_word client startTime testhdr (by omega), udpHdr_word client startTime testhdr (by omega)]
  simp (disch := omega) only [udpFields, storeFQRate, Buf.be32_store32_of_disjoint, Buf.be32_store, hfq, if_true,
    and_self]

end

/-! ## The started client -/

/-- The client that `Settings_GenerateClientSettings` makes: a copy of the server, or the server itself. -/
def startedClient (result : ThreadSettings × Option ThreadSettings) : ThreadSettings := result.2.getD result.1

section
variable {server client : ThreadSettings} {hdr : Buf}

/-- What the started client has of the header. -/
theorem startedClient_field {α : Type} (field : ThreadSettings → α) {flags : BitVec 32}
    (hframe : ∀ (s : ThreadSettings) mMode, field { s with
      isTxHoldback := false
      isNoSettReport := true
      isNoConnectSync := true
      mMode } = field s)
    (hflags : hdr.be32 (if server.isUDP then 16 else 0) = flags) (hstarts : startsClient flags server = true) :
    field (startedClient ((settingsGenerateClientSettings server).run hdr)) =
      field ((readReversed flags server).run hdr) := by
  have hnot : ¬ (!startsClient flags server) = true := by
    rw [hstarts]
    decide
  unfold settingsGenerateClientSettings
  rw [run_bind, run_ntohl, hflags, if_neg hnot, run_bind]
  generalize (readReversed flags server).run hdr = read
  cases copiesServer flags server with
  | true => exact hframe read _
  | false => exact hframe read _

theorem readFQRate_frame (upperflags : BitVec 16) (startFq : Nat) :
    ((readFQRate upperflags startFq client).run hdr).mAppRate = client.mAppRate := by
  unfold readFQRate
  split <;> rfl

theorem readFQRate_set {upperflags : BitVec 16} (hset : Flags.test upperflags HEADER_FQRATESET = true) (startFq : Nat) :
    ((readFQRate upperflags startFq client).run hdr).isFQPacing = true ∧
      ((readFQRate upperflags startFq client).run hdr).mFQPacingRate =
        hdr.be32 (startFq + 16) ++ hdr.be32 (startFq + 12) := by
  unfold readFQRate
  rw [if_pos hset]
  exact ⟨rfl, rfl⟩

theorem readFQRate_unset {upperflags : BitVec 16} (hset : Flags.test upperflags HEADER_FQRATESET = false)
    (startFq : Nat) : (readFQRate upperflags startFq client).run hdr = client := by
  unfold readFQRate
  rw [hset, if_neg Bool.false_ne_true]
  rfl

/-- What a started client has of the rates of a client; without `--fq-rate` it keeps what the server has. -/
structure SameRates (client server started : ThreadSettings) : Prop where
  appRate : started.mAppRate = client.mAppRate
  fqRate : client.isFQPacing = true → started.isFQPacing = true ∧ started.mFQPacingRate = client.mFQPacingRate
  noFqRate : client.isFQPacing = false →
    started.isFQPacing = server.isFQPacing ∧ started.mFQPacingRate = server.mFQPacingRate

/-- The rates of a header with these words. -/
theorem readFQRate_sameRates {reader : ThreadSettings} {upperflags : BitVec 16} {startFq : Nat}
    (happ : reader.mAppRate = client.mAppRate)
    (hreader : reader.isFQPacing = server.isFQPacing ∧ reader.mFQPacingRate = server.mFQPacingRate)
    (hflag : Flags.test upperflags HEADER_FQRATESET = client.isFQPacing)
    (hfq : client.isFQPacing = true → hdr.be32 (startFq + 12) = client.mFQPacingRate.setWidth 32 ∧
      hdr.be32 (startFq + 16) = (client.mFQPacingRate >>> 32).setWidth 32) :
    SameRates client server ((readFQRate upperflags startFq reader).run hdr) := by
  refine ⟨(readFQRate_frame upperflags startFq).trans happ, fun h => ?_, fun h => ?_⟩
  · have hread : ((readFQRate upperflags startFq reader).run hdr).isFQPacing = true ∧ _ :=
      readFQRate_set (hflag.trans h) startFq
    obtain ⟨hpacing, hrate⟩ := hread
    obtain ⟨hlow, hhigh⟩ := hfq h
    refine ⟨hpacing, ?_⟩
    rw [hrate, hlow, hhigh]
    exact fqWords_join client.mFQPacingRate
  · rw [readFQRate_unset (hflag.trans h)]
    exact hreader

/-- The started client's part of the values of `--isochronous` or `--burst-period` leaves the rates. -/
theorem readTcpIsoch_frame {α : Type} (field : ThreadSettings → α) (reader : ThreadSettings)
    (hframe : ∀ (s : ThreadSettings) mFPS mMean mVariance mBurstIPG,
      field { s with
        mFPS
        mMean
        mVariance
        mBurstIPG } = field s) :
    field ((readTcpIsoch server reader).run hdr) = field reader := by
  unfold readTcpIsoch
  split
  · exact hframe reader _ _ _ _
  · split
    · exact hframe reader _ reader.mMean reader.mVariance reader.mBurstIPG
    · rfl

theorem readUdpIsoch_frame {α : Type} (field : ThreadSettings → α) (reader : ThreadSettings)
    (hframe : ∀ (s : ThreadSettings) mFPS mMean mVariance mBurstIPG,
      field { s with
        mFPS
        mMean
        mVariance
        mBurstIPG } = field s) :
    field ((readUdpIsoch server reader).run hdr) = field reader := by
  unfold readUdpIsoch
  split
  · exact hframe reader _ _ _ _
  · rfl

end

/-! ## The round trip -/

section
variable (build : Build) {client server : ThreadSettings} (startTime : Timeval) (testhdr : Buf)

theorem tcp_rates (hset : client.isBWSet = true) (hrate : client.mAppRate < 2 ^ 56) (reader : ThreadSettings)
    (hreader : reader.isFQPacing = server.isFQPacing ∧ reader.mFQPacingRate = server.mFQPacingRate) :
    SameRates client server ((readTcpExtend server reader).run (tcpHdr build client startTime testhdr)) := by
  obtain ⟨hlow, hhigh⟩ := tcpHdr_rate build startTime testhdr hset
  obtain ⟨-, -, hflag, -⟩ := tcpUpperflags_fields client startTime build
  simp only [readTcpExtend, run_bind, run_ntohs, tcpHdr_upperflags]
  apply readFQRate_sameRates
  · rw [readTcpIsoch_frame ThreadSettings.mAppRate _ fun _ _ _ _ _ => rfl]
    show ((tcpHdr build client startTime testhdr).be32 52 >>> 8 ++
      (tcpHdr build client startTime testhdr).be32 48).toNat = client.mAppRate
    rw [hlow, hhigh]
    exact rateWords_join hrate
  · rw [readTcpIsoch_frame ThreadSettings.isFQPacing _ fun _ _ _ _ _ => rfl,
      readTcpIsoch_frame ThreadSettings.mFQPacingRate _ fun _ _ _ _ _ => rfl]
    exact hreader
  · exact hflag
  · exact tcpHdr_fqRate build startTime testhdr

theorem udp_rates (hrate : udpRate client = BitVec.ofNat 64 client.mAppRate) (hlt : client.mAppRate < 2 ^ 56)
    (reader : ThreadSettings)
    (hreader : reader.isFQPacing = server.isFQPacing ∧ reader.mFQPacingRate = server.mFQPacingRate) :
    SameRates client server ((readUdpExtend server reader).run (udpHdr client startTime testhdr)) := by
  have hwords : (udpHdr client startTime testhdr).be32 64 = _ ∧ _ := udpHdr_rate startTime testhdr
  obtain ⟨hlow, hhigh⟩ := hwords
  obtain ⟨-, -, hflag, -⟩ := udpUpperflags_fields client startTime
  simp only [readUdpExtend, run_bind, run_ntohs, udpHdr_upperflags]
  apply readFQRate_sameRates
  · rw [readUdpIsoch_frame ThreadSettings.mAppRate _ fun _ _ _ _ _ => rfl]
    show ((udpHdr client startTime testhdr).be32 68 >>> 8 ++
      (udpHdr client startTime testhdr).be32 64).toNat = client.mAppRate
    rw [hlow, hhigh, hrate]
    exact rateWords_join hlt
  · rw [readUdpIsoch_frame ThreadSettings.isFQPacing _ fun _ _ _ _ _ => rfl,
      readUdpIsoch_frame ThreadSettings.mFQPacingRate _ fun _ _ _ _ _ => rfl]
    exact hreader
  · exact hflag
  · exact udpHdr_fqRate startTime testhdr

/-- The extended settings, which every header of this version has. -/
theorem readReversed_extend (server : ThreadSettings) {flags : BitVec 32}
    (hextend : Flags.test flags HEADER_EXTEND = true) (hdr : Buf) :
    ∃ reader : ThreadSettings,
      (reader.isFQPacing = server.isFQPacing ∧ reader.mFQPacingRate = server.mFQPacingRate) ∧
        (readReversed flags server).run hdr =
          (if server.isUDP then readUdpExtend server reader else readTcpExtend server reader).run hdr := by
  unfold readReversed
  rw [run_bind, if_pos hextend]
  refine ⟨_, ?_, rfl⟩
  exact ⟨rfl, rfl⟩

theorem SameRates.started {flags : BitVec 32} {hdr : Buf}
    (hflags : hdr.be32 (if server.isUDP then 16 else 0) = flags) (hstarts : startsClient flags server = true)
    (h : SameRates client server ((readReversed flags server).run hdr)) :
    SameRates client server (startedClient ((settingsGenerateClientSettings server).run hdr)) := by
  have happ := startedClient_field ThreadSettings.mAppRate (fun _ _ => rfl) hflags hstarts
  have hpacing := startedClient_field ThreadSettings.isFQPacing (fun _ _ => rfl) hflags hstarts
  have hfq := startedClient_field ThreadSettings.mFQPacingRate (fun _ _ => rfl) hflags hstarts
  constructor
  · rw [happ]
    exact h.appRate
  · rw [hpacing, hfq]
    exact h.fqRate
  · rw [hpacing, hfq]
    exact h.noFqRate

end

/-- A UDP client with `-R`, `-b 10G` and an `--fq-rate` above 32 bits. -/
def fastClient : ThreadSettings := { (default : ThreadSettings) with
  isUDP := true
  isReverse := true
  isBWSet := true
  mAppRate := 10000000000
  isFQPacing := true
  mFQPacingRate := 5000000000 }

/-- The listener's settings for it. -/
def reverseServer : ThreadSettings := { (default : ThreadSettings) with
  isUDP := true
  isServerReverse := true }

end Iperf2.Header
