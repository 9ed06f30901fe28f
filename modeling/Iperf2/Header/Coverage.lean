import Iperf2.Header.Reads

/-!
# Coverage

A client sends a computed part of its test header, and the listener reads fields at fixed offsets. Whether they were
sent depends on the options of the client.

* `tcp_header_coverage` : all fields were, but for `--isochronous` with `-d` or `-r`, whose header lacks the values of
  `--isochronous`;
* `udp_header_coverage` : `start_fq` is not counted in the length of a UDP header, so it takes a payload that is long
  enough.
-/

namespace Iperf2.Header
open Report Decoder

/-! ## TCP -/

section
variable (client : ThreadSettings) (startTime : Timeval)

/-- The upper flags of a TCP header that license reads. -/
theorem tcpUpperflags_fields (build : Build) :
    let test := Flags.test (tcpUpperflags build client startTime)
    (test HEADER_EPOCH_START = true → client.isTxStartTime = true) ∧ test HEADER_TRIPTIME = client.isTripTime ∧
      test HEADER_FQRATESET = client.isFQPacing ∧ test HEADER_PERIODICBURST = client.isPeriodicBurst ∧
      test HEADER_ISOCH = (client.isIsochronous && !client.isPeriodicBurst) := by
  intro test
  simp only [test, tcpUpperflags_test, commonUpperflags_test]
  refine ⟨?_, ?_, ?_, ?_, ?_⟩ <;>
    simp [Flags.test, HEADER_FULLDUPLEX, HEADER_REVERSE, HEADER_EPOCH_START, HEADER_TRIPTIME, HEADER_FQRATESET,
      HEADER_WRITEPREFETCH, HEADER_PERIODICBURST, HEADER_ISOCH]
  intro h _
  exact h

/-- The length of a header by its optional parts. -/
theorem tcpLen_parts :
    (tcpStartTime client = true → 80 ≤ tcpLen client) ∧ (tcpIsochSettings client = true → 92 ≤ tcpLen client) ∧
      (tcpStartTime client = true → tcpIsochSettings client = true → 112 ≤ tcpLen client) ∧
      (tcpIsochSettings client = false → tcpLen client ≤ 80) := by
  unfold tcpLen
  cases tcpStartTime client <;> cases tcpIsochSettings client <;> decide

end

theorem startsClient_mode (flags : BitVec 32) (server : ThreadSettings) :
    startsClient flags server =
      ((serverMode server).isFullDuplex || (serverMode server).isServerReverse || v1test flags) := rfl

section
variable {client : ThreadSettings} (hclient : Accepted client) (build : Build) (startTime : Timeval)
  (listener : Listener) (now : Int) {mBuf : Buf}
include hclient

/-- The listener starts a client for the traffic that the client asks for, unless `-X` hides `-d` or `-r`. -/
theorem startsClient_tcp (hupper : mBuf.be16 32 = tcpUpperflags build client startTime) :
    startsClient (tcpFlags client) ((applyTcpHdr build (tcpFlags client) now (newServer listener.settings)).run mBuf) =
      (!client.isCompat && (client.isReverse || client.isFullDuplex ||
        client.mMode != .normal && !client.isPeerVerDetect)) := by
  obtain ⟨hextend, hversion1, hversion2, hrun⟩ := tcpFlags_mode client
  obtain ⟨hfull, hreverse⟩ := tcpUpperflags_mode client startTime build
  have honly := hclient.oneOnly
  rw [startsClient_mode, applyTcpHdr_mode _ _ _ _ _ hextend, hupper, hfull, hreverse,
    applyV1_mode (newServer_mode listener), v1test, v1Mode, hversion1, hversion2, hrun, dualTest]
  revert honly
  cases client.isFullDuplex <;> cases client.isReverse <;> cases client.mMode <;> cases client.isPeerVerDetect <;>
    cases client.isCompat <;> decide

end

/-- The flags that share a word with the length. -/
def headerFlags : List (BitVec 32) :=
  [HEADER_VERSION1, HEADER_EXTEND, HEADER_UDPTESTS, HEADER_KEYCHECK, HEADER_SEQNO64B, HEADER_VERSION2,
    HEADER_V2PEERDETECT, HEADER32_SMALL_TRIPTIMES, HEADER_LEN_BIT, RUN_NOW]

theorem headerFlags_len : ∀ flag ∈ headerFlags, flag &&& HEADER_KEYLEN_MASK = 0 := by
  intro flag hflag
  simp only [headerFlags, List.mem_cons, List.not_mem_nil, or_false] at hflag
  rcases hflag with rfl | rfl | rfl | rfl | rfl | rfl | rfl | rfl | rfl | rfl <;> decide

/-- What a header is to its listener: the listener finds the length before the key in the flag word, no flag is in its
way, and all fields that are read lie within that length. -/
structure TcpCoverage (build : Build) (client : ThreadSettings) (startTime : Timeval) (testhdr : Buf)
    (server : ThreadSettings) (now : Int) (mBuf : Buf) : Prop where
  len : settingsClientTestHdrLen (mBuf.be32 0) server + tcpKeylen client =
    (settingsGenerateClientHdr build client testhdr startTime).2
  lenBits : mBuf.be32 0 &&& HEADER_KEYLEN_MASK =
    BitVec.ofInt 32 (settingsClientTestHdrLen (mBuf.be32 0) server) <<< 1
  flags : ∀ flag ∈ headerFlags, flag &&& HEADER_KEYLEN_MASK = 0
  apply : Covered (settingsClientTestHdrLen (mBuf.be32 0) server).toNat
    (applyTcpHdr build (mBuf.be32 0) now server) mBuf
  settings : Covered (settingsClientTestHdrLen (mBuf.be32 0) server).toNat
    (settingsGenerateClientSettings ((applyTcpHdr build (mBuf.be32 0) now server).run mBuf)) mBuf

section
variable {client : ThreadSettings} (hclient : Accepted client) (build : Build) (startTime : Timeval)
  (listener : Listener) (now : Int) {mBuf : Buf}

/-- `apply_client_settings_tcp` reads what was sent. -/
theorem covered_applyTcpHdr_sent (hupper : mBuf.be16 32 = tcpUpperflags build client startTime) :
    Covered (tcpKeyOffset client) (applyTcpHdr build (tcpFlags client) now (newServer listener.settings)) mBuf := by
  obtain ⟨hepoch, htrip, -, hburst, -⟩ := tcpUpperflags_fields client startTime build
  obtain ⟨hstart, hisoch, -, -⟩ := tcpLen_parts client
  have hcases := tcpLen_cases client
  have hoffset : tcpLen client ≤ tcpKeyOffset client := Nat.le_add_right ..
  rw [covered_applyTcpHdr, hupper, htrip, hburst]
  intro _
  refine ⟨by omega, ?_, ?_, ?_, fun _ => by omega⟩
  · intro h
    have := hstart (by simp [tcpStartTime, hepoch h])
    omega
  · intro h
    have := hstart (by simp [tcpStartTime, h])
    omega
  · intro h
    have := hisoch (by simp [tcpIsochSettings, h])
    omega

include hclient

/-- `-d` and `-r` do not go with the modes of one connection. -/
theorem dualTest_alone (hdual : dualTest client = true) : client.isReverse = false ∧ client.isFullDuplex = false := by
  have honly := hclient.oneOnly
  have hmode := (Bool.and_eq_true_iff.mp hdual).2
  rw [hmode] at honly
  constructor
  · cases h : client.isReverse
    · rfl
    · rw [h] at honly
      simp at honly
  · cases h : client.isFullDuplex
    · rfl
    · rw [h] at honly
      simp at honly

/-- `Settings_GenerateClientSettings` reads the values of `--isochronous` for `-d` and `-r` too. -/
theorem covered_settings_tcp (htcp : listener.settings.isUDP = false) (hflags : mBuf.be32 0 = tcpFlags client)
    (hupper : mBuf.be16 32 = tcpUpperflags build client startTime) :
    Covered (tcpKeyOffset client) (settingsGenerateClientSettings
        ((applyTcpHdr build (tcpFlags client) now (newServer listener.settings)).run mBuf)) mBuf ↔
      ¬ (client.isIsochronous = true ∧ client.isPeriodicBurst = false ∧ dualTest client = true ∧
        client.isPeerVerDetect = false) := by
  obtain ⟨hextend, -⟩ := tcpFlags_mode client
  obtain ⟨-, -, hfq, hburst, hisoch⟩ := tcpUpperflags_fields client startTime build
  obtain ⟨hstart, hsettings, hboth, hneither⟩ := tcpLen_parts client
  have hcases := tcpLen_cases client
  have hoffset : tcpLen client ≤ tcpKeyOffset client ∧ tcpKeyOffset client ≤ tcpLen client + 2 := by
    unfold tcpKeyOffset
    split <;> omega
  obtain ⟨hisUDP, hisIsoch, hisBurst⟩ := Reader.mk.inj
    (applyTcpHdr_reader (tcpFlags client) now (newServer listener.settings) mBuf build hextend)
  have hnewIsoch : (newServer listener.settings).isIsochronous = false := listener.noIsochronous
  have hnewBurst : (newServer listener.settings).isPeriodicBurst = false := listener.noPeriodicBurst
  rw [hnewIsoch, hupper, hisoch, Bool.false_or] at hisIsoch
  rw [hnewBurst, hupper, hburst, Bool.false_or] at hisBurst
  have htcp' : ((applyTcpHdr build (tcpFlags client) now (newServer listener.settings)).run mBuf).isUDP = false :=
    hisUDP.trans htcp
  rw [covered_settingsGenerateClientSettings _ _ _ 0 (by rw [htcp']; rfl), hflags,
    startsClient_tcp hclient build startTime listener now hupper, covered_readReversed_tcp _ _ _ _ htcp', hisIsoch,
    hisBurst, hupper, hfq]
  constructor
  · rintro ⟨-, hread⟩ ⟨hisochronous, hnoburst, hdual, hpeer⟩
    obtain ⟨hcompat, hmode⟩ := Bool.and_eq_true_iff.mp hdual
    obtain ⟨hreverse, hfull⟩ := dualTest_alone hclient hdual
    have hlen := ((hread (by rw [hcompat, hmode, hpeer]; simp)).2 hextend).2.1 (by rw [hisochronous, hnoburst]; rfl)
    have hshort := hneither (by rw [tcpIsochSettings, hfull, hreverse, hnoburst]; simp)
    omega
  · intro hcondition
    refine ⟨by omega, fun hstarted => ⟨by omega, fun _ => ⟨by omega, ?_, ?_, ?_⟩⟩⟩
    · intro h
      obtain ⟨hisochronous, hnoburst⟩ := Bool.and_eq_true_iff.mp h
      rw [Bool.not_eq_true'] at hnoburst
      simp only [Bool.and_eq_true, Bool.or_eq_true, Bool.not_eq_true'] at hstarted
      have hstartTime : tcpStartTime client = true := by simp [tcpStartTime, hisochronous]
      obtain ⟨hcompat, (hreverse | hfull) | ⟨hmode, hpeer⟩⟩ := hstarted
      · have := hboth hstartTime (by simp [tcpIsochSettings, hisochronous, hreverse])
        omega
      · have := hboth hstartTime (by simp [tcpIsochSettings, hisochronous, hfull])
        omega
      · exact absurd ⟨hisochronous, hnoburst, by rw [dualTest, hcompat, hmode]; rfl, hpeer⟩ hcondition
    · intro _ h
      have := hsettings (by simp [tcpIsochSettings, h])
      omega
    · intro h
      have := hstart (by simp [tcpStartTime, h])
      omega

end

/-- Over TCP the header covers all that is read of it, but for `-d` or `-r` with `--isochronous`: only `-X` keeps the
listener from reading the values that were not sent. -/
theorem tcp_header_coverage {env : Environment} {options : CommandLine} {client : ThreadSettings}
    (haccepted : settingsModalOptions env options.settings = some client) (htcp : client.isUDP = false)
    (build : Build) (startTime : Timeval) (testhdr : Buf) (listener : Listener)
    (hlistener : listener.settings.isUDP = false) (now : Int) {mBuf : Buf}
    (hmBuf : Agree (tcpKeyOffset client) (settingsGenerateClientHdr build client testhdr startTime).1 mBuf) :
    TcpCoverage build client startTime testhdr (newServer listener.settings) now mBuf ↔
      ¬ (client.isIsochronous = true ∧ client.isPeriodicBurst = false ∧ dualTest client = true ∧
        client.isPeerVerDetect = false) := by
  have hclient := settingsModalOptions_accepted haccepted
  have hgen : settingsGenerateClientHdr build client testhdr startTime =
      (tcpHdr build client startTime testhdr, tcpKeyOffset client + tcpKeylen client) := by
    simp only [settingsGenerateClientHdr, htcp, Bool.false_and, Bool.false_eq_true, if_false]
  rw [hgen] at hmBuf
  have hcases := tcpLen_cases client
  have hoffset : tcpLen client ≤ tcpKeyOffset client := Nat.le_add_right ..
  have hflags : mBuf.be32 0 = tcpFlags client :=
    (hmBuf.be32 (by omega)).symm.trans (tcpHdr_flags build client startTime testhdr)
  have hupper : mBuf.be16 32 = tcpUpperflags build client startTime :=
    (hmBuf.be16 (by omega)).symm.trans (tcpHdr_upperflags build client startTime testhdr)
  have hsettings := covered_settings_tcp hclient build startTime listener now hlistener hflags hupper
  constructor
  · intro h
    have hread := h.settings
    rw [hflags, settingsClientTestHdrLen_tcpFlags, Int.toNat_natCast] at hread
    exact hsettings.mp hread
  · intro hcondition
    constructor
    · rw [hflags, settingsClientTestHdrLen_tcpFlags, hgen]
      exact (Int.natCast_add _ _).symm
    · rw [hflags, settingsClientTestHdrLen_tcpFlags, tcpFlags_len, BitVec.ofInt_natCast]
    · exact headerFlags_len
    · rw [hflags, settingsClientTestHdrLen_tcpFlags, Int.toNat_natCast]
      exact covered_applyTcpHdr_sent build startTime listener now hupper
    · rw [hflags, settingsClientTestHdrLen_tcpFlags, Int.toNat_natCast]
      exact hsettings.mpr hcondition

/-- `-c host --isochronous` with `--reverse`, `-d` or `-r` -/
def isochronousClient (mMode : TestMode) (isReverse : Bool) : CommandLine where
  settings := { (default : ThreadSettings) with
    mMode
    isReverse
    isIsochronous := true }
  client := rfl
  noServerReverse := rfl
  noSmallTripTime := rfl

theorem tcp_header_coverage_reverse :
    TcpCoverage ⟨true, false⟩ (modalDefaults (isochronousClient .normal true).settings) ⟨0, 0⟩ (fun _ => 0)
      (newServer defaultListener.settings) 0
      (settingsGenerateClientHdr ⟨true, false⟩ (modalDefaults (isochronousClient .normal true).settings) (fun _ => 0)
        ⟨0, 0⟩).1 :=
  (tcp_header_coverage (show settingsModalOptions default (isochronousClient .normal true).settings =
      some (modalDefaults (isochronousClient .normal true).settings) from rfl) rfl ⟨true, false⟩ ⟨0, 0⟩
    (fun _ => 0) defaultListener rfl 0 (fun _ _ => rfl)).mpr (by decide)

/-- `-d --isochronous`: the header ends at offset 80, where the values of `--isochronous` are read. -/
theorem tcp_header_coverage_fails :
    ¬ ∀ (env : Environment) (options : CommandLine) (client : ThreadSettings),
      settingsModalOptions env options.settings = some client → client.isUDP = false →
      ∀ (build : Build) (startTime : Timeval) (testhdr : Buf) (listener : Listener),
        listener.settings.isUDP = false → ∀ (now : Int) (mBuf : Buf),
        Agree (tcpKeyOffset client) (settingsGenerateClientHdr build client testhdr startTime).1 mBuf →
        TcpCoverage build client startTime testhdr (newServer listener.settings) now mBuf := by
  intro h
  have hcoverage := h default (isochronousClient .dualTest false) _ rfl rfl ⟨true, false⟩ ⟨0, 0⟩ (fun _ => 0)
    defaultListener rfl 0 _ (fun _ _ => rfl)
  have hread := hcoverage.settings (108, 4)
  revert hread
  decide

/-! ## UDP -/

/-- The first datagram: `SendFirstPayload` sends the header, or the payload if that is longer. -/
def firstPayloadLen (client : ThreadSettings) (pktlen : Nat) : Nat := (max (pktlen : Int) client.mBufLen).toNat

/-- The fields that are read of the first datagram lie within its `n` bytes. -/
structure UdpCoverage (server : ThreadSettings) (now : Int) (mBuf : Buf) (n : Nat) : Prop where
  apply : Covered n (applyClientSettingsUdp now server) mBuf
  settings : Covered n (settingsGenerateClientSettings ((applyClientSettingsUdp now server).run mBuf)) mBuf

/-- The upper flags of a UDP header that license reads. -/
theorem udpUpperflags_fields (client : ThreadSettings) (startTime : Timeval) :
    let test := Flags.test (udpUpperflags client startTime)
    test HEADER_EPOCH_START = (client.isTxStartTime && !timeZero startTime) ∧
      test HEADER_TRIPTIME = client.isTripTime ∧ test HEADER_FQRATESET = client.isFQPacing ∧
      test HEADER_ISOCH = client.isIsochronous := by
  intro test
  simp only [test, udpUpperflags_test, commonUpperflags_test]
  refine ⟨?_, ?_, ?_, ?_⟩ <;>
    simp [Flags.test, HEADER_FULLDUPLEX, HEADER_REVERSE, HEADER_EPOCH_START, HEADER_TRIPTIME, HEADER_FQRATESET,
      HEADER_L2LENCHECK, HEADER_L2ETHPIPV6, HEADER_ISOCH, HEADER_ISOCH_SETTINGS, HEADER_NOUDPFIN]

theorem udpFlags_tests (client : ThreadSettings) :
    client.isIsochronous = true → Flags.test (udpFlags client) HEADER_UDPTESTS = true := by
  intro h
  rw [udpFlags_test client (by decide), h]
  simp [Flags.test, HEADER_UDPTESTS, HEADER_EXTEND]

/-- Only the values of `--isochronous` make a header longer than 108 bytes. -/
theorem udpLen_le (client : ThreadSettings) :
    udpLen client ≤ 108 ∨ client.isIsochronous = true ∧ fromServer client = true := by
  cases hsettings : client.isIsochronous && (client.isFullDuplex || client.isReverse)
  · left
    unfold udpLen
    rw [hsettings, if_neg Bool.false_ne_true]
    split <;> decide
  · right
    simp only [Bool.and_eq_true, Bool.or_eq_true] at hsettings
    refine ⟨hsettings.1, ?_⟩
    unfold fromServer
    rcases hsettings.2 with h | h <;> simp [h]

section
variable {client : ThreadSettings} (hclient : Accepted client) (hcompat : client.isCompat = false)
  (startTime : Timeval) (listener : Listener) (now : Int) {mBuf : Buf}

include hclient hcompat in
/-- The listener starts a client for the traffic that the client asks for. -/
theorem startsClient_udp (hupper : mBuf.be16 48 = udpUpperflags client startTime) :
    startsClient (udpFlags client) ((applyUdpHdr (udpFlags client) now (newServer listener.settings)).run mBuf) =
      fromServer client := by
  obtain ⟨hsmall, -, hversion1, hversion2, hrun⟩ := udpFlags_mode client
  obtain ⟨hfull, hreverse⟩ := udpUpperflags_mode client startTime
  have honly := hclient.oneOnly
  rw [startsClient_mode, applyUdpHdr_mode _ _ _ _ hsmall, hupper, hfull, hreverse,
    applyV1_mode (newServer_mode listener), v1test, v1Mode, hversion1, hversion2, hrun, dualTest, hcompat, fromServer]
  revert honly
  cases client.isFullDuplex <;> cases client.isReverse <;> cases client.mMode <;> decide

include hclient hcompat in
/-- The fields of a full header. -/
theorem udpCoverage_full (hudp : listener.settings.isUDP = true) {n : Nat} (hn : 76 ≤ n)
    (hflags : mBuf.be32 16 = udpFlags client) (hupper : mBuf.be16 48 = udpUpperflags client startTime) :
    UdpCoverage (newServer listener.settings) now mBuf n ↔
      (client.isTxStartTime = true → timeZero startTime = false → 120 ≤ n) ∧ (client.isTripTime = true → 120 ≤ n) ∧
        (fromServer client = true →
          (client.isFQPacing = true → 128 ≤ n) ∧ (client.isIsochronous = true → 160 ≤ n)) := by
  obtain ⟨hsmall, hextend, -⟩ := udpFlags_mode client
  obtain ⟨hepoch, htrip, hfq, hisoch⟩ := udpUpperflags_fields client startTime
  obtain ⟨hisUDP, hisIsoch, -⟩ := Reader.mk.inj
    (applyUdpHdr_reader (udpFlags client) now (newServer listener.settings) mBuf hsmall hextend)
  have hnewIsoch : (newServer listener.settings).isIsochronous = false := listener.noIsochronous
  have hserver : ((applyUdpHdr (udpFlags client) now (newServer listener.settings)).run mBuf).isIsochronous =
      client.isIsochronous := by
    rw [hisIsoch, hnewIsoch, hupper, hisoch, Bool.false_or]
    cases h : client.isIsochronous
    · rw [Bool.and_false]
    · rw [udpFlags_tests client h]
      rfl
  have hudp' : ((applyUdpHdr (udpFlags client) now (newServer listener.settings)).run mBuf).isUDP = true :=
    hisUDP.trans hudp
  have happly : Covered n (applyClientSettingsUdp now (newServer listener.settings)) mBuf ↔
      (client.isTxStartTime = true → timeZero startTime = false → 120 ≤ n) ∧
        (client.isTripTime = true → 120 ≤ n) := by
    unfold applyClientSettingsUdp
    rw [covered_bind, covered_ntohl, run_ntohl, hflags, covered_applyUdpHdr, hsmall, if_neg Bool.false_ne_true, hextend,
      hupper, hepoch, htrip]
    simp only [Bool.and_eq_true, Bool.not_eq_true', and_imp, forall_const]
    constructor
    · rintro ⟨-, ⟨-, hstart, htriptime⟩, -⟩
      exact ⟨hstart, htriptime⟩
    · rintro ⟨hstart, htriptime⟩
      exact ⟨by omega, ⟨by omega, hstart, htriptime⟩, fun _ => by omega⟩
  have hsettings : Covered n (settingsGenerateClientSettings
        ((applyClientSettingsUdp now (newServer listener.settings)).run mBuf)) mBuf ↔
      (fromServer client = true → (client.isFQPacing = true → 128 ≤ n) ∧ (client.isIsochronous = true → 160 ≤ n)) := by
    unfold applyClientSettingsUdp
    rw [run_bind, run_ntohl, hflags, covered_settingsGenerateClientSettings _ _ _ 16 (by rw [hudp']; rfl), hflags,
      startsClient_udp hclient hcompat startTime listener now hupper, covered_readReversed_udp _ _ _ _ hudp', hextend,
      hserver, hupper, hfq]
    constructor
    · rintro ⟨-, hread⟩ hstarted
      obtain ⟨-, hfields⟩ := hread hstarted
      obtain ⟨-, hisochronous, hpacing⟩ := hfields rfl
      exact ⟨hpacing, hisochronous⟩
    · intro hfields
      refine ⟨by omega, fun hstarted => ⟨by omega, fun _ => ⟨by omega, ?_, ?_⟩⟩⟩
      · exact (hfields hstarted).2
      · exact (hfields hstarted).1
  constructor
  · intro h
    obtain ⟨hstart, htriptime⟩ := happly.mp h.apply
    exact ⟨hstart, htriptime, hsettings.mp h.settings⟩
  · rintro ⟨hstart, htriptime, hfields⟩
    exact ⟨happly.mpr ⟨hstart, htriptime⟩, hsettings.mpr hfields⟩

/-- A small header has no fields but its flag word and the time stamp before it. -/
theorem udpCoverage_small (hudp : listener.settings.isUDP = true) (n : Nat)
    (hupper : mBuf.be16 16 = HEADER16_SMALL_TRIPTIMES) :
    UdpCoverage (newServer listener.settings) now mBuf n ↔ 20 ≤ n := by
  have hsmall := small_test hupper
  have hversion1 : Flags.test (mBuf.be32 16) HEADER_VERSION1 = false := by
    rw [Buf.be32_eq_append, hupper, show HEADER_VERSION1 = 0x8000#16 ++ 0#16 by decide, Flags.test_append]
    decide
  constructor
  · intro h
    have hread := h.apply
    unfold applyClientSettingsUdp at hread
    rw [covered_bind, covered_ntohl] at hread
    exact hread.1
  · intro hn
    constructor
    · unfold applyClientSettingsUdp
      rw [covered_bind, covered_ntohl, run_ntohl, covered_applyUdpHdr, hsmall, if_pos rfl]
      omega
    · unfold applyClientSettingsUdp
      rw [run_bind, run_ntohl]
      have hmode := applyUdpHdr_small (mBuf.be32 16) now (newServer listener.settings) mBuf hsmall
      have hudp' : ((applyUdpHdr (mBuf.be32 16) now (newServer listener.settings)).run mBuf).isUDP = true := by
        unfold applyUdpHdr
        rw [if_pos hsmall]
        exact hudp
      rw [covered_settingsGenerateClientSettings _ _ _ 16 (by rw [hudp']; rfl), startsClient_mode, hmode,
        newServer_mode, v1test, hversion1]
      exact ⟨hn, fun h => by cases h⟩

end

/-- Over UDP, a start time and what a started client is told take a payload that reaches over them; and the flag word
of the small header takes two bytes more than that header has. -/
theorem udp_header_coverage {env : Environment} {options : CommandLine} {client : ThreadSettings}
    (haccepted : settingsModalOptions env options.settings = some client) (hcompat : client.isCompat = false)
    (hudp : client.isUDP = true) (build : Build) (startTime : Timeval) (testhdr : Buf) (listener : Listener)
    (hlistener : listener.settings.isUDP = true) (now : Int) {mBuf : Buf} :
    let hdr := settingsGenerateClientHdr build client testhdr startTime
    Agree hdr.2 hdr.1 mBuf →
    (UdpCoverage (newServer listener.settings) now mBuf (firstPayloadLen client hdr.2) ↔
      if client.isSmallTripTime then 20 ≤ client.mBufLen
      else
        (client.isTxStartTime = true → timeZero startTime = false → 120 ≤ client.mBufLen) ∧
          (fromServer client = true →
            (client.isFQPacing = true → 128 ≤ client.mBufLen) ∧
              (client.isIsochronous = true → 160 ≤ client.mBufLen))) := by
  intro hdr hmBuf
  have hclient := settingsModalOptions_accepted haccepted
  cases hsmall : client.isSmallTripTime
  · have hgen : hdr = (udpHdr client startTime testhdr, udpLen client) := by
      simp only [hdr, settingsGenerateClientHdr, hudp, hsmall, Bool.and_false, Bool.false_eq_true, if_false, if_true]
    rw [hgen] at hmBuf
    have hcases := udpLen_cases client
    obtain ⟨hflags, hupper⟩ := udpHdr_received client startTime testhdr hmBuf
    have htrip (h : client.isTripTime = true) : 128 ≤ client.mBufLen := hclient.tripTimes.large hudp h hsmall
    have hlong := udpLen_le client
    rw [hgen, udpCoverage_full hclient hcompat startTime listener now hlistener
      (by unfold firstPayloadLen; simp only; omega) hflags hupper, if_neg Bool.false_ne_true]
    unfold firstPayloadLen
    dsimp only
    constructor
    · rintro ⟨hstart, -, hfields⟩
      have hisochronous (h : fromServer client = true) (hisoch : client.isIsochronous = true) :
          160 ≤ client.mBufLen := by
        have := (hfields h).2 hisoch
        omega
      refine ⟨fun h htime => ?_, fun h => ⟨fun hfq => ?_, hisochronous h⟩⟩
      · have := hstart h htime
        rcases hlong with hlong | ⟨hisoch, hserver⟩
        · omega
        · have := hisochronous hserver hisoch
          omega
      · have := (hfields h).1 hfq
        rcases hlong with hlong | ⟨hisoch, hserver⟩
        · omega
        · have := hisochronous hserver hisoch
          omega
    · rintro ⟨hstart, hfields⟩
      refine ⟨fun h htime => ?_, fun h => ?_, fun h => ⟨fun hfq => ?_, fun hisoch => ?_⟩⟩
      · have := hstart h htime
        omega
      · have := htrip h
        omega
      · have := (hfields h).1 hfq
        omega
      · have := (hfields h).2 hisoch
        omega
  · have hgen : hdr = (testhdr.store16 16 HEADER16_SMALL_TRIPTIMES, MINIPERFPAYLOAD) := by
      simp only [hdr, settingsGenerateClientHdr, hudp, hsmall, Bool.and_true, if_true]
    rw [hgen] at hmBuf
    have hupper : mBuf.be16 16 = HEADER16_SMALL_TRIPTIMES :=
      (hmBuf.be16 (show 16 + 2 ≤ MINIPERFPAYLOAD by decide)).symm.trans (Buf.be16_store ..)
    rw [udpCoverage_small listener now hlistener _ hupper, if_pos rfl, hgen]
    unfold firstPayloadLen MINIPERFPAYLOAD
    omega

/-- `-c host -u -l 20 --txstart-time` -/
def startTimeClient (mBufLen : Int) : CommandLine where
  settings := { (default : ThreadSettings) with
    isUDP := true
    isBuflenSet := true
    mBufLen
    isTxStartTime := true
    txstartEpoch := ⟨10, 0⟩ }
  client := rfl
  noServerReverse := rfl
  noSmallTripTime := rfl

/-- What `Settings_ModalOptions` makes of it; its comparison of rates is for the kernel to compute. -/
def startTimeSettings (mBufLen : Int)
    (h : (settingsModalOptions default (startTimeClient mBufLen).settings).isSome = true) : ThreadSettings :=
  (settingsModalOptions default (startTimeClient mBufLen).settings).get h

theorem startTimeClient_isSome : (settingsModalOptions default (startTimeClient 100).settings).isSome = true ∧
    (settingsModalOptions default (startTimeClient 128).settings).isSome = true := by
  decide +kernel

/-- `-s -u` -/
def udpListener : Listener where
  settings := { (default : ThreadSettings) with isUDP := true }
  noFullDuplex := rfl
  noServerReverse := rfl
  noIsochronous := rfl
  noPeriodicBurst := rfl
  noTxStartTime := rfl
  noTripTime := rfl
  noSeqNo64b := rfl

theorem udp_header_coverage_start_time :
    let client := startTimeSettings 128 startTimeClient_isSome.2
    let hdr := settingsGenerateClientHdr ⟨true, false⟩ client (fun _ => 0) ⟨10, 0⟩
    UdpCoverage (newServer udpListener.settings) 0 hdr.1 (firstPayloadLen client hdr.2) :=
  (udp_header_coverage (show _ = some (startTimeSettings 128 startTimeClient_isSome.2) from (Option.some_get _).symm)
    (by decide +kernel) (by decide +kernel) ⟨true, false⟩ ⟨10, 0⟩ (fun _ => 0) udpListener rfl 0
    (fun _ _ => rfl)).mpr (by decide +kernel)

/-- `-l 100 --txstart-time`: the start time is read at offset 112 of a datagram of 100 bytes. -/
theorem udp_header_coverage_fails :
    ¬ ∀ (env : Environment) (options : CommandLine) (client : ThreadSettings),
      settingsModalOptions env options.settings = some client → client.isCompat = false → client.isUDP = true →
      ∀ (build : Build) (startTime : Timeval) (testhdr : Buf) (listener : Listener),
        listener.settings.isUDP = true → ∀ (now : Int) (mBuf : Buf),
        let hdr := settingsGenerateClientHdr build client testhdr startTime
        Agree hdr.2 hdr.1 mBuf →
        UdpCoverage (newServer listener.settings) now mBuf (firstPayloadLen client hdr.2) := by
  intro h
  have hcoverage := h default (startTimeClient 100) (startTimeSettings 100 startTimeClient_isSome.1)
    (Option.some_get _).symm (by decide +kernel) (by decide +kernel) ⟨true, false⟩ ⟨10, 0⟩ (fun _ => 0) udpListener rfl
    0 _ (fun _ _ => rfl)
  have hread := hcoverage.apply (112, 4)
  revert hread
  decide +kernel

end Iperf2.Header
