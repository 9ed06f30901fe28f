import Iperf2.Header.Frame

/-!
# The mode of a test

A client asks for a normal test, for traffic from the server (`--reverse`), for both at once (`--full-duplex`), or for
the two legacy tests in which the server connects back (`-d`, `-r`). The last two are told by `HEADER_VERSION1` without
`HEADER_VERSION2`, the others by upper flags with `HEADER_VERSION2`.

* `applyTcpHdr_mode`, `applyUdpHdr_mode` : the mode fields of a server depend on the flag words alone;
* `test_mode_agreement` : the server is in the client's mode, but for `-d` and `-r` over TCP with `-X`, which sets
  `HEADER_VERSION2`.
-/

namespace Iperf2.Header
open Report Decoder

/-! ## Modes -/

inductive Mode
  | normal
  | dualTest
  | tradeOff
  | reverse
  | fullDuplex
  deriving DecidableEq

/-- The mode that a client asks for. -/
def askedMode (client : ThreadSettings) : Mode :=
  if client.isFullDuplex then .fullDuplex
  else if client.isReverse then .reverse
  else
    match client.mMode with
    | .normal => .normal
    | .dualTest => .dualTest
    | .tradeOff => .tradeOff

/-- The fields of a server that its mode is made of. -/
structure ServerMode where
  mMode : TestMode
  isFullDuplex : Bool
  isServerReverse : Bool
  mThreadMode : ThreadMode
  deriving DecidableEq

def serverMode (server : ThreadSettings) : ServerMode :=
  ⟨server.mMode, server.isFullDuplex, server.isServerReverse, server.mThreadMode⟩

/-- A server in this mode. -/
def Mode.server : Mode → ServerMode
  | .normal => ⟨.normal, false, false, .server⟩
  | .dualTest => ⟨.dualTest, false, false, .server⟩
  | .tradeOff => ⟨.tradeOff, false, false, .server⟩
  | .reverse => ⟨.normal, false, true, .client⟩
  | .fullDuplex => ⟨.normal, true, true, .server⟩

/-- A server is in one mode at most. -/
theorem Mode.server_injective : Function.Injective Mode.server := by
  intro m m' h
  cases m <;> cases m' <;> first | rfl | cases h

/-! ## What the decoders do to the mode -/

/-- What the full duplex and reverse flags do to the mode. -/
def v2Mode (fullDuplex reverse : Bool) (m : ServerMode) : ServerMode where
  mMode := m.mMode
  isFullDuplex := m.isFullDuplex || fullDuplex
  isServerReverse := m.isServerReverse || fullDuplex || reverse
  mThreadMode := if reverse then .client else m.mThreadMode

section
variable (build : Build) (flags : BitVec 32) (upperflags : BitVec 16) (now : Int) (server : ThreadSettings) (b : Buf)

theorem applyEpochStart_mode (startFq : Nat) :
    serverMode ((applyEpochStart startFq upperflags now server).run b) = serverMode server :=
  applyEpochStart_frame serverMode _ _ _ _ _ fun _ _ _ => rfl

theorem applyTripTime_mode (startFq : Nat) :
    serverMode ((applyTripTime startFq upperflags now server).run b) = serverMode server :=
  applyTripTime_frame serverMode _ _ _ _ _ fun _ _ _ _ => rfl

theorem applyPeriodicBurst_mode : serverMode ((applyPeriodicBurst upperflags server).run b) = serverMode server :=
  applyPeriodicBurst_frame serverMode _ _ _ fun _ _ _ _ _ => rfl

theorem applyWritePrefetch_mode :
    serverMode ((applyWritePrefetch build upperflags server).run b) = serverMode server :=
  applyWritePrefetch_frame serverMode _ _ _ _ fun _ _ _ => rfl

theorem applyTcpV2_mode :
    serverMode (applyTcpV2 flags upperflags server) =
      if Flags.test flags HEADER_VERSION2 then
        v2Mode (Flags.test upperflags HEADER_FULLDUPLEX) (Flags.test upperflags HEADER_REVERSE) (serverMode server)
      else serverMode server := by
  unfold applyTcpV2
  split <;> rfl

/-- The mode of a server after a TCP header with `HEADER_EXTEND`. -/
theorem applyTcpHdr_mode (hextend : Flags.test flags HEADER_EXTEND = true) :
    serverMode ((applyTcpHdr build flags now server).run b) =
      if Flags.test flags HEADER_VERSION2 then
        v2Mode (Flags.test (b.be16 32) HEADER_FULLDUPLEX) (Flags.test (b.be16 32) HEADER_REVERSE)
          (serverMode (applyV1 flags server))
      else serverMode (applyV1 flags server) := by
  unfold applyTcpHdr
  simp only [hextend, if_true, applyTcpExtend, run_bind, run_ntohs]
  rw [applyWritePrefetch_mode, applyTcpV2_mode, applyPeriodicBurst_mode, applyTripTime_mode, applyEpochStart_mode]
  rfl

/-- The mode of a server after a UDP header that is not the small one. -/
theorem applyUdpHdr_mode (hsmall : Flags.test flags HEADER32_SMALL_TRIPTIMES = false) :
    serverMode ((applyUdpHdr flags now server).run b) =
      if Flags.test flags HEADER_VERSION2 then
        v2Mode (Flags.test (b.be16 48) HEADER_FULLDUPLEX) (Flags.test (b.be16 48) HEADER_REVERSE)
          (serverMode (applyV1 flags server))
      else serverMode (applyV1 flags server) := by
  have hread (server : ThreadSettings) :
      serverMode ((applyUdpExtend flags now server).run b) = serverMode server := by
    simp only [applyUdpExtend, run_bind, run_ntohs]
    rw [applyTripTime_mode, applyEpochStart_mode]
    unfold applyUdpTests
    split <;> rfl
  have hfields : serverMode ((if Flags.test flags HEADER_EXTEND then
      applyUdpExtend flags now (applyV1 flags (applySeqNo64b flags server))
      else pure (applyV1 flags (applySeqNo64b flags server)) : Decoder ThreadSettings).run b) =
        serverMode (applyV1 flags server) := by
    rw [run_ite]
    split
    · rw [hread]
      rfl
    · rfl
  unfold applyUdpHdr
  rw [hsmall, if_neg Bool.false_ne_true]
  unfold applyUdpFull
  rw [run_bind, run_ite]
  split
  · rw [run_bind, run_ntohs]
    exact congrArg (v2Mode _ _) hfields
  · exact hfields

/-- The small UDP header leaves the mode as it is. -/
theorem applyUdpHdr_small (hsmall : Flags.test flags HEADER32_SMALL_TRIPTIMES = true) :
    serverMode ((applyUdpHdr flags now server).run b) = serverMode server := by
  unfold applyUdpHdr
  rw [if_pos hsmall]
  rfl

end

/-! ## Agreement -/

/-- The server of a listener that has a header in its buffer. -/
def decodeHdr (build : Build) (listener : ThreadSettings) (now : Int) (isUDP : Bool) : Decoder ThreadSettings :=
  if isUDP then applyClientSettingsUdp now (newServer listener)
  else do
    let flags ← ntohl 0
    applyTcpHdr build flags now (newServer listener)

section
variable (client : ThreadSettings) (startTime : Timeval)

/-- The upper flags of both headers. -/
theorem commonUpperflags_mode :
    Flags.test (commonUpperflags client startTime) HEADER_FULLDUPLEX = (client.isFullDuplex && !client.isCompat) ∧
      Flags.test (commonUpperflags client startTime) HEADER_REVERSE = (client.isReverse && !client.isCompat) := by
  rw [commonUpperflags_test, commonUpperflags_test]
  constructor <;> simp [Flags.test, HEADER_FULLDUPLEX, HEADER_REVERSE, HEADER_EPOCH_START]

theorem tcpUpperflags_mode (build : Build) :
    Flags.test (tcpUpperflags build client startTime) HEADER_FULLDUPLEX = (client.isFullDuplex && !client.isCompat) ∧
      Flags.test (tcpUpperflags build client startTime) HEADER_REVERSE = (client.isReverse && !client.isCompat) := by
  obtain ⟨hfull, hreverse⟩ := commonUpperflags_mode client startTime
  rw [tcpUpperflags_test, tcpUpperflags_test, hfull, hreverse]
  constructor <;>
    simp [Flags.test, HEADER_FULLDUPLEX, HEADER_REVERSE, HEADER_TRIPTIME, HEADER_FQRATESET, HEADER_WRITEPREFETCH,
      HEADER_PERIODICBURST, HEADER_ISOCH]

theorem udpUpperflags_mode :
    Flags.test (udpUpperflags client startTime) HEADER_FULLDUPLEX = (client.isFullDuplex && !client.isCompat) ∧
      Flags.test (udpUpperflags client startTime) HEADER_REVERSE = (client.isReverse && !client.isCompat) := by
  obtain ⟨hfull, hreverse⟩ := commonUpperflags_mode client startTime
  rw [udpUpperflags_test, udpUpperflags_test, hfull, hreverse]
  constructor <;>
    simp [Flags.test, HEADER_FULLDUPLEX, HEADER_REVERSE, HEADER_TRIPTIME, HEADER_FQRATESET, HEADER_L2LENCHECK,
      HEADER_L2ETHPIPV6, HEADER_ISOCH, HEADER_ISOCH_SETTINGS, HEADER_NOUDPFIN]

/-- The flag word of a TCP header. -/
theorem tcpFlags_mode :
    Flags.test (tcpFlags client) HEADER_EXTEND = true ∧
      Flags.test (tcpFlags client) HEADER_VERSION1 = dualTest client ∧
      Flags.test (tcpFlags client) HEADER_VERSION2 =
        (client.isPeerVerDetect || (client.isReverse || client.isFullDuplex)) ∧
      Flags.test (tcpFlags client) RUN_NOW = (dualTest client && client.mMode == .dualTest) := by
  rw [tcpFlags_test client (by decide), tcpFlags_test client (by decide), tcpFlags_test client (by decide),
    tcpFlags_test client (by decide)]
  refine ⟨?_, ?_, ?_, ?_⟩ <;>
    simp [Flags.test, HEADER_EXTEND, HEADER_VERSION1, HEADER_VERSION2, RUN_NOW, HEADER_V2PEERDETECT, HEADER_LEN_BIT,
      HEADER_KEYCHECK]

/-- The flag word of a UDP header that is not the small one. -/
theorem udpFlags_mode :
    Flags.test (udpFlags client) HEADER32_SMALL_TRIPTIMES = false ∧
      Flags.test (udpFlags client) HEADER_EXTEND = true ∧
      Flags.test (udpFlags client) HEADER_VERSION1 = dualTest client ∧
      Flags.test (udpFlags client) HEADER_VERSION2 = (client.isReverse || client.isFullDuplex) ∧
      Flags.test (udpFlags client) RUN_NOW = (dualTest client && client.mMode == .dualTest) := by
  rw [udpFlags_test client (by decide), udpFlags_test client (by decide), udpFlags_test client (by decide),
    udpFlags_test client (by decide), udpFlags_test client (by decide)]
  refine ⟨?_, ?_, ?_, ?_, ?_⟩ <;>
    simp [Flags.test, HEADER32_SMALL_TRIPTIMES, HEADER_SEQNO64B, HEADER_EXTEND, HEADER_VERSION1, HEADER_VERSION2,
      RUN_NOW, HEADER_UDPTESTS, HEADER_LEN_BIT]

end

/-- The mode that a server takes from flag words with these bits. -/
def flagsMode (version1 version2 runNow fullDuplex reverse : Bool) : ServerMode :=
  let mMode : TestMode := if version1 && !version2 then (if runNow then .dualTest else .tradeOff) else .normal
  if version2 then v2Mode fullDuplex reverse ⟨mMode, false, false, .server⟩ else ⟨mMode, false, false, .server⟩

theorem newServer_mode (listener : Listener) : serverMode (newServer listener.settings) = Mode.normal.server := by
  show ServerMode.mk _ listener.settings.isFullDuplex listener.settings.isServerReverse _ = _
  rw [listener.noFullDuplex, listener.noServerReverse]
  rfl

theorem applyV1_mode {server : ThreadSettings} (h : serverMode server = Mode.normal.server) (flags : BitVec 32) :
    serverMode (applyV1 flags server) = ⟨if v1test flags then v1Mode flags else .normal, false, false, .server⟩ := by
  obtain ⟨hmode, hfull, hreverse, hthread⟩ := ServerMode.mk.inj h
  show ServerMode.mk (if v1test flags then v1Mode flags else server.mMode) server.isFullDuplex server.isServerReverse
    server.mThreadMode = _
  rw [hmode, hfull, hreverse, hthread]

/-- One of the modes is asked for, and the server takes it unless `HEADER_VERSION2` hides `HEADER_VERSION1`. -/
theorem flagsMode_asked {client : ThreadSettings} (hclient : Accepted client) (hcompat : client.isCompat = false)
    (peer : Bool) :
    flagsMode (dualTest client) (peer || (client.isReverse || client.isFullDuplex))
        (dualTest client && client.mMode == .dualTest) (client.isFullDuplex && !client.isCompat)
        (client.isReverse && !client.isCompat) =
      (askedMode client).server ↔ peer = false ∨ client.mMode = .normal := by
  have honly := hclient.oneOnly
  unfold askedMode dualTest
  rw [hcompat]
  revert honly
  cases client.isFullDuplex <;> cases client.isReverse <;> cases client.mMode <;> cases peer <;> decide

theorem askedMode_normal {client : ThreadSettings} (h : fromServer client = false) : askedMode client = .normal := by
  unfold fromServer at h
  unfold askedMode
  revert h
  cases client.isFullDuplex <;> cases client.isReverse <;> cases client.mMode <;> decide

theorem small_test {mBuf : Buf} (h : mBuf.be16 16 = HEADER16_SMALL_TRIPTIMES) :
    Flags.test (mBuf.be32 16) HEADER32_SMALL_TRIPTIMES = true := by
  rw [Buf.be32_eq_append, h, show HEADER32_SMALL_TRIPTIMES = HEADER16_SMALL_TRIPTIMES ++ 0#16 by decide,
    Flags.test_append]
  decide

section
variable {client : ThreadSettings} (hclient : Accepted client) (hcompat : client.isCompat = false) (build : Build)
  (startTime : Timeval) (testhdr : Buf) (listener : Listener) (now : Int) {mBuf : Buf}
include hclient hcompat

theorem decodeHdr_udp (hudp : client.isUDP = true)
    (hmBuf : Agree (settingsGenerateClientHdr build client testhdr startTime).2
      (settingsGenerateClientHdr build client testhdr startTime).1 mBuf) :
    serverMode ((decodeHdr build listener.settings now true).run mBuf) = (askedMode client).server := by
  show serverMode ((applyUdpHdr (mBuf.be32 16) now (newServer listener.settings)).run mBuf) = _
  cases hsmall : client.isSmallTripTime
  · have hgen : settingsGenerateClientHdr build client testhdr startTime =
        (udpHdr client startTime testhdr, udpLen client) := by
      simp only [settingsGenerateClientHdr, hudp, hsmall, Bool.and_false, Bool.false_eq_true, if_false, if_true]
    rw [hgen] at hmBuf
    obtain ⟨hflags, hupper⟩ := udpHdr_received client startTime testhdr hmBuf
    obtain ⟨hnot, -, hversion1, hversion2, hrun⟩ := udpFlags_mode client
    obtain ⟨hfull, hreverse⟩ := udpUpperflags_mode client startTime
    have hasked := (flagsMode_asked hclient hcompat false).mpr (Or.inl rfl)
    rw [Bool.false_or] at hasked
    rw [hflags, applyUdpHdr_mode _ _ _ _ hnot, hupper, hfull, hreverse, applyV1_mode (newServer_mode listener), ← hasked, flagsMode,
      v1test, v1Mode, hversion1, hversion2, hrun]
  · have hgen : settingsGenerateClientHdr build client testhdr startTime =
        (testhdr.store16 16 HEADER16_SMALL_TRIPTIMES, MINIPERFPAYLOAD) := by
      simp only [settingsGenerateClientHdr, hudp, hsmall, Bool.and_true, if_true]
    rw [hgen] at hmBuf
    have hupper : mBuf.be16 16 = HEADER16_SMALL_TRIPTIMES :=
      (hmBuf.be16 (show 16 + 2 ≤ MINIPERFPAYLOAD by decide)).symm.trans (Buf.be16_store ..)
    obtain ⟨-, hserver, -⟩ := hclient.tripTimes.small hsmall
    rw [applyUdpHdr_small _ _ _ _ (small_test hupper), askedMode_normal hserver]
    exact newServer_mode listener

/-- The server has the mode unless `-X` hides `-d` or `-r`. -/
theorem applyTcpHdr_asked {server : ThreadSettings} (hserver : serverMode server = Mode.normal.server)
    (hmBuf : Agree (tcpKeyOffset client) (tcpHdr build client startTime testhdr) mBuf) :
    serverMode ((applyTcpHdr build (tcpFlags client) now server).run mBuf) =
      (askedMode client).server ↔ client.isPeerVerDetect = false ∨ client.mMode = .normal := by
  have hlen := tcpLen_cases client
  have hoffset : 60 ≤ tcpKeyOffset client := by
    unfold tcpKeyOffset
    omega
  have hupper : mBuf.be16 32 = tcpUpperflags build client startTime :=
    (hmBuf.be16 (by omega)).symm.trans (tcpHdr_upperflags build client startTime testhdr)
  obtain ⟨hextend, hversion1, hversion2, hrun⟩ := tcpFlags_mode client
  obtain ⟨hfull, hreverse⟩ := tcpUpperflags_mode client startTime build
  rw [applyTcpHdr_mode _ _ _ _ _ hextend, hupper, hfull, hreverse, applyV1_mode hserver, v1test, v1Mode, hversion1,
    hversion2, hrun]
  exact flagsMode_asked hclient hcompat client.isPeerVerDetect

end

/-- Over TCP, `-X` must not go with `-d` or `-r`; and a listener and a client without permit keys come to this on the
whole connection. -/
theorem test_mode_agreement {env : Environment} {options : CommandLine} {client : ThreadSettings}
    (haccepted : settingsModalOptions env options.settings = some client) (hcompat : client.isCompat = false)
    (build : Build) (startTime : Timeval) (testhdr : Buf) (listener : Listener) (now : Int) :
    (∀ mBuf, Agree (settingsGenerateClientHdr build client testhdr startTime).2
        (settingsGenerateClientHdr build client testhdr startTime).1 mBuf →
      (serverMode ((decodeHdr build listener.settings now client.isUDP).run mBuf) = (askedMode client).server ↔
        client.isUDP = true ∨ client.isPeerVerDetect = false ∨ client.mMode = .normal)) ∧
    (client.isUDP = false → tcpPermitKey client = false → listener.settings.isPermitKey = false →
      ∀ mBuf front traffic,
        let stream := sentHdr build client testhdr startTime ++ traffic
        let r := applyClientSettingsTcp build listener.settings now (.start listener.settings mBuf front stream)
        r.1 = .accept ∧ (serverMode r.2.server = (askedMode client).server ↔
          client.isPeerVerDetect = false ∨ client.mMode = .normal)) := by
  have hclient := settingsModalOptions_accepted haccepted
  constructor
  · intro mBuf hmBuf
    cases hudp : client.isUDP
    · have hgen : settingsGenerateClientHdr build client testhdr startTime =
          (tcpHdr build client startTime testhdr, tcpKeyOffset client + tcpKeylen client) := by
        simp only [settingsGenerateClientHdr, hudp, Bool.false_and, Bool.false_eq_true, if_false]
      rw [hgen] at hmBuf
      have hagree : Agree (tcpKeyOffset client) (tcpHdr build client startTime testhdr) mBuf :=
        hmBuf.mono (Nat.le_add_right _ _)
      have hlen := tcpLen_cases client
      have hoffset : 60 ≤ tcpKeyOffset client := by
        unfold tcpKeyOffset
        omega
      have hflags : mBuf.be32 0 = tcpFlags client :=
        (hagree.be32 (by omega)).symm.trans (tcpHdr_flags build client startTime testhdr)
      show serverMode ((applyTcpHdr build (mBuf.be32 0) now (newServer listener.settings)).run mBuf) = _ ↔ _
      rw [hflags, applyTcpHdr_asked hclient hcompat build startTime testhdr now (newServer_mode listener) hagree]
      simp
    · rw [decodeHdr_udp hclient hcompat build startTime testhdr listener now hudp hmBuf]
      simp
  · intro htcp hkey hlistener mBuf front traffic
    have hread := applyClientSettingsTcp_tcpHdr build htcp startTime testhdr
      (.start listener.settings mBuf front (sentHdr build client testhdr startTime ++ traffic)) rfl listener.settings now
    have hagree := received_agree build htcp startTime testhdr
      (.start listener.settings mBuf front (sentHdr build client testhdr startTime ++ traffic)) rfl
      (Nat.le_add_right (tcpKeyOffset client) (tcpKeylen client))
    have hnokey : Flags.test (tcpFlags client) HEADER_KEYCHECK = false := by
      rw [tcpFlags_test client (by decide), hkey]
      simp [Flags.test, HEADER_KEYCHECK, HEADER_EXTEND, HEADER_VERSION1, HEADER_VERSION2, RUN_NOW,
        HEADER_V2PEERDETECT, HEADER_LEN_BIT]
    simp only [hread, applyTcpRead, checkKey, hlistener, hnokey, Bool.false_eq_true, if_false, true_and]
    exact applyTcpHdr_asked hclient hcompat build startTime testhdr now (newServer_mode listener) hagree.symm

/-- `-c host -d -X` -/
def peerDetectDualTest : CommandLine where
  settings := { (default : ThreadSettings) with
    mMode := .dualTest
    isPeerVerDetect := true }
  client := rfl
  noServerReverse := rfl
  noSmallTripTime := rfl

theorem peerDetectDualTest_accepted :
    settingsModalOptions default peerDetectDualTest.settings = some (modalDefaults peerDetectDualTest.settings) := rfl

/-- `-s` -/
def defaultListener : Listener where
  settings := default
  noFullDuplex := rfl
  noServerReverse := rfl
  noIsochronous := rfl
  noPeriodicBurst := rfl
  noTxStartTime := rfl
  noTripTime := rfl
  noSeqNo64b := rfl

theorem test_mode_agreement_peer_detect_dual_test :
    ¬ serverMode (applyClientSettingsTcp ⟨true, false⟩ defaultListener.settings 0
        (.start defaultListener.settings (fun _ => 0) 0
          (sentHdr ⟨true, false⟩ (modalDefaults peerDetectDualTest.settings) (fun _ => 0) ⟨0, 0⟩))).2.server =
      Mode.dualTest.server := by
  have h := (test_mode_agreement peerDetectDualTest_accepted rfl ⟨true, false⟩ ⟨0, 0⟩ (fun _ => 0) defaultListener
    0).2 rfl rfl rfl (fun _ => 0) 0 []
  simp only [List.append_nil] at h
  intro hserver
  rcases h.2.mp hserver with hpeer | hmode
  · cases hpeer
  · cases hmode

/-- `-d -X` over TCP puts the server in the normal mode. -/
theorem test_mode_agreement_fails :
    ¬ ∀ (env : Environment) (options : CommandLine) (client : ThreadSettings),
      settingsModalOptions env options.settings = some client → client.isCompat = false →
      ∀ (build : Build) (startTime : Timeval) (testhdr : Buf) (listener : Listener) (now : Int) (mBuf : Buf),
        Agree (settingsGenerateClientHdr build client testhdr startTime).2
          (settingsGenerateClientHdr build client testhdr startTime).1 mBuf →
        serverMode ((decodeHdr build listener.settings now client.isUDP).run mBuf) = (askedMode client).server := by
  intro h
  have hmode := h default peerDetectDualTest _ peerDetectDualTest_accepted rfl ⟨true, false⟩ ⟨0, 0⟩ (fun _ => 0)
    defaultListener 0 _ (fun _ _ => rfl)
  revert hmode
  decide

end Iperf2.Header
