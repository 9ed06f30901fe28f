import Iperf2.Header.Mode

/-!
# What the decoders read

Which bytes of the buffer each decoder looks at, by the flags that license it.

* `covered_applyTcpHdr`, `covered_applyUdpHdr` : the reads of `apply_client_settings_tcp` and `_udp`;
* `covered_settingsGenerateClientSettings` : those of `Settings_GenerateClientSettings`;
* `applyTcpHdr_reader`, `applyUdpHdr_reader` : the fields of a server that decide what is read of its header later.
-/

namespace Iperf2.Header
open Report Decoder

section
variable (n : Nat) (b : Buf) (build : Build) (flags : BitVec 32) (upperflags : BitVec 16) (now : Int)
  (server client : ThreadSettings)

/-! ## Parts -/

theorem covered_applyVersion (extend : Nat) : Covered n (applyVersion extend server) b ↔ extend + 24 ≤ n := by
  simp only [applyVersion, covered_bind, covered_ntohs, covered_ntohl, covered_pure, and_true]
  omega

theorem covered_startTimestamp (startFq : Nat) : Covered n (startTimestamp startFq) b ↔ startFq + 12 ≤ n := by
  simp only [startTimestamp, covered_bind, covered_ntohl, covered_pure, and_true]
  omega

theorem covered_applyEpochStart (startFq : Nat) :
    Covered n (applyEpochStart startFq upperflags now server) b ↔
      (Flags.test upperflags HEADER_EPOCH_START = true → startFq + 12 ≤ n) := by
  simp only [applyEpochStart, covered_ite, covered_bind, covered_startTimestamp, covered_pure]
  tauto

theorem covered_applyTripTime (startFq : Nat) :
    Covered n (applyTripTime startFq upperflags now server) b ↔
      (Flags.test upperflags HEADER_TRIPTIME = true → startFq + 12 ≤ n) := by
  simp only [applyTripTime, covered_ite, covered_bind, covered_startTimestamp, covered_pure]
  tauto

theorem covered_fixedPoint (o : Nat) : Covered n (fixedPoint o) b ↔ o + 8 ≤ n := by
  simp only [fixedPoint, covered_bind, covered_ntohl, covered_pure, and_true]
  omega

theorem covered_applyPeriodicBurst :
    Covered n (applyPeriodicBurst upperflags server) b ↔
      (Flags.test upperflags HEADER_PERIODICBURST = true → 88 ≤ n) := by
  simp only [applyPeriodicBurst, covered_ite, covered_bind, covered_fixedPoint, covered_pure]
  tauto

/-- The listener reads the value of `--tcp-write-prefetch`. -/
def prefetches (build : Build) (upperflags : BitVec 16) (mode : ServerMode) : Bool :=
  build.tcpNotsentLowat && (mode.isServerReverse || mode.isFullDuplex) && Flags.test upperflags HEADER_WRITEPREFETCH

theorem covered_applyWritePrefetch :
    Covered n (applyWritePrefetch build upperflags server) b ↔
      (prefetches build upperflags (serverMode server) = true → 60 ≤ n) := by
  simp only [applyWritePrefetch, covered_ite, covered_bind, covered_ntohl, covered_pure, prefetches, serverMode]
  tauto

/-! ## Headers -/

/-- The mode of a server once the upper flags are applied. -/
def appliedMode (flags : BitVec 32) (upperflags : BitVec 16) (server : ThreadSettings) : ServerMode :=
  if Flags.test flags HEADER_VERSION2 then
    v2Mode (Flags.test upperflags HEADER_FULLDUPLEX) (Flags.test upperflags HEADER_REVERSE)
      (serverMode (applyV1 flags server))
  else serverMode (applyV1 flags server)

theorem covered_applyTcpHdr :
    Covered n (applyTcpHdr build flags now server) b ↔
      (Flags.test flags HEADER_EXTEND = true → 48 ≤ n ∧
        (Flags.test (b.be16 32) HEADER_EPOCH_START = true → 72 ≤ n) ∧
        (Flags.test (b.be16 32) HEADER_TRIPTIME = true → 72 ≤ n) ∧
        (Flags.test (b.be16 32) HEADER_PERIODICBURST = true → 88 ≤ n) ∧
        (prefetches build (b.be16 32) (appliedMode flags (b.be16 32) server) = true → 60 ≤ n)) := by
  simp only [applyTcpHdr, covered_ite, covered_pure, implies_true, and_true, applyTcpExtend, covered_bind, run_ntohs,
    covered_ntohs, covered_applyVersion, covered_applyEpochStart, covered_applyTripTime, covered_applyPeriodicBurst,
    covered_applyWritePrefetch, applyTcpV2_mode, applyPeriodicBurst_mode, applyTripTime_mode, applyEpochStart_mode]
  apply imp_congr_right
  intro _
  constructor
  · rintro ⟨_, hversion, hepoch, htrip, hburst, hprefetch⟩
    exact ⟨hversion, hepoch, htrip, hburst, hprefetch⟩
  · rintro ⟨hversion, hepoch, htrip, hburst, hprefetch⟩
    exact ⟨by omega, hversion, hepoch, htrip, hburst, hprefetch⟩

theorem applyWritePrefetch_value (hprefetch : prefetches build upperflags (serverMode server) = true) :
    ((applyWritePrefetch build upperflags server).run b).mWritePrefetch = (b.be32 56).toInt := by
  have hcond : (build.tcpNotsentLowat && (server.isServerReverse || server.isFullDuplex) &&
      Flags.test upperflags HEADER_WRITEPREFETCH) = true := hprefetch
  unfold applyWritePrefetch
  rw [run_ite, if_pos hcond]
  rfl

theorem applyTcpHdr_mWritePrefetch (hextend : Flags.test flags HEADER_EXTEND = true)
    (hprefetch : prefetches build (b.be16 32) (appliedMode flags (b.be16 32) server) = true) :
    ((applyTcpHdr build flags now server).run b).mWritePrefetch = (b.be32 56).toInt := by
  unfold applyTcpHdr
  simp only [hextend, if_true, applyTcpExtend, run_bind, run_ntohs]
  apply applyWritePrefetch_value
  rw [applyTcpV2_mode, applyPeriodicBurst_mode, applyTripTime_mode, applyEpochStart_mode]
  exact hprefetch

theorem covered_applyUdpHdr :
    Covered n (applyUdpHdr flags now server) b ↔
      if Flags.test flags HEADER32_SMALL_TRIPTIMES then 12 ≤ n
      else
        (Flags.test flags HEADER_EXTEND = true → 64 ≤ n ∧
          (Flags.test (b.be16 48) HEADER_EPOCH_START = true → 120 ≤ n) ∧
          (Flags.test (b.be16 48) HEADER_TRIPTIME = true → 120 ≤ n)) ∧
        (Flags.test flags HEADER_VERSION2 = true → 50 ≤ n) := by
  unfold applyUdpHdr
  split
  · simp only [applyUdpSmall, covered_bind, covered_ntohl, covered_pure, and_true]
    omega
  · simp only [applyUdpFull, covered_bind, covered_ite, covered_pure, applyUdpExtend, covered_ntohs,
      covered_applyVersion, covered_applyEpochStart, covered_applyTripTime, run_ntohs, implies_true, and_true]
    constructor
    · rintro ⟨hextend, hversion2⟩
      exact ⟨fun h => (hextend h).2, hversion2⟩
    · rintro ⟨hextend, hversion2⟩
      exact ⟨fun h => ⟨by have := (hextend h).1; omega, hextend h⟩, hversion2⟩

/-! ## Settings of the started client -/

theorem covered_settingsReadClientSettingsV1 (base : Nat) :
    Covered n (settingsReadClientSettingsV1 base client) b ↔ base + 24 ≤ n := by
  simp only [settingsReadClientSettingsV1, covered_bind, covered_ntohl, covered_pure, and_true]
  omega

theorem covered_settingsReadClientSettingsIsoch (isochSettings : Nat) :
    Covered n (settingsReadClientSettingsIsoch isochSettings client) b ↔ isochSettings + 32 ≤ n := by
  simp only [settingsReadClientSettingsIsoch, covered_bind, covered_fixedPoint, covered_pure, and_true]
  omega

theorem covered_settingsReadClientSettingsBurst (isochSettings : Nat) :
    Covered n (settingsReadClientSettingsBurst isochSettings client) b ↔ isochSettings + 8 ≤ n := by
  simp only [settingsReadClientSettingsBurst, covered_bind, covered_fixedPoint, covered_pure, and_true]

theorem covered_readRate (extend : Nat) : Covered n (readRate extend client) b ↔ extend + 32 ≤ n := by
  simp only [readRate, covered_bind, covered_ntohl, covered_pure, and_true]
  omega

theorem covered_readTOS (extend : Nat) : Covered n (readTOS extend client) b ↔ extend + 24 ≤ n := by
  simp only [readTOS, covered_bind, covered_ntohs, covered_pure, and_true]

theorem covered_readFQRate (startFq : Nat) :
    Covered n (readFQRate upperflags startFq client) b ↔
      (Flags.test upperflags HEADER_FQRATESET = true → startFq + 20 ≤ n) := by
  simp only [readFQRate, covered_ite, covered_bind, covered_ntohl, covered_pure, implies_true, and_true]
  apply imp_congr_right
  omega

theorem covered_readUdpExtend :
    Covered n (readUdpExtend server client) b ↔ 72 ≤ n ∧ (server.isIsochronous = true → 160 ≤ n) ∧
      (Flags.test (b.be16 48) HEADER_FQRATESET = true → 128 ≤ n) := by
  simp only [readUdpExtend, readUdpIsoch, covered_bind, covered_readRate, covered_ntohs, covered_readTOS, covered_ite,
    covered_settingsReadClientSettingsIsoch, covered_pure, covered_readFQRate, run_ntohs, implies_true, and_true]
  constructor
  · rintro ⟨hrate, -, -, hisoch, hfq⟩
    exact ⟨hrate, hisoch, hfq⟩
  · rintro ⟨hrate, hisoch, hfq⟩
    exact ⟨hrate, by omega, by omega, hisoch, hfq⟩

theorem covered_readTcpExtend :
    Covered n (readTcpExtend server client) b ↔ 56 ≤ n ∧ (server.isIsochronous = true → 112 ≤ n) ∧
      (server.isIsochronous = false → server.isPeriodicBurst = true → 88 ≤ n) ∧
      (Flags.test (b.be16 32) HEADER_FQRATESET = true → 80 ≤ n) := by
  simp only [readTcpExtend, readTcpIsoch, covered_bind, covered_readRate, covered_ntohs, covered_readTOS, covered_ite,
    covered_settingsReadClientSettingsIsoch, covered_settingsReadClientSettingsBurst, covered_pure, covered_readFQRate,
    run_ntohs, implies_true, and_true, Bool.not_eq_true]
  constructor
  · rintro ⟨hrate, -, -, ⟨hisoch, hburst⟩, hfq⟩
    exact ⟨hrate, hisoch, hburst, hfq⟩
  · rintro ⟨hrate, hisoch, hburst, hfq⟩
    exact ⟨hrate, by omega, by omega, ⟨hisoch, hburst⟩, hfq⟩

/-- `Settings_GenerateClientSettings` reads more than the flags if it starts a client. -/
theorem covered_settingsGenerateClientSettings (o : Nat) (ho : (if server.isUDP then 16 else 0) = o) :
    Covered n (settingsGenerateClientSettings server) b ↔ o + 4 ≤ n ∧
      (startsClient (b.be32 o) server = true → Covered n (readReversed (b.be32 o) server) b) := by
  unfold settingsGenerateClientSettings
  rw [ho, covered_bind, covered_ntohl, run_ntohl, covered_ite]
  simp only [covered_bind, covered_pure, implies_true, and_true, true_and, Bool.not_eq_true', Bool.not_eq_false]

theorem covered_readReversed_tcp (htcp : server.isUDP = false) :
    Covered n (readReversed flags server) b ↔ 24 ≤ n ∧
      (Flags.test flags HEADER_EXTEND = true → 56 ≤ n ∧ (server.isIsochronous = true → 112 ≤ n) ∧
        (server.isIsochronous = false → server.isPeriodicBurst = true → 88 ≤ n) ∧
        (Flags.test (b.be16 32) HEADER_FQRATESET = true → 80 ≤ n)) := by
  unfold readReversed
  simp only [htcp, covered_bind, covered_ite, covered_pure, covered_settingsReadClientSettingsV1,
    covered_readTcpExtend, Bool.false_eq_true, if_false, implies_true, and_true, Nat.zero_add]

theorem covered_readReversed_udp (hudp : server.isUDP = true) :
    Covered n (readReversed flags server) b ↔ 40 ≤ n ∧
      (Flags.test flags HEADER_EXTEND = true → 72 ≤ n ∧ (server.isIsochronous = true → 160 ≤ n) ∧
        (Flags.test (b.be16 48) HEADER_FQRATESET = true → 128 ≤ n)) := by
  unfold readReversed
  simp only [hudp, covered_bind, covered_ite, covered_pure, covered_settingsReadClientSettingsV1,
    covered_readUdpExtend, if_true, implies_true, and_true]

end

/-! ## What decides what is read later -/

/-- The fields of a server that `Settings_GenerateClientSettings` goes by. -/
structure Reader where
  isUDP : Bool
  isIsochronous : Bool
  isPeriodicBurst : Bool

def reader (server : ThreadSettings) : Reader := ⟨server.isUDP, server.isIsochronous, server.isPeriodicBurst⟩

section
variable (flags : BitVec 32) (upperflags : BitVec 16) (now : Int) (server : ThreadSettings) (b : Buf)

theorem applyEpochStart_reader (startFq : Nat) :
    reader ((applyEpochStart startFq upperflags now server).run b) = reader server :=
  applyEpochStart_frame reader _ _ _ _ _ fun _ _ _ => rfl

theorem applyTripTime_reader (startFq : Nat) :
    reader ((applyTripTime startFq upperflags now server).run b) = reader server :=
  applyTripTime_frame reader _ _ _ _ _ fun _ _ _ _ => rfl

theorem applyPeriodicBurst_reader :
    reader ((applyPeriodicBurst upperflags server).run b) =
      { reader server with
        isPeriodicBurst := server.isPeriodicBurst || Flags.test upperflags HEADER_PERIODICBURST } := by
  unfold applyPeriodicBurst
  rw [run_ite]
  cases Flags.test upperflags HEADER_PERIODICBURST
  · rw [if_neg Bool.false_ne_true, Bool.or_false]
    rfl
  · rw [if_pos rfl, Bool.or_true]
    rfl

theorem applyWritePrefetch_reader (build : Build) :
    reader ((applyWritePrefetch build upperflags server).run b) = reader server :=
  applyWritePrefetch_frame reader _ _ _ _ fun _ _ _ => rfl

theorem applyTcpV2_reader : reader (applyTcpV2 flags upperflags server) = reader server :=
  applyTcpV2_frame reader _ _ _ fun _ _ _ _ => rfl

theorem applyTcpHdr_reader (build : Build) (hextend : Flags.test flags HEADER_EXTEND = true) :
    reader ((applyTcpHdr build flags now server).run b) =
      ⟨server.isUDP, server.isIsochronous || Flags.test (b.be16 32) HEADER_ISOCH,
        server.isPeriodicBurst || Flags.test (b.be16 32) HEADER_PERIODICBURST⟩ := by
  unfold applyTcpHdr
  simp only [hextend, if_true, applyTcpExtend, run_bind, run_ntohs]
  rw [applyWritePrefetch_reader, applyTcpV2_reader, applyPeriodicBurst_reader]
  have hkept (server : ThreadSettings) :
      reader ((applyTripTime 60 (b.be16 32) now ((applyEpochStart 60 (b.be16 32) now server).run b)).run b) =
        reader server := by
    rw [applyTripTime_reader, applyEpochStart_reader]
  have hburst (server : ThreadSettings) :
      ((applyTripTime 60 (b.be16 32) now ((applyEpochStart 60 (b.be16 32) now server).run b)).run b).isPeriodicBurst =
        server.isPeriodicBurst := congrArg Reader.isPeriodicBurst (hkept server)
  rw [hkept, hburst]
  rfl

theorem applyUdpHdr_reader (hsmall : Flags.test flags HEADER32_SMALL_TRIPTIMES = false)
    (hextend : Flags.test flags HEADER_EXTEND = true) :
    reader ((applyUdpHdr flags now server).run b) =
      ⟨server.isUDP,
        server.isIsochronous || Flags.test flags HEADER_UDPTESTS && Flags.test (b.be16 48) HEADER_ISOCH,
        server.isPeriodicBurst⟩ := by
  have hread (server : ThreadSettings) :
      reader ((applyUdpExtend flags now server).run b) =
        ⟨server.isUDP,
          server.isIsochronous || Flags.test flags HEADER_UDPTESTS && Flags.test (b.be16 48) HEADER_ISOCH,
          server.isPeriodicBurst⟩ := by
    simp only [applyUdpExtend, run_bind, run_ntohs]
    rw [applyTripTime_reader, applyEpochStart_reader]
    unfold applyUdpTests
    cases Flags.test flags HEADER_UDPTESTS
    · rw [if_neg Bool.false_ne_true, Bool.false_and, Bool.or_false]
      rfl
    · rw [if_pos rfl, Bool.true_and]
      rfl
  unfold applyUdpHdr applyUdpFull
  simp only [hsmall, hextend, Bool.false_eq_true, if_false, if_true, run_bind, run_ite, run_ntohs, run_pure]
  split
  · show reader ((applyUdpExtend flags now _).run b) = _
    rw [hread]
    rfl
  · rw [hread]
    rfl

end

end Iperf2.Header
