import Iperf2.Header.Connection

/-!
# What the decoders leave alone

Each part of a header sets a few fields of the server. Whatever is made of the other fields is as before.

* `applyEpochStart_frame` and its siblings : the parts, for any function of the settings that does not see their fields;
* `applyTcpHdr_tos`, `applyTcpHdr_txstartEpoch`, … : the fields that a TCP header sets, and where they come from;
* `applyUdpHdr_tos`, `applyUdpHdr_txstartEpoch`, … : the same for UDP.
-/

namespace Iperf2.Header
open Report Decoder

section
variable {β : Type} (g : ThreadSettings → β) (build : Build) (flags : BitVec 32) (upperflags : BitVec 16) (now : Int)
  (startFq : Nat) (server : ThreadSettings) (b : Buf)

theorem applyEpochStart_frame
    (hg : ∀ s txstartEpoch isTxStartTime, g { s with
      txstartEpoch
      isTxStartTime } = g s) :
    g ((applyEpochStart startFq upperflags now server).run b) = g server := by
  unfold applyEpochStart
  rw [run_ite]
  split
  · exact hg ..
  · rfl

theorem applyTripTime_frame
    (hg : ∀ s sentTime isTripTime isEnhanced, g { s with
      sentTime
      isTripTime
      isEnhanced } = g s) :
    g ((applyTripTime startFq upperflags now server).run b) = g server := by
  unfold applyTripTime
  rw [run_ite]
  split
  · exact hg ..
  · rfl

theorem applyPeriodicBurst_frame
    (hg : ∀ s isEnhanced isFrameInterval isPeriodicBurst mFPS, g { s with
      isEnhanced
      isFrameInterval
      isPeriodicBurst
      mFPS } = g s) :
    g ((applyPeriodicBurst upperflags server).run b) = g server := by
  unfold applyPeriodicBurst
  rw [run_ite]
  split
  · exact hg ..
  · rfl

theorem applyTcpV2_frame
    (hg : ∀ s isFullDuplex isServerReverse mThreadMode, g { s with
      isFullDuplex
      isServerReverse
      mThreadMode } = g s) :
    g (applyTcpV2 flags upperflags server) = g server := by
  unfold applyTcpV2
  split
  · exact hg ..
  · rfl

theorem applyWritePrefetch_frame
    (hg : ∀ s mWritePrefetch isWritePrefetch, g { s with
      mWritePrefetch
      isWritePrefetch } = g s) :
    g ((applyWritePrefetch build upperflags server).run b) = g server := by
  unfold applyWritePrefetch
  rw [run_ite]
  split
  · exact hg ..
  · rfl

end

/-! ## TCP -/

section
variable (build : Build) (flags : BitVec 32) (now : Int) (server : ThreadSettings) (b : Buf)

/-- A field that no part of a TCP header sets but for the type of service and the version. -/
theorem applyTcpExtend_frame {β : Type} (g : ThreadSettings → β)
    (hepoch : ∀ s txstartEpoch isTxStartTime, g { s with
      txstartEpoch
      isTxStartTime } = g s)
    (htrip : ∀ s sentTime isTripTime isEnhanced, g { s with
      sentTime
      isTripTime
      isEnhanced } = g s)
    (hburst : ∀ s isEnhanced isFrameInterval isPeriodicBurst mFPS, g { s with
      isEnhanced
      isFrameInterval
      isPeriodicBurst
      mFPS } = g s)
    (hv2 : ∀ s isFullDuplex isServerReverse mThreadMode, g { s with
      isFullDuplex
      isServerReverse
      mThreadMode } = g s)
    (hprefetch : ∀ s mWritePrefetch isWritePrefetch, g { s with
      mWritePrefetch
      isWritePrefetch } = g s)
    (hisoch : ∀ s isIsochronous, g { s with isIsochronous } = g s) :
    g ((applyTcpExtend build flags now server).run b) = g ((applyVersion 24 server).run b) := by
  simp only [applyTcpExtend, run_bind, run_ntohs]
  rw [applyWritePrefetch_frame g _ _ _ _ hprefetch, applyTcpV2_frame g _ _ _ hv2,
    applyPeriodicBurst_frame g _ _ _ hburst, applyTripTime_frame g _ _ _ _ _ htrip,
    applyEpochStart_frame g _ _ _ _ _ hepoch]
  exact hisoch ..

theorem applyTcpHdr_mPermitKey : ((applyTcpHdr build flags now server).run b).mPermitKey = server.mPermitKey := by
  unfold applyTcpHdr
  rw [run_ite]
  split
  · exact applyTcpExtend_frame _ _ _ _ _ ThreadSettings.mPermitKey (fun _ _ _ => rfl) (fun _ _ _ _ => rfl)
      (fun _ _ _ _ _ => rfl) (fun _ _ _ _ => rfl) (fun _ _ _ => rfl) (fun _ _ => rfl)
  · rfl

variable {flags} (hextend : Flags.test flags HEADER_EXTEND = true)
include hextend

theorem applyTcpHdr_tos : ((applyTcpHdr build flags now server).run b).mTOS = (b.be16 46).toNat := by
  unfold applyTcpHdr
  rw [run_ite, if_pos hextend]
  exact applyTcpExtend_frame _ _ _ _ _ ThreadSettings.mTOS (fun _ _ _ => rfl) (fun _ _ _ _ => rfl)
    (fun _ _ _ _ _ => rfl) (fun _ _ _ _ => rfl) (fun _ _ _ => rfl) (fun _ _ => rfl)

theorem applyTcpHdr_txstartEpoch (hepoch : Flags.test (b.be16 32) HEADER_EPOCH_START = true) :
    ((applyTcpHdr build flags now server).run b).txstartEpoch = ⟨(b.be32 64).toNat, (b.be32 68).toNat⟩ := by
  unfold applyTcpHdr
  simp only [hextend, if_true, applyTcpExtend, run_bind, run_ntohs]
  rw [applyWritePrefetch_frame ThreadSettings.txstartEpoch _ _ _ _ fun _ _ _ => rfl,
    applyTcpV2_frame ThreadSettings.txstartEpoch _ _ _ fun _ _ _ _ => rfl,
    applyPeriodicBurst_frame ThreadSettings.txstartEpoch _ _ _ fun _ _ _ _ _ => rfl,
    applyTripTime_frame ThreadSettings.txstartEpoch _ _ _ _ _ fun _ _ _ _ => rfl, applyEpochStart, run_ite,
    if_pos hepoch]
  rfl

theorem applyTcpHdr_sentTime (htrip : Flags.test (b.be16 32) HEADER_TRIPTIME = true) :
    ((applyTcpHdr build flags now server).run b).sentTime = ⟨(b.be32 64).toNat, (b.be32 68).toNat⟩ := by
  unfold applyTcpHdr
  simp only [hextend, if_true, applyTcpExtend, run_bind, run_ntohs]
  rw [applyWritePrefetch_frame ThreadSettings.sentTime _ _ _ _ fun _ _ _ => rfl,
    applyTcpV2_frame ThreadSettings.sentTime _ _ _ fun _ _ _ _ => rfl,
    applyPeriodicBurst_frame ThreadSettings.sentTime _ _ _ fun _ _ _ _ _ => rfl, applyTripTime, run_ite,
    if_pos htrip]
  rfl

theorem applyTcpHdr_mFPS (hburst : Flags.test (b.be16 32) HEADER_PERIODICBURST = true) :
    ((applyTcpHdr build flags now server).run b).mFPS =
      if (fixedPoint 80).run b = 0 then 1 else (fixedPoint 80).run b := by
  unfold applyTcpHdr
  simp only [hextend, if_true, applyTcpExtend, run_bind, run_ntohs]
  rw [applyWritePrefetch_frame ThreadSettings.mFPS _ _ _ _ fun _ _ _ => rfl,
    applyTcpV2_frame ThreadSettings.mFPS _ _ _ fun _ _ _ _ => rfl, applyPeriodicBurst, run_ite, if_pos hburst]
  simp only [run_bind, run_pure]

end

/-! ## UDP -/

section
variable {flags : BitVec 32} (now : Int) (server : ThreadSettings) (b : Buf)
  (hsmall : Flags.test flags HEADER32_SMALL_TRIPTIMES = false) (hextend : Flags.test flags HEADER_EXTEND = true)
include hsmall hextend

/-- The full duplex and reverse flags come last. -/
theorem applyUdpHdr_frame {β : Type} (g : ThreadSettings → β)
    (hv2 : ∀ s isFullDuplex isServerReverse mThreadMode isNoUDPfin isReport, g { s with
      isFullDuplex
      isServerReverse
      mThreadMode
      isNoUDPfin
      isReport } = g s) :
    g ((applyUdpHdr flags now server).run b) =
      g ((applyUdpExtend flags now (applyV1 flags (applySeqNo64b flags server))).run b) := by
  unfold applyUdpHdr applyUdpFull
  simp only [hsmall, hextend, Bool.false_eq_true, if_false, if_true, run_bind, run_ite, run_ntohs, run_pure]
  split
  · exact hv2 ..
  · rfl

theorem applyUdpHdr_tos : ((applyUdpHdr flags now server).run b).mTOS = (b.be16 62).toNat := by
  rw [applyUdpHdr_frame now server b hsmall hextend ThreadSettings.mTOS fun _ _ _ _ _ _ => rfl]
  simp only [applyUdpExtend, run_bind, run_ntohs]
  rw [applyTripTime_frame ThreadSettings.mTOS _ _ _ _ _ fun _ _ _ _ => rfl,
    applyEpochStart_frame ThreadSettings.mTOS _ _ _ _ _ fun _ _ _ => rfl]
  unfold applyUdpTests
  split <;> rfl

theorem applyUdpHdr_txstartEpoch (hepoch : Flags.test (b.be16 48) HEADER_EPOCH_START = true) :
    ((applyUdpHdr flags now server).run b).txstartEpoch = ⟨(b.be32 112).toNat, (b.be32 116).toNat⟩ := by
  rw [applyUdpHdr_frame now server b hsmall hextend ThreadSettings.txstartEpoch fun _ _ _ _ _ _ => rfl]
  simp only [applyUdpExtend, run_bind, run_ntohs]
  rw [applyTripTime_frame ThreadSettings.txstartEpoch _ _ _ _ _ fun _ _ _ _ => rfl, applyEpochStart, run_ite,
    if_pos hepoch]
  rfl

theorem applyUdpHdr_sentTime (htrip : Flags.test (b.be16 48) HEADER_TRIPTIME = true) :
    ((applyUdpHdr flags now server).run b).sentTime = ⟨(b.be32 112).toNat, (b.be32 116).toNat⟩ := by
  rw [applyUdpHdr_frame now server b hsmall hextend ThreadSettings.sentTime fun _ _ _ _ _ _ => rfl]
  simp only [applyUdpExtend, run_bind, run_ntohs]
  rw [applyTripTime, run_ite, if_pos htrip]
  rfl

end

end Iperf2.Header
