import Iperf2.Header.Types

/-!
# Accepted client settings

`Settings_ModalOptions` for a client: the defaults that depend on several options, and the combinations on which iperf
exits (`none`). Clock, address lookups and the globals of the option parser are an `Environment`. Messages, histogram
settings and the parsing of host names are left out.

* `CommandLine` : the settings of a client as `Settings_Initialize` and `Settings_Interpret` leave them;
* `Accepted` : what every client that passes has, `settingsModalOptions_accepted`.
-/

namespace Iperf2.Header
open Report

/-! ## The environment -/

/-- What `strtok` and `atof` find in the argument of `--isochronous`. -/
inductive IsochronousStr
  | invalid
  | fps (fps : Rat)
  | mean (fps mean : Rat) (variance : Option Rat)

/-- The seconds of the clock, the globals of the option parser, and whether there is a bind address and a multicast
destination. -/
structure Environment where
  now : Int
  infinitetime : Bool
  l2checks : Bool
  mLocalhost : Bool
  peerMulticast : Bool
  mIsochronousStr : Option IsochronousStr
  deriving Inhabited

def kDefault_UDPRate : Nat := 1024 * 1024
def kDefault_UDPBufLen : Int := 1470
def kDefault_UDPBufLenV6 : Int := 1450
def kDefault_TCPBufLen : Int := 128 * 1024
def MAXTTL : Int := 255
def MAXDIFFTXSTART : Int := 3600
def MAXDIFFTXDELAY : Int := 3600
def MAXIPGSECS : Rat := 60

/-! ## Defaults -/

/-- Buffer length, last port and offered load where no option sets them. -/
def modalDefaults (s : ThreadSettings) : ThreadSettings :=
  { s with
    mBufLen :=
      if s.isBuflenSet then s.mBufLen
      else if s.isUDP then (if s.isIPV6 then kDefault_UDPBufLenV6 else kDefault_UDPBufLen)
      else kDefault_TCPBufLen
    mPortLast := if s.mPortLast = 0 then s.mPort else s.mPortLast
    mAppRate := if !s.isBWSet && s.isUDP then kDefault_UDPRate else s.mAppRate
    isEnhanced := s.isEnhanced || s.isTripTime && (s.isReverse || s.isFullDuplex || s.mMode != .normal) }

/-- `-t` with a value that is not positive. -/
def modalInfinite (env : Environment) (s : ThreadSettings) : ThreadSettings :=
  let infinite := s.isModeTime && env.infinitetime
  { s with
    isModeTime := s.isModeTime && !infinite
    isModeInfinite := s.isModeInfinite || infinite }

/-- Compatibility mode has no header to ask for any of these. -/
def compatBail (s : ThreadSettings) : Bool :=
  s.isCompat && (s.isReverse || s.isFullDuplex || s.isTripTime || s.isVaryLoad || s.isHistogram || s.isIsochronous ||
    s.isEnhanced || s.mMode != .normal)

def permitKeyBail (s : ThreadSettings) : Bool :=
  s.isPermitKey &&
    (s.isUDP || s.mPermitKey != [] &&
      (s.mPermitKey.length < MIN_PERMITKEY_LEN || s.mPermitKey.length > MAX_PERMITKEY_LEN))

/-- The options that a client takes for others, or drops. -/
def clientOptions (s : ThreadSettings) : ThreadSettings :=
  { s with
    isReverse := s.isReverse || s.isRemoveService
    isRemoveService := false
    isRxClamp := false
    isEnhanced := s.isEnhanced || s.isPeriodicBurst
    isFrameInterval := s.isFrameInterval || s.isPeriodicBurst }

/-- `--txstart-time` and `--txdelay-time` -/
def startTimeBail (env : Environment) (s : ThreadSettings) : Bool :=
  if !s.isUDP && s.isTxHoldback && s.isTxStartTime then true
  else if s.isTxStartTime then s.txstartEpoch.sec < 0 || s.txstartEpoch.sec - env.now > MAXDIFFTXSTART
  else s.isTxHoldback && s.txholdbackTimer.sec > MAXDIFFTXDELAY

def clientBail (env : Environment) (s : ThreadSettings) : Bool :=
  s.isIncrSrcIP && !env.mLocalhost || s.mTTL > MAXTTL || s.isPermitKey && s.mPermitKey == [] || startTimeBail env s

/-! ## Bursts -/

/-- 1 Mbyte unless `--burst-size` is set -/
def periodicBurstSize (s : ThreadSettings) : BitVec 32 :=
  if s.mBurstSize.toInt = 0 then 1024 * 1024 else s.mBurstSize

/-- `--burst-period`, and `--burst-size` without it. -/
def burstOptions (s : ThreadSettings) : Option ThreadSettings :=
  if s.isPeriodicBurst then
    if s.isIsochronous || s.isNearCongest || (periodicBurstSize s).toInt < s.mBufLen then none
    else some { s with mBurstSize := periodicBurstSize s }
  else if s.mBurstSize.toInt > 0 then
    some { s with
      isPeriodicBurst := true
      mFPS := 1 }
  else some s

/-! ## Protocols -/

/-- The delay between datagrams is negative or too large; a `double` that is divided by zero is infinite. -/
def delayTargetBail (s : ThreadSettings) : Bool :=
  let outside := fun delayTarget : Rat => delayTarget < 0 || delayTarget > MAXIPGSECS * 1000000000
  if s.isIPG then outside (s.mBurstIPG * 1000000000)
  else if s.mAppRateUnits == .bw then
    if s.mAppRate = 0 then s.mBufLen ≠ 0 else outside (s.mBufLen * 8000000000 / s.mAppRate)
  else s.mAppRate = 0 || outside (1000000000 / s.mAppRate)

/-- The client asks for traffic from the server. -/
def fromServer (s : ThreadSettings) : Bool := s.isReverse || s.isFullDuplex || s.mMode != .normal

def udpOptions (s : ThreadSettings) : Option ThreadSettings :=
  if s.isPeerVerDetect || s.isConnectOnly || s.isNearCongest || s.isIPG && s.isBWSet || s.mBurstIPG < 0 ||
      s.mConnectRetries > 0 || delayTargetBail s then none
  else
    let s := { s with isWritePrefetch := false }
    if s.isTripTime && s.mBufLen < MINTRIPTIMEPLAYOAD then
      if fromServer s then none else some { s with isSmallTripTime := true }
    else some s

def tcpOptions (s : ThreadSettings) : Option ThreadSettings :=
  if s.mAppRate > 0 && s.isNearCongest ||
      s.isBWSet && s.mAppRateUnits != .pps && s.mAppRate / 8 < (BitVec.ofInt 64 s.mBufLen).toNat ||
      s.isIPG || s.isNoUDPfin || s.isTxHoldback && s.isConnectOnly || s.mAppRateUnits == .pps then none
  else some s

def protocolOptions (s : ThreadSettings) : Option ThreadSettings := if s.isUDP then udpOptions s else tcpOptions s

/-- The options for traffic from the server are mutually exclusive. -/
def exclusiveBail (s : ThreadSettings) : Bool :=
  let oneOnly := s.isFullDuplex.toNat + s.isReverse.toNat + (s.mMode != .normal).toNat
  s.isCongestionControl && s.isReverse || oneOnly > 1 || s.isBWSet && s.isIsochronous

/-! ## Final values -/

/-- The values that need the protocol. -/
def protocolValues (env : Environment) (s : ThreadSettings) : ThreadSettings :=
  if s.isUDP then
    { s with
      isNoUDPfin := s.isNoUDPfin || s.isFullDuplex
      isL2LengthCheck := s.isL2LengthCheck || env.l2checks }
  else if s.mBurstSize ≠ 0 ∧ s.mBurstSize.toInt < s.mBufLen then { s with mBurstSize := BitVec.ofInt 32 s.mBufLen }
  else if s.isTripTime ∧ s.mBurstSize = 0 then { s with mBurstSize := BitVec.ofInt 32 s.mBufLen }
  else s

/-- The argument of `--isochronous`. -/
def isochronousValues (env : Environment) (s : ThreadSettings) : Option ThreadSettings :=
  if !s.isIsochronous then some s
  else
    match env.mIsochronousStr with
    | none | some .invalid => some s
    | some (.fps fps) =>
      some { s with
        mFPS := fps
        mMean := 20000000
        mVariance := 0 }
    | some (.mean fps mean variance) =>
      if mean = 0 ∨ !s.isUDP ∧ mean < 0 then none
      else
        some { s with
          mFPS := fps
          mMean := if mean < 0 then mean * (-8 * s.mBufLen * fps) else mean
          mVariance := variance.getD s.mVariance }

/-- A multicast destination. -/
def multicastOptions (env : Environment) (s : ThreadSettings) : Option ThreadSettings :=
  if !env.peerMulticast then some s
  else if s.mThreads > 1 && !s.isIncrDstIP || fromServer s then none
  else some { s with isMulticast := true }

/-- `Settings_ModalOptions` for a client. -/
def settingsModalOptions (env : Environment) (s : ThreadSettings) : Option ThreadSettings :=
  let s := modalInfinite env (modalDefaults s)
  if compatBail s || permitKeyBail s then none
  else
    let s := clientOptions s
    if clientBail env s then none
    else do
      let s ← burstOptions s
      let s ← protocolOptions s
      if exclusiveBail s then none
      else
        let s ← isochronousValues env (protocolValues env s)
        multicastOptions env s

/-! ## What accepted clients have -/

/-- A client as the option parser leaves it: the parser knows no option for these flags. -/
structure CommandLine where
  settings : ThreadSettings
  client : settings.mThreadMode = .client
  noServerReverse : settings.isServerReverse = false
  noSmallTripTime : settings.isSmallTripTime = false

/-- The fields that the header's layout depends on, as all stages after `clientOptions` leave them. -/
structure Kept (s s' : ThreadSettings) : Prop where
  isUDP : s'.isUDP = s.isUDP
  isReverse : s'.isReverse = s.isReverse
  isFullDuplex : s'.isFullDuplex = s.isFullDuplex
  mMode : s'.mMode = s.mMode
  isServerReverse : s'.isServerReverse = s.isServerReverse
  isTripTime : s'.isTripTime = s.isTripTime
  isPermitKey : s'.isPermitKey = s.isPermitKey
  mPermitKey : s'.mPermitKey = s.mPermitKey
  mBufLen : s'.mBufLen = s.mBufLen

theorem Kept.refl (s : ThreadSettings) : Kept s s := ⟨rfl, rfl, rfl, rfl, rfl, rfl, rfl, rfl, rfl⟩

theorem Kept.trans {s s' s'' : ThreadSettings} (h : Kept s s') (h' : Kept s' s'') : Kept s s'' where
  isUDP := h'.isUDP.trans h.isUDP
  isReverse := h'.isReverse.trans h.isReverse
  isFullDuplex := h'.isFullDuplex.trans h.isFullDuplex
  mMode := h'.mMode.trans h.mMode
  isServerReverse := h'.isServerReverse.trans h.isServerReverse
  isTripTime := h'.isTripTime.trans h.isTripTime
  isPermitKey := h'.isPermitKey.trans h.isPermitKey
  mPermitKey := h'.mPermitKey.trans h.mPermitKey
  mBufLen := h'.mBufLen.trans h.mBufLen

theorem burstOptions_kept {s s' : ThreadSettings} (h : burstOptions s = some s') :
    Kept s s' ∧ s'.isSmallTripTime = s.isSmallTripTime := by
  unfold burstOptions at h
  split at h
  · split at h
    · cases h
    · cases h
      exact ⟨⟨rfl, rfl, rfl, rfl, rfl, rfl, rfl, rfl, rfl⟩, rfl⟩
  · split at h
    · cases h
      exact ⟨⟨rfl, rfl, rfl, rfl, rfl, rfl, rfl, rfl, rfl⟩, rfl⟩
    · cases h
      exact ⟨Kept.refl s, rfl⟩

theorem protocolValues_kept (env : Environment) (s : ThreadSettings) :
    Kept s (protocolValues env s) ∧ (protocolValues env s).isSmallTripTime = s.isSmallTripTime := by
  unfold protocolValues
  split_ifs <;> exact ⟨⟨rfl, rfl, rfl, rfl, rfl, rfl, rfl, rfl, rfl⟩, rfl⟩

theorem isochronousValues_kept {env : Environment} {s s' : ThreadSettings} (h : isochronousValues env s = some s') :
    Kept s s' ∧ s'.isSmallTripTime = s.isSmallTripTime := by
  unfold isochronousValues at h
  split at h
  · cases h
    exact ⟨Kept.refl s, rfl⟩
  · split at h
    · cases h
      exact ⟨Kept.refl s, rfl⟩
    · cases h
      exact ⟨Kept.refl s, rfl⟩
    · cases h
      exact ⟨⟨rfl, rfl, rfl, rfl, rfl, rfl, rfl, rfl, rfl⟩, rfl⟩
    · split at h
      · cases h
      · cases h
        exact ⟨⟨rfl, rfl, rfl, rfl, rfl, rfl, rfl, rfl, rfl⟩, rfl⟩

theorem multicastOptions_kept {env : Environment} {s s' : ThreadSettings} (h : multicastOptions env s = some s') :
    Kept s s' ∧ s'.isSmallTripTime = s.isSmallTripTime := by
  unfold multicastOptions at h
  split at h
  · cases h
    exact ⟨Kept.refl s, rfl⟩
  · split at h
    · cases h
    · cases h
      exact ⟨⟨rfl, rfl, rfl, rfl, rfl, rfl, rfl, rfl, rfl⟩, rfl⟩

/-- UDP trip times need a payload that holds the time stamps, or the small header. -/
structure TripTimes (s : ThreadSettings) : Prop where
  small : s.isSmallTripTime = true → s.isUDP = true ∧ fromServer s = false ∧ s.isTripTime = true
  large : s.isUDP = true → s.isTripTime = true → s.isSmallTripTime = false → MINTRIPTIMEPLAYOAD ≤ s.mBufLen

theorem TripTimes.kept {s s' : ThreadSettings} (h : TripTimes s) (hkept : Kept s s')
    (hsmall : s'.isSmallTripTime = s.isSmallTripTime) : TripTimes s' := by
  constructor
  · intro hs
    obtain ⟨hudp, hserver, htrip⟩ := h.small (hsmall ▸ hs)
    unfold fromServer at hserver ⊢
    rw [hkept.isUDP, hkept.isReverse, hkept.isFullDuplex, hkept.mMode, hkept.isTripTime]
    exact ⟨hudp, hserver, htrip⟩
  · intro hudp htrip hs
    rw [hkept.mBufLen]
    exact h.large (hkept.isUDP ▸ hudp) (hkept.isTripTime ▸ htrip) (hsmall ▸ hs)

theorem udpOptions_kept {s s' : ThreadSettings} (hudp : s.isUDP = true) (hsmall : s.isSmallTripTime = false)
    (h : udpOptions s = some s') : Kept s s' ∧ TripTimes s' := by
  unfold udpOptions at h
  split at h
  · cases h
  · simp only [Bool.and_eq_true, decide_eq_true_eq] at h
    split at h
    · rename_i htrip
      split at h
      · cases h
      · rename_i hserver
        cases h
        refine ⟨⟨rfl, rfl, rfl, rfl, rfl, rfl, rfl, rfl, rfl⟩, ?_, ?_⟩
        · intro _
          exact ⟨hudp, Bool.eq_false_iff.mpr hserver, htrip.1⟩
        · intro _ _ hno
          cases hno
    · rename_i hlarge
      cases h
      refine ⟨⟨rfl, rfl, rfl, rfl, rfl, rfl, rfl, rfl, rfl⟩, ?_, ?_⟩
      · intro hs
        rw [show s.isSmallTripTime = true from hs] at hsmall
        cases hsmall
      · intro _ htrip _
        by_contra hlt
        exact hlarge ⟨htrip, not_le.mp hlt⟩

theorem tcpOptions_kept {s s' : ThreadSettings} (hudp : s.isUDP = false) (hsmall : s.isSmallTripTime = false)
    (h : tcpOptions s = some s') : Kept s s' ∧ TripTimes s' := by
  unfold tcpOptions at h
  split at h
  · cases h
  · cases h
    refine ⟨Kept.refl s, ?_, ?_⟩
    · intro hs
      rw [hsmall] at hs
      cases hs
    · intro hu
      rw [hudp] at hu
      cases hu

theorem protocolOptions_kept {s s' : ThreadSettings} (hsmall : s.isSmallTripTime = false)
    (h : protocolOptions s = some s') : Kept s s' ∧ TripTimes s' := by
  unfold protocolOptions at h
  split at h
  · rename_i hudp
    exact udpOptions_kept hudp hsmall h
  · rename_i hudp
    exact tcpOptions_kept (Bool.eq_false_iff.mpr hudp) hsmall h

/-- What every client that `Settings_ModalOptions` lets pass has. -/
structure Accepted (s : ThreadSettings) : Prop where
  oneOnly : s.isFullDuplex.toNat + s.isReverse.toNat + (s.mMode != .normal).toNat ≤ 1
  tripTimes : TripTimes s
  permitKey : s.isPermitKey = true →
    s.isUDP = false ∧ MIN_PERMITKEY_LEN ≤ s.mPermitKey.length ∧ s.mPermitKey.length ≤ MAX_PERMITKEY_LEN
  noServerReverse : s.isServerReverse = false

theorem settingsModalOptions_accepted {env : Environment} {options : CommandLine} {client : ThreadSettings}
    (h : settingsModalOptions env options.settings = some client) : Accepted client := by
  unfold settingsModalOptions at h
  simp only at h
  split at h
  · cases h
  · rename_i hbail
    split at h
    · cases h
    · rename_i hclient
      obtain ⟨s₁, hburst, h⟩ := Option.bind_eq_some_iff.mp h
      obtain ⟨s₂, hprotocol, h⟩ := Option.bind_eq_some_iff.mp h
      split at h
      · cases h
      · rename_i hexclusive
        obtain ⟨s₃, hisoch, hmulticast⟩ := Option.bind_eq_some_iff.mp h
        obtain ⟨kept₁, small₁⟩ := burstOptions_kept hburst
        have hsmall₁ : s₁.isSmallTripTime = false := small₁.trans options.noSmallTripTime
        obtain ⟨hkept₂, htrip₂⟩ := protocolOptions_kept hsmall₁ hprotocol
        obtain ⟨kept₂', small₂⟩ := protocolValues_kept env s₂
        obtain ⟨kept₃, small₃⟩ := isochronousValues_kept hisoch
        obtain ⟨kept₄, small₄⟩ := multicastOptions_kept hmulticast
        have hlast : Kept s₂ client := (kept₂'.trans kept₃).trans kept₄
        have hall := (kept₁.trans hkept₂).trans hlast
        refine ⟨?_, htrip₂.kept hlast (small₄.trans (small₃.trans small₂)), ?_, ?_⟩
        · rw [hlast.isFullDuplex, hlast.isReverse, hlast.mMode]
          unfold exclusiveBail at hexclusive
          simp only [Bool.or_eq_true, decide_eq_true_eq, not_or] at hexclusive
          omega
        · intro hkey
          rw [hall.isUDP, hall.mPermitKey]
          rw [hall.isPermitKey] at hkey
          simp only [clientBail, clientOptions, permitKeyBail, Bool.or_eq_true, Bool.and_eq_true, bne_iff_ne,
            decide_eq_true_eq, beq_iff_eq, not_or, not_and] at hbail hclient hkey ⊢
          obtain ⟨hudp, hlen⟩ := hbail.2 hkey
          have hne := hclient.1.2 hkey
          have := hlen hne
          exact ⟨by simpa using hudp, by omega, by omega⟩
        · rw [hall.isServerReverse]
          exact options.noServerReverse

end Iperf2.Header
