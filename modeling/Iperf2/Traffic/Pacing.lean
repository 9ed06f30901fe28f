import Iperf2.Header.Types
import Iperf2.Lib.Bucket
import Iperf2.Traffic.Sent

/-!
# The pacing of a UDP client

`Client::RunUDP` keeps a running delay in nanoseconds: a write that succeeded adds the target, the time of the loop is
taken off, and the client sleeps when the delay is 100 microseconds or more. A delay below `delay_lower_bounds` is set to
the target. The bound is the negated send timeout, an `int` that overflows for a long test, and then the reset takes away
delay that the client still owes.

* `delayLowerBounds` : the bound that `Client::InitTrafficLoop` computes;
* `UdpPacer.iterate` : an iteration of the loop; `UdpPacer.Keeps` : its reset takes no delay away;
* `UdpPacer.account` : the delay as an account of tokens; `Paces.next`;
* `udp_pacing` : while no reset takes delay away, no write is early.
-/

namespace Iperf2.Traffic
open Report Header Transition Bucket

/-! ## The settings -/

/-- A `double` stored to an `int`; out of range it is the integer that x86 has for that. -/
def doubleToInt (q : Rat) : Int :=
  let n := truncate q
  if -2 ^ 31 ≤ n ∧ n < 2 ^ 31 then n else -2 ^ 31

/-- `round`, for what is not negative -/
def roundUp (q : Rat) : Int := (q + 1 / 2).floor

/-- `sosndtimer` of `Client::InitTrafficLoop`, in microseconds. -/
def sosndtimer (mSettings : ThreadSettings) (mInterval : BitVec 32) : Int :=
  if mSettings.isPeriodicBurst ∧ mSettings.mFPS > 0 then doubleToInt (roundUp (250000 / mSettings.mFPS))
  else if 0 < mInterval then (mInterval / 2).toInt
  else ((mSettings.mAmount * 10000 / 2).setWidth 32).toInt

/-- `delay_lower_bounds`, in nanoseconds. -/
def delayLowerBounds (mSettings : ThreadSettings) (mInterval : BitVec 32) : Rat :=
  sosndtimer mSettings mInterval * -1000

/-- `Client::get_delay_target`, in nanoseconds. -/
def getDelayTarget (mSettings : ThreadSettings) : Rat :=
  if mSettings.isIPG then mSettings.mBurstIPG * 1000000
  else
    match mSettings.mAppRateUnits with
    | .bw => mSettings.mBufLen * (1000000000 * 8 / mSettings.mAppRate)
    | .pps => 1000000000 / mSettings.mAppRate

/-! ## The loop -/

/-- A time in microseconds. -/
def usecs (t : Timeval) : Int := t.sec * 1000000 + t.usec

/-- `Timestamp::subUsec` -/
def subUsec (left right : Timeval) : Int := (left.sec - right.sec) * 1000000 + (left.usec - right.usec)

theorem subUsec_eq (left right : Timeval) : subUsec left right = usecs left - usecs right := by
  unfold subUsec usecs
  ring

/-- The state of `Client::RunUDP`. `slept` is the argument of the last `delay_loop`, or 0, and `sent` has the packet times
of the writes that succeeded. -/
structure UdpPacer where
  client : UdpClient
  currLen : Int
  delay : Rat
  lastPacketTime : Timeval
  slept : Nat
  sent : List Timeval

/-- The argument of `delay_loop` for a delay in nanoseconds. -/
def delayUsecs (delay : Rat) : Nat := (delay / 1000).floor.toNat

/-- The start of `Client::RunUDP`. A first datagram that went out before the loop is followed by a delay. -/
def UdpPacer.start (mSettings : ThreadSettings) (client : UdpClient) (startTime : Timeval)
    (applyFirstUdppktDelay : Bool) : UdpPacer where
  client
  currLen := 1
  delay := 0
  lastPacketTime := startTime
  slept :=
    if applyFirstUdppktDelay ∧ getDelayTarget mSettings > 100000 then delayUsecs (getDelayTarget mSettings) else 0
  sent := []

/-- `write` returned this, and a non-fatal error is 0. -/
def WriteResult.currLen : WriteResult → Int
  | .accepted len => len.1
  | .failed _ => 0

/-- `adjust` -/
def UdpPacer.adjust (mSettings : ThreadSettings) (p : UdpPacer) (now : Timeval) : Rat :=
  if p.currLen > 0 then getDelayTarget mSettings + 1000 * subUsec p.lastPacketTime now
  else 1000 * subUsec p.lastPacketTime now

/-- The running delay after an adjustment. -/
def UdpPacer.adjusted (mSettings : ThreadSettings) (mInterval : BitVec 32) (p : UdpPacer) (now : Timeval) : Rat :=
  let delay := p.delay + p.adjust mSettings now
  -- don't let delay grow unbounded
  if delay < delayLowerBounds mSettings mInterval then getDelayTarget mSettings else delay

/-- An iteration of the loop that goes on. -/
def UdpPacer.iterate (mSettings : ThreadSettings) (mInterval : BitVec 32) (settings : ClientSettings) (p : UdpPacer)
    (write : Write) : UdpPacer :=
  let delay := p.adjusted mSettings mInterval write.now
  { client := udpIteration settings p.client write
    currLen := write.result.currLen
    delay
    lastPacketTime := write.now
    slept := if delay ≥ 100000 then delayUsecs delay else 0
    sent := if write.result.isAccepted then p.sent ++ [write.now] else p.sent }

/-- The clock does not go back, and `delay_loop` sleeps at least what it was asked for. A fatal error ends the loop. -/
def UdpPacer.step (mSettings : ThreadSettings) (mInterval : BitVec 32) (settings : ClientSettings) (p : UdpPacer)
    (write : Write) : Option UdpPacer :=
  if write.result.isFatal ∨ usecs write.now < usecs p.lastPacketTime + p.slept then none
  else some (p.iterate mSettings mInterval settings write)

/-- The reset of the iteration takes no delay away. -/
def UdpPacer.Keeps (mSettings : ThreadSettings) (mInterval : BitVec 32) (p : UdpPacer) (write : Write) : Prop :=
  let delay := p.delay + p.adjust mSettings write.now
  delay < delayLowerBounds mSettings mInterval → delay ≤ getDelayTarget mSettings

/-- No write that succeeded was early by more than 100 microseconds. -/
def UdpPacer.Paced (mSettings : ThreadSettings) (startTime : Timeval) (p : UdpPacer) : Prop :=
  ∀ (k : Nat) (hk : k < p.sent.length),
    1000 * (usecs startTime : Rat) + k * getDelayTarget mSettings - 100000 ≤ 1000 * (usecs p.sent[k] : Rat)

/-! ## The running delay -/

/-- The delay as an account: a nanosecond of time is a token, the target of every write that succeeded is to be paid at the
adjustment behind it. A delay is tokens that are owed. -/
def UdpPacer.account (mSettings : ThreadSettings) (p : UdpPacer) : Account Rat where
  time := 1000 * usecs p.lastPacketTime
  tokens := -p.delay
  used := getDelayTarget mSettings * (p.sent.length + if p.currLen > 0 then 0 else 1)

section
variable {mSettings : ThreadSettings} {mInterval : BitVec 32} {settings : ClientSettings} {p p' : UdpPacer}
  {write : Write} {startTime : Timeval}

/-- What is slept of a delay. -/
theorem delay_le_slept (delay : Rat) :
    delay ≤ 1000 * ((if delay ≥ 100000 then delayUsecs delay else 0 : Nat) : Rat) + 100000 := by
  split
  · have hfloor := Rat.lt_floor_add_one (delay / 1000)
    have hcast : ((delay / 1000).floor : Rat) ≤ (delayUsecs delay : Rat) := by
      exact_mod_cast Int.self_le_toNat (delay / 1000).floor
    push_cast at hfloor
    linarith
  · rename_i hshort
    push_cast
    linarith

/-- The delay after an iteration is no less than the adjusted one. -/
theorem le_adjusted (hkeeps : p.Keeps mSettings mInterval write) :
    p.delay + p.adjust mSettings write.now ≤ p.adjusted mSettings mInterval write.now := by
  unfold UdpPacer.Keeps at hkeeps
  unfold UdpPacer.adjusted
  dsimp only at hkeeps ⊢
  split
  · rename_i hreset
    exact hkeeps hreset
  · exact le_refl _

/-- A step that is possible is an iteration, after the sleep of the one before. -/
theorem UdpPacer.step_spec (hstep : p.step mSettings mInterval settings write = some p') :
    p' = p.iterate mSettings mInterval settings write ∧ usecs p.lastPacketTime + p.slept ≤ usecs write.now := by
  unfold UdpPacer.step at hstep
  split at hstep
  · cases hstep
  · rename_i hgoes
    rw [not_or, not_lt] at hgoes
    exact ⟨(Option.some.inj hstep).symm, hgoes.2⟩

/-- The writes that succeeded, and the one that is paid next. -/
theorem iterate_used (p : UdpPacer) (write : Write) :
    let p' := p.iterate mSettings mInterval settings write
    ((p'.sent.length : Rat) + if p'.currLen > 0 then 0 else 1) = p.sent.length + 1 := by
  obtain ⟨now, result⟩ := write
  cases result with
  | accepted len =>
    have hpos : 0 < len.1 := len.2
    simp [UdpPacer.iterate, WriteResult.isAccepted, WriteResult.currLen, hpos]
  | failed fatal => simp [UdpPacer.iterate, WriteResult.isAccepted, WriteResult.currLen]

/-- **An iteration that keeps the delay keeps the account.** The adjustment pays the write before it, and the time since
then is its credit. -/
theorem account_next (hkeeps : p.Keeps mSettings mInterval write)
    (hstep : p.step mSettings mInterval settings write = some p') :
    Within 1 (p.account mSettings) (p'.account mSettings) := by
  obtain ⟨rfl, -⟩ := UdpPacer.step_spec hstep
  let paid : Rat := if p.currLen > 0 then getDelayTarget mSettings else 0
  have hle := le_adjusted hkeeps
  have hadjust : p.adjust mSettings write.now =
      paid + (1000 * usecs p.lastPacketTime - 1000 * usecs write.now) := by
    simp only [UdpPacer.adjust, subUsec_eq, paid]
    push_cast
    split <;> ring
  have hused : getDelayTarget mSettings * ((p.sent.length : Rat) + 1) =
      (p.account mSettings).used + paid := by
    simp only [UdpPacer.account, paid]
    split <;> ring
  have haccount : (p.iterate mSettings mInterval settings write).account mSettings =
      ⟨1000 * usecs write.now, -p.adjusted mSettings mInterval write.now, (p.account mSettings).used + paid⟩ := by
    rw [← hused]
    simp only [UdpPacer.account]
    rw [iterate_used]
    rfl
  have hpaid := ((Within.refl 1 (p.account mSettings)).credit (1000 * usecs write.now)).use paid
  rw [haccount]
  apply hpaid.forfeit
  simp only [UdpPacer.account]
  linarith

end

/-! ## The writes -/

/-- The account of a run since its start, what is slept of the delay, and the writes so far. -/
structure Paces (mSettings : ThreadSettings) (startTime : Timeval) (p₀ p : UdpPacer) : Prop where
  within : Within 1 (p₀.account mSettings) (p.account mSettings)
  slept : p.delay ≤ 1000 * (p.slept : Rat) + 100000
  paced : p.Paced mSettings startTime

section
variable {mSettings : ThreadSettings} {mInterval : BitVec 32} {settings : ClientSettings} {client : UdpClient}
  {startTime : Timeval} {applyFirstUdppktDelay : Bool} {p p' : UdpPacer} {write : Write}

theorem Paces.start :
    Paces mSettings startTime (.start mSettings client startTime applyFirstUdppktDelay)
      (.start mSettings client startTime applyFirstUdppktDelay) where
  within := .refl 1 _
  slept := by
    have hslept : (0 : Rat) ≤ (UdpPacer.start mSettings client startTime applyFirstUdppktDelay).slept := Nat.cast_nonneg _
    simp only [UdpPacer.start] at hslept ⊢
    linarith
  paced k hk := absurd hk (Nat.not_lt_zero k)

/-- The writes so far are covered by the time and the delay. -/
theorem Paces.covered (hpos : 0 < getDelayTarget mSettings)
    (h : Paces mSettings startTime (.start mSettings client startTime applyFirstUdppktDelay) p) :
    p.sent.length * getDelayTarget mSettings ≤
      p.delay + (1000 * usecs p.lastPacketTime - 1000 * usecs startTime) := by
  have hwithin := h.within
  have hstart : (UdpPacer.start mSettings client startTime applyFirstUdppktDelay).account mSettings =
      ⟨1000 * usecs startTime, 0, 0⟩ := by simp [UdpPacer.account, UdpPacer.start]
  have hnext : 0 ≤ getDelayTarget mSettings * (if p.currLen > 0 then 0 else 1 : Rat) := by
    split
    · rw [mul_zero]
    · rw [mul_one]
      exact hpos.le
  have howed : -p.delay ≤ (p.account mSettings).tokens := le_refl _
  have hused := hwithin.used_le howed
  rw [hstart] at hused
  simp only [UdpPacer.account] at hused
  linarith

/-- No write of the next iteration is early. -/
theorem Paces.next (hpos : 0 < getDelayTarget mSettings)
    (h : Paces mSettings startTime (.start mSettings client startTime applyFirstUdppktDelay) p)
    (hkeeps : p.Keeps mSettings mInterval write)
    (hstep : p.step mSettings mInterval settings write = some p') :
    Paces mSettings startTime (.start mSettings client startTime applyFirstUdppktDelay) p' := by
  have hcovered := h.covered hpos
  have hslept := h.slept
  have hwithin := h.within.trans (account_next hkeeps hstep)
  obtain ⟨rfl, hclock⟩ := UdpPacer.step_spec hstep
  have hclock' : 1000 * (usecs p.lastPacketTime : Rat) + 1000 * (p.slept : Rat) ≤ 1000 * (usecs write.now : Rat) := by
    exact_mod_cast (by omega : 1000 * usecs p.lastPacketTime + 1000 * (p.slept : Int) ≤ 1000 * usecs write.now)
  refine ⟨hwithin, delay_le_slept _, fun k hk => ?_⟩
  -- the write of this iteration is behind the others, if it succeeded
  by_cases hold : k < p.sent.length
  · have hsame : (p.iterate mSettings mInterval settings write).sent[k] = p.sent[k] := by
      simp only [UdpPacer.iterate]
      split
      · exact List.getElem_append_left hold
      · rfl
    rw [hsame]
    exact h.paced k hold
  · have hlast : k = p.sent.length ∧ (p.iterate mSettings mInterval settings write).sent[k] = write.now := by
      simp only [UdpPacer.iterate] at hk ⊢
      split at hk
      · rename_i haccepted
        rw [List.length_append, List.length_singleton] at hk
        have heq : k = p.sent.length := by omega
        subst heq
        simp [haccepted]
      · exact absurd hk hold
    obtain ⟨rfl, hnow⟩ := hlast
    rw [hnow]
    linarith

/-- **The pacing of UDP.** In every run in which no reset takes delay away, the write after `k` others that succeeded is no
earlier than `k` targets behind the start, less 100 microseconds. Every run is one of these when the lower bound of the
delay is not above the target. -/
theorem udp_pacing (hpos : 0 < getDelayTarget mSettings) :
    (∀ p, Reachable (UdpPacer.step mSettings mInterval settings) (UdpPacer.Keeps mSettings mInterval)
        (.start mSettings client startTime applyFirstUdppktDelay) p → p.Paced mSettings startTime) ∧
      (delayLowerBounds mSettings mInterval ≤ getDelayTarget mSettings →
        ∀ p, Reachable (UdpPacer.step mSettings mInterval settings) Any
          (.start mSettings client startTime applyFirstUdppktDelay) p → p.Paced mSettings startTime) := by
  refine ⟨fun p hp => ?_, fun hbound p hp => ?_⟩
  · have hpaces : Paces mSettings startTime (.start mSettings client startTime applyFirstUdppktDelay) p :=
      hp.invariant .start fun _ _ _ h hkeeps hstep => h.next hpos hkeeps hstep
    exact hpaces.paced
  · have hpaces : Paces mSettings startTime (.start mSettings client startTime applyFirstUdppktDelay) p :=
      hp.invariant .start fun _ _ _ h _ hstep =>
        h.next hpos (fun hreset => le_of_lt (lt_of_lt_of_le hreset hbound)) hstep
    exact hpaces.paced

end

/-- Half of a short test in microseconds, as an `int`. -/
theorem halfAmount_toNat {mAmount : BitVec 64} (hshort : mAmount.toNat * 5000 < 2 ^ 31) :
    ((mAmount * 10000 / 2).setWidth 32).toNat = mAmount.toNat * 5000 := by
  have hfactor : (10000 : BitVec 64).toNat = 10000 := by decide
  have htwo : (2 : BitVec 64).toNat = 2 := by decide
  have hdouble : mAmount.toNat * 10000 = mAmount.toNat * 5000 * 2 := by ring
  have hsmall : mAmount.toNat * 5000 * 2 < 2 ^ 64 := by linarith
  rw [BitVec.toNat_setWidth, BitVec.toNat_udiv, BitVec.toNat_mul, hfactor, htwo, hdouble, Nat.mod_eq_of_lt hsmall,
    Nat.mul_div_cancel _ Nat.zero_lt_two]
  exact Nat.mod_eq_of_lt (hshort.trans (by norm_num))

/-- The send timeout is an `int`: half an interval fits, and half a test of at most 4294 seconds. -/
theorem delayLowerBounds_nonpos {mSettings : ThreadSettings} {mInterval : BitVec 32}
    (hburst : mSettings.isPeriodicBurst = false) (hfits : 0 < mInterval ∨ mSettings.mAmount.toNat * 5000 < 2 ^ 31) :
    delayLowerBounds mSettings mInterval ≤ 0 := by
  have htimer : 0 ≤ sosndtimer mSettings mInterval := by
    have hnone : ¬ (mSettings.isPeriodicBurst = true ∧ mSettings.mFPS > 0) := fun h => by
      rw [hburst] at h
      exact Bool.false_ne_true h.1
    unfold sosndtimer
    rw [if_neg hnone]
    split
    · have hhalf : (mInterval / 2).toNat = mInterval.toNat / 2 := BitVec.toNat_udiv
      rw [BitVec.toInt_eq_toNat_of_lt (by rw [hhalf]; omega)]
      omega
    · rename_i hzero
      have hshort := hfits.resolve_left hzero
      have hfit : 2 * (mSettings.mAmount.toNat * 5000) < 2 ^ 32 := by linarith
      rw [BitVec.toInt_eq_toNat_of_lt (by rw [halfAmount_toNat hshort]; exact hfit)]
      exact Int.natCast_nonneg _
  have hcast : (0 : Rat) ≤ (sosndtimer mSettings mInterval : Rat) := by exact_mod_cast htimer
  unfold delayLowerBounds
  linarith

/-! A client with 20000 datagrams a second, for 5000 seconds. -/

def fastClient : ThreadSettings :=
  { (default : ThreadSettings) with
    isUDP := true
    mBufLen := 1470
    mAppRate := 20000
    mAppRateUnits := .pps
    mAmount := 500000 }

def fastClientSettings : ClientSettings where
  isModeAmount := false
  mBufLen := 1470
  udpPayloadMinimum := 16

theorem fastClient_target : getDelayTarget fastClient = 50000 := by decide +kernel

theorem payload_pos : (1470 : Int) > 0 := by decide

def acceptedAt (now : Timeval) : Write := ⟨now, .accepted ⟨1470, payload_pos⟩⟩

/-- With a report every second, three writes that are not early. -/
theorem udp_pacing_interval :
    ∃ p, run (UdpPacer.step fastClient 1000000 fastClientSettings) Any
        (.start fastClient (newClient 500000) ⟨10, 0⟩ false) [acceptedAt ⟨10, 0⟩, acceptedAt ⟨10, 0⟩, acceptedAt ⟨10, 100⟩] =
      some p ∧ p.sent.length = 3 ∧ p.Paced fastClient ⟨10, 0⟩ := by
  have hrun : (run (UdpPacer.step fastClient 1000000 fastClientSettings) Any
      (.start fastClient (newClient 500000) ⟨10, 0⟩ false)
      [acceptedAt ⟨10, 0⟩, acceptedAt ⟨10, 0⟩, acceptedAt ⟨10, 100⟩]).map (fun p => p.sent.length) = some 3 := by
    decide +kernel
  obtain ⟨p, hp, hlength⟩ := Option.map_eq_some_iff.mp hrun
  have hpos : 0 < getDelayTarget fastClient := by
    rw [fastClient_target]
    decide
  have hbound : delayLowerBounds fastClient 1000000 ≤ getDelayTarget fastClient :=
    (delayLowerBounds_nonpos rfl (.inl (by decide))).trans hpos.le
  exact ⟨p, hp, hlength, (udp_pacing hpos).2 hbound p (.of_run _ _ .start hp)⟩

/-- Without interval reports the lower bound is a positive delay, and four datagrams go out at the start. -/
theorem udp_pacing_fails :
    delayLowerBounds fastClient 0 = 1794967296000 ∧
      ∃ p, Reachable (UdpPacer.step fastClient 0 fastClientSettings) Any
        (.start fastClient (newClient 500000) ⟨10, 0⟩ false) p ∧
        p.sent = [⟨10, 0⟩, ⟨10, 0⟩, ⟨10, 0⟩, ⟨10, 0⟩] ∧ ¬ p.Paced fastClient ⟨10, 0⟩ := by
  refine ⟨by decide +kernel, ?_⟩
  have hrun : (run (UdpPacer.step fastClient 0 fastClientSettings) Any
      (.start fastClient (newClient 500000) ⟨10, 0⟩ false)
      [acceptedAt ⟨10, 0⟩, acceptedAt ⟨10, 0⟩, acceptedAt ⟨10, 0⟩, acceptedAt ⟨10, 0⟩]).map (fun p => p.sent) =
      some [⟨10, 0⟩, ⟨10, 0⟩, ⟨10, 0⟩, ⟨10, 0⟩] := by decide +kernel
  obtain ⟨p, hp, hsent⟩ := Option.map_eq_some_iff.mp hrun
  refine ⟨p, .of_run _ _ .start hp, hsent, fun hpaced => ?_⟩
  have hfour : 3 < p.sent.length := by
    rw [hsent]
    decide
  have hlast := hpaced 3 hfour
  have htime : p.sent[3] = ⟨10, 0⟩ := by
    simp only [hsent]
    rfl
  rw [htime, fastClient_target] at hlast
  revert hlast
  decide +kernel

end Iperf2.Traffic
