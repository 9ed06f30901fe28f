import Iperf2.Traffic.Tick

/-!
# The frame rates that a frame counter takes

The period of a `FrameCounter` is a million over the frame rate, in whole microseconds. The options and the header
give any positive rate, and `Client::Client` only tests that the rate of `--isochronous` is positive.

* `framePeriod_ne_zero_iff` : the rates whose period is not zero;
* `tick_terminates` : the loop of `wait_tick` ends on every clock that runs slower than a microsecond for a sample if and
  only if the period is not zero.
-/

namespace Iperf2.Traffic
open Report Deadline Transition

/-! ## Rates -/

/-- A frame rate: `1.0/atof("0")` is infinite. -/
inductive Rate
  | finite (fps : Rat)
  | infinite

def Rate.Positive : Rate → Prop
  | .finite fps => 0 < fps
  | .infinite => True

/-- Where `mFPS` comes from; the strings are read by `atof`. -/
inductive RateOption
  | isochronous (fps : Rate)
  | burstPeriod (seconds : Rat)
  | burstSize
  | isochHeader (FPSl FPSu : BitVec 32)
  | burstHeader (FPSl FPSu : BitVec 32)

/-- The rate that a header has. -/
def headerRate (FPSl FPSu : BitVec 32) : Rat := FPSl.toNat + FPSu.toNat / rMillion

def RateOption.mFPS : RateOption → Rate
  | .isochronous fps => fps
  | .burstPeriod seconds => if seconds = 0 then .infinite else .finite (1 / seconds)
  | .burstSize => .finite 1
  | .isochHeader FPSl FPSu => .finite (headerRate FPSl FPSu)
  -- `Listener::apply_client_settings_tcp`
  | .burstHeader FPSl FPSu => if headerRate FPSl FPSu = 0 then .finite 1 else .finite (headerRate FPSl FPSu)

/-- The conversion of a `double` to `unsigned int`, which is defined for the values that have a whole part in range. -/
structure UnsignedCast where
  cast : Rat → BitVec 32
  cast_of_lt : ∀ x : Rat, 0 ≤ x → x < 2 ^ 32 → ((cast x).toNat : Int) = x.floor

/-- `1000000 / frequency` -/
def microsPerFrame : Rate → Rat
  | .finite fps => 1000000 / fps
  | .infinite => 0

/-- The period of `FrameCounter::FrameCounter`. -/
def framePeriod (cast : UnsignedCast) (frequency : Rate) : BitVec 32 := cast.cast (microsPerFrame frequency)

/-- A rate of at most a frame for a microsecond. -/
def Rate.AtMostMillion : Rate → Prop
  | .finite fps => fps ≤ 1000000
  | .infinite => False

theorem one_le_microsPerFrame_iff {rate : Rate} (hpos : rate.Positive) :
    1 ≤ microsPerFrame rate ↔ rate.AtMostMillion := by
  cases rate with
  | finite fps => exact one_le_div hpos
  | infinite =>
    refine iff_of_false ?_ not_false
    rw [microsPerFrame]
    norm_num

theorem microsPerFrame_nonneg {rate : Rate} (hpos : rate.Positive) : 0 ≤ microsPerFrame rate := by
  cases rate with
  | finite fps =>
    have hfps : 0 < fps := hpos
    rw [microsPerFrame]
    positivity
  | infinite => exact le_refl 0

/-- The period is zero for the rates above a million. -/
theorem framePeriod_ne_zero_iff (cast : UnsignedCast) {rate : Rate} (hpos : rate.Positive)
    (hdefined : microsPerFrame rate < 2 ^ 32) : framePeriod cast rate ≠ 0 ↔ rate.AtMostMillion := by
  have hcast := cast.cast_of_lt _ (microsPerFrame_nonneg hpos) hdefined
  rw [← one_le_microsPerFrame_iff hpos, framePeriod]
  have hfloor : (1 : Rat) ≤ microsPerFrame rate ↔ 1 ≤ (microsPerFrame rate).floor := by
    rw [Rat.le_floor_iff]
    norm_num
  rw [hfloor, ← hcast]
  constructor
  · intro hne
    have : (cast.cast (microsPerFrame rate)).toNat ≠ 0 := fun h => hne (BitVec.eq_of_toNat_eq h)
    omega
  · rintro hle hzero
    rw [hzero] at hle
    exact absurd hle (by decide)

/-! ## The end of the loop -/

/-- Calls on a clock whose sleeps do not end early. -/
def Slept (s : TickState) (call : Call) : Prop := SleptUntil s call.clock

/-- The call returns. -/
def Ends (s : TickState) (clock : Clock) : Prop := ∃ fuel s', tick s ⟨fuel, clock⟩ = some s'

/-- A clock whose samples advance: it goes on for ever, and by less than a microsecond for a sample in the long run. -/
structure Advances (clock : Clock) : Prop where
  unbounded : ∀ t : Int, ∃ n, t ≤ (clock.sample n).micros
  slow : ∃ stride : Nat, ∀ k, (clock.sample ((k + 1) * stride)).micros < (clock.sample (k * stride)).micros + stride

/-- The counter has its period, and a slot that is normalised. -/
structure Periodic (period : BitVec 32) (s : TickState) : Prop where
  keeps : s.counter.period = period
  normalised : s.counter.slotCounter ≠ 0 → s.counter.nextslotTime.Normalised

section
variable {period : BitVec 32} {start : Timestamp} {s s' : TickState} {clock : Clock}

theorem Periodic.next (h : Periodic period s) {call : Call} (htick : tick s call = some s') : Periodic period s' := by
  by_cases hs : s.counter.slotCounter = 0
  · rw [tick_first hs] at htick
    rw [← Option.some.inj htick]
    exact ⟨h.keeps, fun _ => call.clock.normalised 1⟩
  · obtain ⟨fuel, clock⟩ := call
    obtain ⟨n, -, -, rfl⟩ := (tick_later hs (h.normalised hs) fuel).mp htick
    exact ⟨h.keeps, fun _ => slotAfter_normalised (h.normalised hs) s.counter.period n⟩

theorem periodic_reachable (hs : Reachable tick Slept (newTickState period start) s) : Periodic period s :=
  hs.invariant ⟨rfl, fun h => absurd rfl h⟩ fun _ _ _ h _ htick => h.next htick

/-- A slow clock falls behind the slots. -/
theorem Periodic.ends (h : Periodic period s) (hperiod : period ≠ 0) (hclock : SleptUntil s clock)
    (hadvances : Advances clock) : Ends s clock := by
  rw [Ends, tick_ends_iff h.normalised hclock]
  by_cases hs : s.counter.slotCounter = 0
  · exact .inl hs
  · right
    have hpos : 0 < period.toNat := by
      apply Nat.pos_of_ne_zero
      intro hzero
      exact hperiod (BitVec.eq_of_toNat_eq hzero)
    obtain ⟨stride, hslow⟩ := hadvances.slow
    have hstride : (stride : Int) ≤ stride * period.toNat := by
      exact_mod_cast Nat.le_mul_of_pos_right stride hpos
    have hgain : (stride : Int) - 1 < stride • (s.counter.period.toNat : Int) := by
      rw [nsmul_eq_mul, h.keeps]
      omega
    have hstep : ∀ k, (fun i => (clock.sample i).micros) ((k + 1) * stride) ≤
        (fun i => (clock.sample i).micros) (k * stride) + ((stride : Int) - 1) := by
      intro k
      have := hslow k
      show (clock.sample ((k + 1) * stride)).micros ≤ (clock.sample (k * stride)).micros + ((stride : Int) - 1)
      omega
    have hexists : ∃ n, Escapes (fun i => (clock.sample i).micros) s.counter.nextslotTime.micros
        (s.counter.period.toNat : Int) n := exists_escapes_of_slow hgain hstep
    obtain ⟨n, hescapes⟩ := hexists
    refine ⟨n, hescapes.pos (hclock hs), ?_⟩
    rw [← nsmul_eq_mul]
    exact hescapes.before

/-- Without a period the slot stays behind the clock. -/
theorem Periodic.not_ends (h : Periodic 0 s) (hs : s.counter.slotCounter ≠ 0) (hclock : SleptUntil s clock) :
    ¬ Ends s clock := by
  rw [Ends, tick_ends_iff h.normalised hclock, h.keeps]
  rintro (hzero | ⟨n, -, hbefore⟩)
  · exact hs hzero
  · have hlate := hclock hs
    have hmono : (clock.sample 0).micros ≤ (clock.sample n).micros := clock.monotone (Nat.zero_le n)
    have hstill : ((0 : BitVec 32).toNat : Int) = 0 := rfl
    rw [hstill, mul_zero] at hbefore
    omega

end

theorem half_monotone : Monotone fun n : Nat => n / 2 := fun _ _ h => Nat.div_le_div_right h

/-- A clock with a microsecond for two samples. -/
def halfClock : Clock := microClock (fun n => n / 2) half_monotone

theorem halfClock_micros (n : Nat) : (halfClock.sample n).micros = (n / 2 : Nat) :=
  microClock_micros (fun n => n / 2) half_monotone n

theorem halfClock_advances : Advances halfClock where
  unbounded t := by
    refine ⟨2 * t.toNat, ?_⟩
    rw [halfClock_micros]
    omega
  slow := by
    refine ⟨2, fun k => ?_⟩
    rw [halfClock_micros, halfClock_micros]
    omega

theorem halfClock_slept (period : BitVec 32) : SleptUntil (tickedOnce period ⟨0, 0⟩) halfClock := by
  intro _
  rw [halfClock_micros]
  exact Int.le_refl 0

theorem tickedOnce_reachable (period : BitVec 32) (start : Timestamp) :
    Reachable tick Slept (newTickState period start) (tickedOnce period ⟨0, 0⟩) :=
  Reachable.start.next ⟨0, microClock (fun _ => 0) monotone_const⟩ (fun h => absurd rfl h) rfl

/-- Without a period the second call does not return. -/
theorem tickedOnce_not_ends : ¬ Ends (tickedOnce 0 ⟨0, 0⟩) halfClock := by
  have hslot : (tickedOnce 0 ⟨0, 0⟩).counter.slotCounter ≠ 0 := by
    decide
  exact (periodic_reachable (tickedOnce_reachable 0 ⟨0, 0⟩)).not_ends hslot (halfClock_slept 0)

/-- **When the ticks go on**, for a rate of the options or of the header. -/
theorem tick_terminates (cast : UnsignedCast) {option : RateOption} (hpos : option.mFPS.Positive) :
    ((∀ start s clock, Reachable tick Slept (newTickState (framePeriod cast option.mFPS) start) s →
        SleptUntil s clock → Advances clock → Ends s clock) ↔ framePeriod cast option.mFPS ≠ 0) ∧
    (microsPerFrame option.mFPS < 2 ^ 32 → (framePeriod cast option.mFPS ≠ 0 ↔ option.mFPS.AtMostMillion)) ∧
    ∀ start s clock, Reachable tick Slept (newTickState (framePeriod cast option.mFPS) start) s → SleptUntil s clock →
      (Ends s clock ↔ s.counter.slotCounter = 0 ∨ ∃ n ≥ 1, (clock.sample n).micros <
        s.counter.nextslotTime.micros + n * (framePeriod cast option.mFPS).toNat) := by
  refine ⟨⟨fun hends hzero => ?_, fun hperiod start s clock hs hclock hadvances => ?_⟩,
    framePeriod_ne_zero_iff cast hpos, fun start s clock hs hclock => ?_⟩
  · rw [hzero] at hends
    exact tickedOnce_not_ends (hends _ _ _ (tickedOnce_reachable 0 ⟨0, 0⟩) (halfClock_slept 0) halfClock_advances)
  · exact (periodic_reachable hs).ends hperiod hclock hadvances
  · have h := periodic_reachable hs
    rw [Ends, tick_ends_iff h.normalised hclock, h.keeps]

theorem ofNat_floor_toNat {x : Rat} (hx : 0 ≤ x) (hlt : x < 2 ^ 32) :
    ((BitVec.ofNat 32 x.floor.toNat).toNat : Int) = x.floor := by
  have hnonneg : 0 ≤ x.floor := Rat.le_floor_iff.mpr hx
  have hfloor : x.floor < 2 ^ 32 := by
    apply Rat.floor_lt_iff.mpr
    exact_mod_cast hlt
  rw [BitVec.toNat_ofNat]
  omega

/-- A conversion that gives the whole part modulo `2 ^ 32`. -/
def moduloCast : UnsignedCast where
  cast x := BitVec.ofNat 32 x.floor.toNat
  cast_of_lt _ := ofNat_floor_toNat

/-- `--isochronous=60:…` -/
theorem tick_terminates_sixty : framePeriod moduloCast (.finite 60) = 16666 ∧
    ∀ start s clock, Reachable tick Slept (newTickState (framePeriod moduloCast (.finite 60)) start) s →
      SleptUntil s clock → Advances clock → Ends s clock := by
  have hperiod : framePeriod moduloCast (.finite 60) = 16666 := by
    decide +kernel
  refine ⟨hperiod, ?_⟩
  have hpos : (RateOption.isochronous (.finite 60)).mFPS.Positive := by
    show (0 : Rat) < 60
    norm_num
  apply (tick_terminates moduloCast hpos).1.mpr
  show framePeriod moduloCast (.finite 60) ≠ 0
  rw [hperiod]
  decide

/-- `--isochronous=2000000:…` : the second call does not return. -/
theorem tick_not_terminates : (RateOption.isochronous (.finite 2000000)).mFPS.Positive ∧
    ∃ s, Reachable tick Slept (newTickState (framePeriod moduloCast (.finite 2000000)) ⟨0, 0⟩) s ∧
      SleptUntil s halfClock ∧ Advances halfClock ∧ ¬ Ends s halfClock := by
  have hperiod : framePeriod moduloCast (.finite 2000000) = 0 := by
    decide +kernel
  refine ⟨?_, tickedOnce 0 ⟨0, 0⟩, ?_, halfClock_slept 0, halfClock_advances, tickedOnce_not_ends⟩
  · show (0 : Rat) < 2000000
    norm_num
  · rw [hperiod]
    exact tickedOnce_reachable 0 ⟨0, 0⟩

end Iperf2.Traffic
