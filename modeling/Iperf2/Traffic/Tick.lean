import Iperf2.Report.Grid
import Iperf2.Lib.Deadline
import Iperf2.Lib.Transition

/-!
# The ticks of a frame counter

`FrameCounter::wait_tick` sleeps until the next slot. A call that comes late moves the slot on by a period for every
sample of the clock that is not before it, and counts the slots; the samples of a call are inputs.

* `catchUp_eq_some_iff` : when the loop ends, and what it leaves;
* `tick_schedule` : the slots of a run are on the schedule of the first call for as long as the counter does not wrap,
  and the loop ends if and only if some later sample is before its slot.
-/

namespace Iperf2.Traffic
open Report Deadline Transition

/-! ## Timestamps -/

abbrev Timestamp := Timeval

def kMillion : Int := 1000000

/-- `Timestamp::add` of microseconds. -/
def Timestamp.add (t : Timestamp) (usec : BitVec 32) : Timestamp where
  sec := t.sec + (t.usec + usec.toNat).tdiv kMillion
  usec := (t.usec + usec.toNat).tmod kMillion

/-- `Timestamp::before` -/
def Timestamp.before (t right : Timestamp) : Bool :=
  t.sec < right.sec || (t.sec == right.sec && t.usec < right.usec)

section
variable {t right : Timestamp}

theorem Timestamp.add_micros (t : Timestamp) (usec : BitVec 32) :
    Timeval.micros (t.add usec) = t.micros + usec.toNat := by
  have hdiv := Int.mul_tdiv_add_tmod (t.usec + usec.toNat) 1000000
  simp only [Timeval.micros, Timestamp.add, rMillion, kMillion]
  linarith

theorem Timestamp.add_normalised (ht : t.Normalised) (usec : BitVec 32) : Timeval.Normalised (t.add usec) := by
  have hnonneg : 0 ≤ t.usec + usec.toNat := by
    have := ht.1
    omega
  refine ⟨?_, ?_⟩
  · exact Int.tmod_nonneg _ hnonneg
  · exact Int.tmod_lt_of_pos _ (by decide)

theorem Timestamp.before_iff (ht : t.Normalised) (hright : right.Normalised) :
    Timestamp.before t right = true ↔ t.micros < right.micros := by
  obtain ⟨hlow, hhigh⟩ := ht
  obtain ⟨hlow', hhigh'⟩ := hright
  simp only [rMillion] at hhigh hhigh'
  simp only [Timestamp.before, Timeval.micros, rMillion, Bool.or_eq_true, Bool.and_eq_true, decide_eq_true_eq,
    beq_iff_eq]
  omega

end

/-! ## The counter -/

/-- What `wait_tick` uses of a `FrameCounter`. -/
structure FrameCounter where
  period : BitVec 32
  nextslotTime : Timestamp
  lastcounter : BitVec 32
  slotCounter : BitVec 32
  slip : BitVec 32

/-- `FrameCounter::FrameCounter`, with its period. -/
def newFrameCounter (period : BitVec 32) (start : Timestamp) : FrameCounter where
  period
  nextslotTime := start
  lastcounter := 0
  slotCounter := 0
  slip := 0

/-- The loop of `wait_tick`: `now` is sample `i`, the next round takes the sample after it. The result is the sample
that `now` is at the end, and the slot. -/
def catchUp (period : BitVec 32) (sample : Nat → Timestamp) :
    (fuel i : Nat) → (nextslotTime : Timestamp) → (slotCounter : BitVec 32) → Option (Nat × Timestamp × BitVec 32)
  | 0, _, _, _ => none
  | fuel + 1, i, nextslotTime, slotCounter =>
    if (sample i).before nextslotTime then some (i, nextslotTime, slotCounter)
    else catchUp period sample fuel (i + 1) (nextslotTime.add period) (slotCounter + 1)

/-- `FrameCounter::wait_tick` up to its sleep: the counter, and `now`. The constructor of `now` takes sample 0. -/
def waitTick (fuel : Nat) (sample : Nat → Timestamp) (f : FrameCounter) : Option (FrameCounter × Timestamp) :=
  if f.slotCounter = 0 then
    let now := sample 1
    some ({ f with
      nextslotTime := now
      slotCounter := 1
      lastcounter := 1 }, now)
  else do
    let (i, nextslotTime, slotCounter) ← catchUp f.period sample fuel 0 f.nextslotTime f.slotCounter
    some ({ f with
      nextslotTime
      slotCounter
      slip := if f.lastcounter ≠ 0 ∧ slotCounter - f.lastcounter > 1 then f.slip + 1 else f.slip
      lastcounter := slotCounter }, sample i)

/-! ## The catch-up -/

/-- The times that a call reads: the clock does not run backwards. -/
structure Clock where
  sample : Nat → Timestamp
  normalised : ∀ n, (sample n).Normalised
  monotone : ∀ ⦃i j⦄, i ≤ j → (sample i).micros ≤ (sample j).micros

section
variable {sample : Nat → Timestamp} {nextslotTime : Timestamp}

/-- The slot after `n` periods. -/
def slotAfter (period : BitVec 32) (nextslotTime : Timestamp) (n : Nat) : Timestamp :=
  (fun t => Timestamp.add t period)^[n] nextslotTime

theorem slotAfter_micros (period : BitVec 32) (nextslotTime : Timestamp) (n : Nat) :
    Timeval.micros (slotAfter period nextslotTime n) = nextslotTime.micros + n * period.toNat := by
  induction n with
  | zero => simp [slotAfter]
  | succ n ih =>
    rw [slotAfter, Function.iterate_succ_apply', Timestamp.add_micros]
    rw [slotAfter] at ih
    rw [ih]
    push_cast
    ring

theorem slotAfter_normalised (hnext : nextslotTime.Normalised) (period : BitVec 32) (n : Nat) :
    Timeval.Normalised (slotAfter period nextslotTime n) := by
  induction n with
  | zero => exact hnext
  | succ n ih =>
    rw [slotAfter, Function.iterate_succ_apply']
    exact Timestamp.add_normalised ih period

/-- **The loop** ends at the first sample that is before its slot. -/
theorem catchUp_eq_some_iff (period : BitVec 32) (hsample : ∀ n, (sample n).Normalised) (fuel i : Nat)
    (hnext : nextslotTime.Normalised) (slotCounter : BitVec 32) (r : Nat × Timestamp × BitVec 32) :
    catchUp period sample fuel i nextslotTime slotCounter = some r ↔
      ∃ n < fuel, Escapes (fun k => (sample (i + k)).micros) nextslotTime.micros (period.toNat : Int) n ∧
        r = (i + n, slotAfter period nextslotTime n, slotCounter + BitVec.ofNat 32 n) := by
  induction fuel generalizing i nextslotTime slotCounter with
  | zero => simp [catchUp]
  | succ fuel ih =>
    have hbefore := Timestamp.before_iff (hsample i) hnext
    unfold catchUp
    split
    · rename_i hnow
      have hzero : Escapes (fun k => (sample (i + k)).micros) nextslotTime.micros (period.toNat : Int) 0 :=
        escapes_zero (hbefore.mp hnow)
      constructor
      · intro hr
        refine ⟨0, Nat.succ_pos fuel, hzero, ?_⟩
        rw [← Option.some.inj hr]
        simp [slotAfter]
      · rintro ⟨n, -, hn, rfl⟩
        rw [hn.unique hzero]
        simp [slotAfter]
    · rename_i hnow
      rw [hbefore] at hnow
      have hshift : (fun k => (sample (i + 1 + k)).micros) = fun k => (sample (i + (k + 1))).micros := by
        funext k
        rw [Nat.add_assoc, Nat.add_comm 1 k]
      have hround : ∀ n : Nat, slotCounter + 1 + BitVec.ofNat 32 n = slotCounter + BitVec.ofNat 32 (n + 1) := by
        intro n
        rw [BitVec.add_assoc, Nat.add_comm n 1, BitVec.ofNat_add]
        rfl
      have hindex : ∀ n : Nat, i + 1 + n = i + (n + 1) := by
        intro n
        omega
      rw [ih (i + 1) (Timestamp.add_normalised hnext period) (slotCounter + 1), Timestamp.add_micros, hshift]
      constructor
      · rintro ⟨n, hn, hescapes, rfl⟩
        refine ⟨n + 1, Nat.succ_lt_succ hn, (escapes_succ (not_lt.mp hnow)).mpr hescapes, ?_⟩
        rw [hindex, hround, slotAfter, slotAfter, Function.iterate_succ_apply]
      · rintro ⟨n, hn, hescapes, rfl⟩
        obtain ⟨m, rfl⟩ := Nat.exists_eq_succ_of_ne_zero (hescapes.pos (not_lt.mp hnow)).ne'
        refine ⟨m, Nat.lt_of_succ_lt_succ hn, (escapes_succ (not_lt.mp hnow)).mp hescapes, ?_⟩
        rw [hindex, hround, slotAfter, slotAfter, Function.iterate_succ_apply]

end

/-! ## Runs -/

/-- A frame counter, the time `now` that its last call ended with, and the time of the first call. -/
structure TickState where
  counter : FrameCounter
  now : Timestamp
  first : Timestamp

def newTickState (period : BitVec 32) (start : Timestamp) : TickState where
  counter := newFrameCounter period start
  now := start
  first := start

/-- A call of `wait_tick`. -/
structure Call where
  fuel : Nat
  clock : Clock

def tick (s : TickState) (call : Call) : Option TickState := do
  let (counter, now) ← waitTick call.fuel call.clock.sample s.counter
  some { counter, now, first := if s.counter.slotCounter = 0 then now else s.first }

/-- The sleep of the call before this one did not return before the slot. -/
def SleptUntil (s : TickState) (clock : Clock) : Prop :=
  s.counter.slotCounter ≠ 0 → s.counter.nextslotTime.micros ≤ (clock.sample 0).micros

/-- The slot of the counter value `2 ^ 32 - 1`. -/
def horizon (s : TickState) : Int := s.first.micros + (2 ^ 32 - 2) * s.counter.period.toNat

/-- A call that sleeps were not short for, and whose last sample is within the slots that the counter can count. -/
def InTime (s : TickState) (call : Call) : Prop :=
  SleptUntil s call.clock ∧ ∀ s', tick s call = some s' → s'.now.micros < horizon s'

/-- What a call does. -/
structure Ticked (s s' : TickState) : Prop where
  increases : s.counter.slotCounter < s'.counter.slotCounter
  normalised : s'.counter.nextslotTime.Normalised
  schedule : s'.counter.nextslotTime.micros =
    s'.first.micros + ((s'.counter.slotCounter.toNat : Int) - 1) * s'.counter.period.toNat
  later : s.counter.slotCounter ≠ 0 → s'.now.micros < s'.counter.nextslotTime.micros
  slip : s'.counter.slip =
    if s.counter.slotCounter ≠ 0 ∧ s.counter.slotCounter.toNat + 1 < s'.counter.slotCounter.toNat then
      s.counter.slip + 1
    else s.counter.slip

/-- The counter between two calls: it has not ticked yet, or its slot is on the schedule. -/
structure Scheduled (period : BitVec 32) (s : TickState) : Prop where
  keeps : s.counter.period = period
  last : s.counter.lastcounter = s.counter.slotCounter
  normalised : s.counter.slotCounter ≠ 0 → s.counter.nextslotTime.Normalised
  schedule : s.counter.slotCounter ≠ 0 → s.counter.nextslotTime.micros =
    s.first.micros + ((s.counter.slotCounter.toNat : Int) - 1) * period.toNat

theorem scheduled_start (period : BitVec 32) (start : Timestamp) : Scheduled period (newTickState period start) where
  keeps := rfl
  last := rfl
  normalised h := absurd rfl h
  schedule h := absurd rfl h

section
variable {period : BitVec 32} {s s' : TickState} {clock : Clock}

/-- The first call takes the slot from the clock. -/
theorem tick_first (hs : s.counter.slotCounter = 0) (call : Call) :
    tick s call = some {
      counter := { s.counter with
        nextslotTime := call.clock.sample 1
        slotCounter := 1
        lastcounter := 1 }
      now := call.clock.sample 1
      first := call.clock.sample 1 } := by
  simp [tick, waitTick, hs]

/-- A later call. -/
theorem tick_later (hs : s.counter.slotCounter ≠ 0) (hnext : s.counter.nextslotTime.Normalised) (fuel : Nat) :
    tick s ⟨fuel, clock⟩ = some s' ↔
      ∃ n < fuel, Escapes (fun k => (clock.sample k).micros) s.counter.nextslotTime.micros
          (s.counter.period.toNat : Int) n ∧
        s' = {
          counter := { s.counter with
            nextslotTime := slotAfter s.counter.period s.counter.nextslotTime n
            slotCounter := s.counter.slotCounter + BitVec.ofNat 32 n
            slip := if s.counter.lastcounter ≠ 0 ∧
                s.counter.slotCounter + BitVec.ofNat 32 n - s.counter.lastcounter > 1 then s.counter.slip + 1
              else s.counter.slip
            lastcounter := s.counter.slotCounter + BitVec.ofNat 32 n }
          now := clock.sample n
          first := s.first } := by
  have hloop := fun r => catchUp_eq_some_iff s.counter.period clock.normalised fuel 0 hnext s.counter.slotCounter r
  simp only [Nat.zero_add] at hloop
  simp only [tick, waitTick, if_neg hs, Option.bind_eq_bind, Option.bind_eq_some_iff, Option.some.injEq]
  constructor
  · rintro ⟨-, ⟨r, hr, rfl⟩, rfl⟩
    obtain ⟨n, hn, hescapes, rfl⟩ := (hloop r).mp hr
    exact ⟨n, hn, hescapes, rfl⟩
  · rintro ⟨n, hn, hescapes, rfl⟩
    exact ⟨_, ⟨_, (hloop _).mpr ⟨n, hn, hescapes, rfl⟩, rfl⟩, rfl⟩

/-- **When a call ends** : the loop of a later call needs a sample that is before its slot. -/
theorem tick_ends_iff (hnext : s.counter.slotCounter ≠ 0 → s.counter.nextslotTime.Normalised)
    (hclock : SleptUntil s clock) :
    (∃ fuel s', tick s ⟨fuel, clock⟩ = some s') ↔ s.counter.slotCounter = 0 ∨
      ∃ n ≥ 1, (clock.sample n).micros < s.counter.nextslotTime.micros + n * s.counter.period.toNat := by
  by_cases hslot : s.counter.slotCounter = 0
  · exact iff_of_true ⟨0, _, tick_first hslot _⟩ (.inl hslot)
  · simp only [tick_later hslot (hnext hslot), hslot, false_or]
    constructor
    · rintro ⟨fuel, s', n, -, hescapes, -⟩
      refine ⟨n, hescapes.pos (hclock hslot), ?_⟩
      rw [← nsmul_eq_mul]
      exact hescapes.before
    · rintro ⟨n, -, hbefore⟩
      have hexists : ∃ n : Nat, (fun k => (clock.sample k).micros) n <
          s.counter.nextslotTime.micros + n • (s.counter.period.toNat : Int) := by
        refine ⟨n, ?_⟩
        rw [nsmul_eq_mul]
        exact hbefore
      obtain ⟨m, hescapes⟩ := exists_escapes_iff.mpr hexists
      exact ⟨m + 1, _, m, Nat.lt_succ_self m, hescapes, rfl⟩

/-- A later call ends before the counter wraps: the sample before the last one was not before its slot. -/
theorem Scheduled.count_lt (h : Scheduled period s) (hs : s.counter.slotCounter ≠ 0) (hclock : SleptUntil s clock)
    {n : Nat} (hescapes : Escapes (fun k => (clock.sample k).micros) s.counter.nextslotTime.micros
      (s.counter.period.toNat : Int) n)
    (htime : (clock.sample n).micros < horizon s) : s.counter.slotCounter.toNat + n < 2 ^ 32 := by
  obtain ⟨m, rfl⟩ := Nat.exists_eq_succ_of_ne_zero (hescapes.pos (hclock hs)).ne'
  have hlate := hescapes.late m (Nat.lt_succ_self m)
  have hmono : (clock.sample m).micros ≤ (clock.sample (m + 1)).micros := clock.monotone (Nat.le_succ m)
  have hnext := h.schedule hs
  rw [horizon] at htime
  rw [nsmul_eq_mul, hnext] at hlate
  rw [h.keeps] at htime hlate
  have hslots : ((s.counter.slotCounter.toNat : Int) - 1 + m) * period.toNat < (2 ^ 32 - 2) * period.toNat := by
    linarith
  have hlt := lt_of_mul_lt_mul_right hslots (Int.natCast_nonneg _)
  omega

/-- A later call, when the time that it ends at is within the slots that the counter can count. -/
theorem Scheduled.later (h : Scheduled period s) (hs : s.counter.slotCounter ≠ 0) (hclock : SleptUntil s clock)
    {fuel : Nat} (htick : tick s ⟨fuel, clock⟩ = some s') (htime : s'.now.micros < horizon s') :
    Ticked s s' ∧ Scheduled period s' := by
  obtain ⟨n, -, hescapes, rfl⟩ := (tick_later hs (h.normalised hs) fuel).mp htick
  have hpos : 0 < n := hescapes.pos (hclock hs)
  have hcount := h.count_lt hs hclock hescapes htime
  have hnext := h.schedule hs
  have hslot : (s.counter.slotCounter + BitVec.ofNat 32 n).toNat = s.counter.slotCounter.toNat + n := by
    rw [BitVec.toNat_add, BitVec.toNat_ofNat]
    omega
  have hschedule : Timeval.micros (slotAfter s.counter.period s.counter.nextslotTime n) =
      s.first.micros + (((s.counter.slotCounter + BitVec.ofNat 32 n).toNat : Int) - 1) * s.counter.period.toNat := by
    rw [slotAfter_micros, hslot, hnext, h.keeps]
    push_cast
    ring
  have hnormalised : Timeval.Normalised (slotAfter s.counter.period s.counter.nextslotTime n) :=
    slotAfter_normalised (h.normalised hs) s.counter.period n
  refine ⟨⟨?_, hnormalised, ?_, ?_, ?_⟩, ⟨h.keeps, rfl, fun _ => hnormalised, fun _ => ?_⟩⟩
  · rw [BitVec.lt_def]
    show _ < (s.counter.slotCounter + BitVec.ofNat 32 n).toNat
    omega
  · exact hschedule
  · intro _
    show (clock.sample n).micros < Timeval.micros (slotAfter s.counter.period s.counter.nextslotTime n)
    rw [slotAfter_micros, ← nsmul_eq_mul]
    exact hescapes.before
  · have hadvance : s.counter.slotCounter + BitVec.ofNat 32 n - s.counter.slotCounter = BitVec.ofNat 32 n := by
      rw [BitVec.add_comm, BitVec.add_sub_cancel]
    show (if s.counter.lastcounter ≠ 0 ∧ s.counter.slotCounter + BitVec.ofNat 32 n - s.counter.lastcounter > 1 then
      s.counter.slip + 1 else s.counter.slip) = if s.counter.slotCounter ≠ 0 ∧
        s.counter.slotCounter.toNat + 1 < (s.counter.slotCounter + BitVec.ofNat 32 n).toNat then
      s.counter.slip + 1 else s.counter.slip
    apply if_congr _ rfl rfl
    rw [h.last, hadvance, hslot, gt_iff_lt, BitVec.lt_def, BitVec.toNat_ofNat]
    show _ ∧ 1 < _ ↔ _
    have hmod : n % 2 ^ 32 = n := Nat.mod_eq_of_lt (by omega)
    rw [hmod]
    exact and_congr_right fun _ => by omega
  · rw [← h.keeps]
    exact hschedule

/-- **One call** of a counter on its schedule. -/
theorem Scheduled.tick (h : Scheduled period s) (hclock : SleptUntil s clock) {fuel : Nat}
    (htick : tick s ⟨fuel, clock⟩ = some s') (htime : s'.now.micros < horizon s') :
    Ticked s s' ∧ Scheduled period s' := by
  by_cases hs : s.counter.slotCounter = 0
  · rw [tick_first hs] at htick
    obtain rfl := Option.some.inj htick
    have hnormalised : (clock.sample 1).Normalised := clock.normalised 1
    refine ⟨⟨?_, hnormalised, ?_, ?_, ?_⟩, ⟨h.keeps, rfl, fun _ => hnormalised, fun _ => ?_⟩⟩
    · rw [hs]
      exact BitVec.lt_def.mpr (Nat.zero_lt_one)
    · simp
    · intro hne
      exact absurd hs hne
    · rw [if_neg (not_and_of_not_left _ (not_not.mpr hs))]
    · simp
  · exact h.later hs hclock htick htime

theorem scheduled_reachable {start : Timestamp}
    (hs : Reachable Traffic.tick InTime (newTickState period start) s) : Scheduled period s :=
  hs.invariant (scheduled_start period start) fun _ _ _ h hguard htick =>
    (h.tick hguard.1 htick (hguard.2 _ htick)).2

/-- **The schedule of the ticks.** -/
theorem tick_schedule {start : Timestamp} (hs : Reachable Traffic.tick InTime (newTickState period start) s)
    (hclock : SleptUntil s clock) :
    ((∃ fuel s', Traffic.tick s ⟨fuel, clock⟩ = some s') ↔ s.counter.slotCounter = 0 ∨
      ∃ n ≥ 1, (clock.sample n).micros < s.counter.nextslotTime.micros + n * period.toNat) ∧
    ∀ fuel s', Traffic.tick s ⟨fuel, clock⟩ = some s' → s'.now.micros < horizon s' → Ticked s s' := by
  have h := scheduled_reachable hs
  refine ⟨?_, fun fuel s' htick htime => (h.tick hclock htick htime).1⟩
  rw [tick_ends_iff h.normalised hclock, h.keeps]

end

theorem normalised_of_micros (m : Nat) : Timeval.Normalised ⟨(m / 1000000 : Nat), (m % 1000000 : Nat)⟩ := by
  simp only [Timeval.Normalised, rMillion]
  omega

theorem micros_le_of_le {m n : Nat} (h : m ≤ n) :
    Timeval.micros ⟨(m / 1000000 : Nat), (m % 1000000 : Nat)⟩ ≤
      Timeval.micros ⟨(n / 1000000 : Nat), (n % 1000000 : Nat)⟩ := by
  simp only [Timeval.micros, rMillion]
  omega

/-- A clock by its microseconds. -/
def microClock (f : Nat → Nat) (hf : Monotone f) : Clock where
  sample n := ⟨(f n / 1000000 : Nat), (f n % 1000000 : Nat)⟩
  normalised n := normalised_of_micros (f n)
  monotone _ _ h := micros_le_of_le (hf h)

theorem microClock_micros (f : Nat → Nat) (hf : Monotone f) (n : Nat) :
    ((microClock f hf).sample n).micros = f n := by
  simp only [microClock, Timeval.micros, rMillion]
  omega

/-- The state after a first call at `now`. -/
def tickedOnce (period : BitVec 32) (now : Timestamp) : TickState where
  counter := {
    period
    nextslotTime := now
    lastcounter := 1
    slotCounter := 1
    slip := 0 }
  now
  first := now

/-- A frame rate of 60, and a call that comes two periods late. -/
theorem tick_schedule_late : Ticked (tickedOnce 16666 ⟨5, 0⟩)
    { counter := {
        period := 16666
        nextslotTime := ⟨5, 49998⟩
        lastcounter := 4
        slotCounter := 4
        slip := 1 }
      now := ⟨5, 40000⟩
      first := ⟨5, 0⟩ } := by
  have hreach : Reachable tick InTime (newTickState 16666 ⟨5, 0⟩) (tickedOnce 16666 ⟨5, 0⟩) := by
    have htime : ∀ s', some (tickedOnce 16666 ⟨5, 0⟩) = some s' → s'.now.micros < horizon s' := by
      intro s' htick
      rw [← Option.some.inj htick]
      decide
    exact Reachable.start.next ⟨0, microClock (fun _ => 5000000) monotone_const⟩ ⟨fun h => absurd rfl h, htime⟩ rfl
  have hclock : SleptUntil (tickedOnce 16666 ⟨5, 0⟩) (microClock (fun _ => 5040000) monotone_const) := by
    intro _
    decide
  exact (tick_schedule hreach hclock).2 4 _ rfl (by decide)

/-- A clock that gains a period with every sample keeps the loop going, and after `2 ^ 32 - 1` slots the counter is
zero. -/
theorem tick_not_scheduled :
    Reachable tick (fun s call => SleptUntil s call.clock) (newTickState 1 ⟨0, 0⟩) (tickedOnce 1 ⟨0, 0⟩) ∧
    (SleptUntil (tickedOnce 1 ⟨0, 0⟩) (microClock id monotone_id) ∧
      ∀ fuel, tick (tickedOnce 1 ⟨0, 0⟩) ⟨fuel, microClock id monotone_id⟩ = none) ∧
    SleptUntil (tickedOnce 1 ⟨0, 0⟩) (microClock (fun _ => 2 ^ 32 - 2) monotone_const) ∧
      ∃ s', tick (tickedOnce 1 ⟨0, 0⟩) ⟨2 ^ 32, microClock (fun _ => 2 ^ 32 - 2) monotone_const⟩ = some s' ∧
        s'.counter.slotCounter = 0 := by
  have hreach : Reachable tick (fun s call => SleptUntil s call.clock) (newTickState 1 ⟨0, 0⟩)
      (tickedOnce 1 ⟨0, 0⟩) :=
    Reachable.start.next ⟨0, microClock (fun _ => 0) monotone_const⟩ (fun h => absurd rfl h) rfl
  have hnormalised : (tickedOnce 1 ⟨0, 0⟩).counter.nextslotTime.Normalised := ⟨Int.le_refl 0, by decide⟩
  have hnext : (tickedOnce 1 ⟨0, 0⟩).counter.nextslotTime.micros = 0 := rfl
  have hperiod : ((tickedOnce 1 ⟨0, 0⟩).counter.period.toNat : Int) = 1 := rfl
  have hslot : (tickedOnce 1 ⟨0, 0⟩).counter.slotCounter ≠ 0 := by
    decide
  refine ⟨hreach, ⟨?_, ?_⟩, ?_, ?_⟩
  · intro _
    exact Int.le_refl 0
  · intro fuel
    apply Option.eq_none_iff_forall_ne_some.mpr
    intro s' htick
    obtain ⟨n, -, hescapes, -⟩ := (tick_later hslot hnormalised fuel).mp htick
    have hbefore := hescapes.before
    simp only [microClock_micros, hnext, hperiod, id, nsmul_eq_mul] at hbefore
    omega
  · intro _
    rw [microClock_micros, hnext]
    omega
  · refine ⟨_, (tick_later hslot hnormalised _).mpr ⟨2 ^ 32 - 1, ?_, ⟨?_, fun k hk => ?_⟩, rfl⟩, ?_⟩
    · omega
    · simp only [microClock_micros, hnext, hperiod, nsmul_eq_mul]
      omega
    · simp only [microClock_micros, hnext, hperiod, nsmul_eq_mul]
      omega
    · apply BitVec.eq_of_toNat_eq
      show (1 + BitVec.ofNat 32 (2 ^ 32 - 1)).toNat = 0
      rw [BitVec.toNat_add, BitVec.toNat_ofNat]
      rfl

end Iperf2.Traffic
