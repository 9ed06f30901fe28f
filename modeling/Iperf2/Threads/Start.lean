import Iperf2.Lib.Transition
import Iperf2.Lib.Rendezvous
import Mathlib.Algebra.BigOperators.Fin
import Mathlib.Algebra.Order.BigOperators.Group.Finset

/-!
# The start barrier of parallel clients

With `-P` all clients connect before the first of them sends: each comes to `BarrierClient`, which counts down from
`mThreads`. But `client_init` makes `mThreads` clients for every port of the range, and the wait is a bare
`Condition_Wait` that any wake-up ends.

* `clientInit` : the clients, and their number (`length_clientInit`);
* `Start.step` : the critical sections of `BarrierClient`;
* `Gathers` : with a single port a state is that of a `Round` of all clients, which every step keeps but a
  spurious wake-up;
* `client_barrier_start` : the barrier does its job just for a single port.
-/

namespace Iperf2.Threads
open Rendezvous Transition

/-! ## The clients -/

/-- The settings that `main` and `client_init` read. -/
structure ClientSettings where
  mThreads : Nat
  mPort : BitVec 16
  mPortLast : BitVec 16

/-- `1 + clients->mPortLast - clients->mPort` -/
def ClientSettings.ports (clients : ClientSettings) : Int :=
  1 + clients.mPortLast.toNat - clients.mPort.toNat

/-- The loops of `client_init`: the settings it was given, and the copies it makes of them, each with its `j`
and `i`. -/
def clientInit (clients : ClientSettings) : List (Nat × Nat) :=
  (0, 0) :: (List.range clients.ports.toNat ×ˢ List.range clients.mThreads).filter
    fun (j, i) => !(j = 0 && i = 0)

/-- `transmits_start`, with the count that `main` gives it. -/
def transmitsStart (clients : ClientSettings) : Int := clients.mThreads

/-- There are `mThreads` clients for every port. -/
theorem length_clientInit {clients : ClientSettings} (hports : 0 < clients.ports) (hthreads : 0 < clients.mThreads) :
    (clientInit clients).length = clients.ports.toNat * clients.mThreads := by
  have hnodup : (List.range clients.ports.toNat ×ˢ List.range clients.mThreads).Nodup :=
    List.nodup_range.product List.nodup_range
  have hmem : (0, 0) ∈ List.range clients.ports.toNat ×ˢ List.range clients.mThreads := by
    rw [List.mem_product, List.mem_range, List.mem_range]
    exact ⟨by omega, hthreads⟩
  have hfilter : (fun p : Nat × Nat => !(p.1 = 0 && p.2 = 0)) = (· != ((0, 0) : Nat × Nat)) := by
    funext ⟨j, i⟩
    cases j <;> cases i <;> rfl
  have hlen := List.length_product (List.range clients.ports.toNat) (List.range clients.mThreads)
  have hpos := List.length_pos_of_mem hmem
  rw [List.length_range, List.length_range] at hlen
  show (_ :: List.filter (fun p : Nat × Nat => !(p.1 = 0 && p.2 = 0)) _).length = _
  rw [hfilter, ← hnodup.erase_eq_filter, List.length_cons, List.length_erase_of_mem hmem, hlen]
  rw [hlen] at hpos
  omega

theorem length_clientInit_of_no_port {clients : ClientSettings} (hports : clients.ports ≤ 0) :
    (clientInit clients).length = 1 := by
  have hzero : clients.ports.toNat = 0 := by omega
  rw [clientInit, hzero]
  rfl

/-! ## The barrier -/

/-- Where a client stands. A waiting client knows whether it was woken by the broadcast. -/
inductive Place
  | connecting
  | waiting (signalled : Bool)
  | leaving (last : Bool)
  | started (last : Bool)
  deriving DecidableEq

/-- `n` clients and their barrier. -/
structure Start (n : Nat) where
  count : Int
  client : Fin n → Place

inductive Turn (n : Nat)
  | enter (i : Fin n)
  | wake (i : Fin n)
  | leave (i : Fin n)

/-- `Condition_Broadcast` -/
def Place.broadcast : Place → Place
  | .waiting _ => .waiting true
  | place => place

namespace Start

variable {n : Nat}

def init (n : Nat) (count : Int) : Start n := { count := count, client := fun _ => .connecting }

/-- `BarrierClient`, from the lock to the unlock or to the wait. -/
def barrierClient (s : Start n) (i : Fin n) : Start n :=
  let count := s.count - 1
  if count ≤ 0 then
    { count := count, client := Function.update (fun j => (s.client j).broadcast) i (.leaving true) }
  else { count := count, client := Function.update s.client i (.waiting false) }

def step (s : Start n) : Turn n → Option (Start n)
  | .enter i =>
    match s.client i with
    | .connecting => some (s.barrierClient i)
    | _ => none
  | .wake i =>
    match s.client i with
    | .waiting _ => some { s with client := Function.update s.client i (.leaving false) }
    | _ => none
  | .leave i =>
    match s.client i with
    | .leaving last => some { s with client := Function.update s.client i (.started last) }
    | _ => none

end Start

/-- No client wakes without a broadcast. -/
def Signalled {n : Nat} (s : Start n) : Turn n → Prop
  | .wake i => s.client i ≠ .waiting false
  | _ => True

instance {n : Nat} (s : Start n) : (turn : Turn n) → Decidable (Signalled s turn)
  | .wake i => inferInstanceAs (Decidable (s.client i ≠ .waiting false))
  | .enter _ | .leave _ => .isTrue trivial

/-! ## One round -/

/-- The client `i` stands where the round has it. -/
structure Takes {n : Nat} (r : Round (Fin n)) (i : Fin n) (place : Place) : Prop where
  arrived : i ∈ r.arrived ↔ place ≠ .connecting
  told : ∀ last, place = .started last ↔ r.told i = some last
  waiting : place = .waiting false → ¬ r.Full
  signalled : place = .waiting true → r.Full ∧ r.arrived.getLast? ≠ some i
  leaving : ∀ last, place = .leaving last → r.Full ∧ last = decide (r.arrived.getLast? = some i)

/-- The state of the clients is that of a round. -/
structure Gathers {n : Nat} (s : Start n) (r : Round (Fin n)) : Prop where
  count : s.count = n - r.arrived.length
  takes : ∀ i, Takes r i (s.client i)

section Gathers

variable {n : Nat} {s : Start n} {r : Round (Fin n)} {i j : Fin n}

/-- Before everybody has come, nobody is further than the wait. -/
theorem Takes.place_of_not_full {place : Place} (h : Takes r j place) (full : ¬ r.Full) :
    place = .connecting ∨ place = .waiting false := by
  cases place with
  | connecting => exact .inl rfl
  | waiting signalled =>
    cases signalled with
    | false => exact .inr rfl
    | true => exact absurd (h.signalled rfl).1 full
  | leaving last => exact absurd (h.leaving last rfl).1 full
  | started last => exact absurd (Round.arrived_of_told ((h.told last).mp rfl)) full

/-- A client that waits for a broadcast after `i` has come. -/
theorem Takes.arrive {place : Place} (h : Takes r j place) (hi : i ∉ r.arrived) (hj : j ≠ i)
    (more : ¬ (r.arrive i hi).Full) : Takes (r.arrive i hi) j place := by
  have full : ¬ r.Full := fun full => hi (full i)
  have hplace := h.place_of_not_full full
  refine ⟨?_, h.told, fun _ => more, fun hw => ?_, fun last hl => ?_⟩
  · rw [← h.arrived, Round.arrive_arrived, List.mem_append, List.mem_singleton]
    simp [hj]
  · rw [hw] at hplace
    simp at hplace
  · rw [hl] at hplace
    simp at hplace

/-- A client that the broadcast of the last one finds. -/
theorem Takes.broadcast {place : Place} (h : Takes r j place) (hi : i ∉ r.arrived) (hj : j ≠ i)
    (full : (r.arrive i hi).Full) : Takes (r.arrive i hi) j place.broadcast := by
  have notFull : ¬ r.Full := fun full => hi (full i)
  have hmem : j ∈ r.arrived := by
    have hmem := full j
    rw [Round.arrive_arrived, List.mem_append, List.mem_singleton] at hmem
    exact hmem.resolve_right hj
  have hplace : place = .waiting false := (h.place_of_not_full notFull).resolve_left (h.arrived.mp hmem)
  subst hplace
  refine ⟨?_, fun last => ?_, fun hw => ?_, fun _ => ⟨full, ?_⟩, fun last hl => ?_⟩
  · simp [hmem, Place.broadcast]
  · simp [Place.broadcast, Round.told_eq_none hi]
  · cases hw
  · rw [Round.arrive_arrived, List.getLast?_append]
    simp [hj.symm]
  · cases hl

namespace Gathers

theorem not_mem (h : Gathers s r) (hi : s.client i = .connecting) : i ∉ r.arrived := by
  rw [(h.takes i).arrived, hi]
  simp

theorem full_iff (h : Gathers s r) (hi : i ∉ r.arrived) : (r.arrive i hi).Full ↔ s.count - 1 ≤ 0 := by
  have hle := (r.arrive i hi).length_le
  rw [Round.full_iff_length]
  rw [Fintype.card_fin, Round.arrive_arrived, List.length_append, List.length_singleton] at *
  have hcount := h.count
  omega

theorem enter (h : Gathers s r) (hi : s.client i = .connecting) : ∃ r', Gathers (s.barrierClient i) r' := by
  have hmem := h.not_mem hi
  have hlen : ((r.arrive i hmem).arrived.length : Int) = r.arrived.length + 1 := by simp
  have hcount := h.count
  refine ⟨r.arrive i hmem, ?_⟩
  rw [Start.barrierClient]
  split
  · rename_i hlast
    have full := (h.full_iff hmem).mpr hlast
    refine ⟨by rw [hlen]; dsimp only; omega, fun j => ?_⟩
    by_cases hj : j = i
    · subst hj
      simp only [Function.update_self]
      exact {
        arrived := by simp
        told := fun last => by simp [Round.told_eq_none hmem]
        waiting := fun hw => by cases hw
        signalled := fun hw => by cases hw
        leaving := fun last hl => by
          cases hl
          exact ⟨full, by simp⟩ }
    · simp only [Function.update_of_ne hj]
      exact (h.takes j).broadcast hmem hj full
  · rename_i hmore
    have more : ¬ (r.arrive i hmem).Full := fun full => hmore ((h.full_iff hmem).mp full)
    refine ⟨by rw [hlen]; dsimp only; omega, fun j => ?_⟩
    by_cases hj : j = i
    · subst hj
      simp only [Function.update_self]
      exact {
        arrived := by simp
        told := fun last => by simp [Round.told_eq_none hmem]
        waiting := fun _ => more
        signalled := fun hw => by cases hw
        leaving := fun last hl => by cases hl }
    · simp only [Function.update_of_ne hj]
      exact (h.takes j).arrive hmem hj more

theorem wake (h : Gathers s r) (hi : s.client i = .waiting true) :
    Gathers { s with client := Function.update s.client i (.leaving false) } r := by
  obtain ⟨full, hlast⟩ := (h.takes i).signalled hi
  refine ⟨h.count, fun j => ?_⟩
  by_cases hj : j = i
  · subst hj
    simp only [Function.update_self]
    exact {
      arrived := by simp [full j]
      told := fun last => by
        rw [← (h.takes j).told, hi]
        simp
      waiting := fun hw => by cases hw
      signalled := fun hw => by cases hw
      leaving := fun last hl => by
        cases hl
        exact ⟨full, by simp [hlast]⟩ }
  · simp only [Function.update_of_ne hj]
    exact h.takes j

theorem leave (h : Gathers s r) {last : Bool} (hi : s.client i = .leaving last) :
    ∃ r', Gathers { s with client := Function.update s.client i (.started last) } r' := by
  obtain ⟨full, hlast⟩ := (h.takes i).leaving last hi
  refine ⟨r.leave i full, h.count, fun j => ?_⟩
  by_cases hj : j = i
  · subst hj
    simp only [Function.update_self]
    exact {
      arrived := by simp [full j]
      told := fun last' => by
        rw [Round.leave_told_self, ← hlast]
        simp
      waiting := fun hw => by cases hw
      signalled := fun hw => by cases hw
      leaving := fun _ hl => by cases hl }
  · have hj' := h.takes j
    simp only [Function.update_of_ne hj]
    refine ⟨hj'.arrived, fun last' => ?_, hj'.waiting, hj'.signalled, hj'.leaving⟩
    rw [Round.leave_told_of_ne _ _ hj, hj'.told]

/-- Every step keeps the round but a wake-up without broadcast. -/
theorem step (h : Gathers s r) {turn : Turn n} {s' : Start n} (signalled : Signalled s turn)
    (hstep : s.step turn = some s') : ∃ r', Gathers s' r' := by
  unfold Start.step at hstep
  cases turn with
  | enter i =>
    dsimp only at hstep
    split at hstep
    · cases hstep
      exact h.enter ‹_›
    · cases hstep
  | wake i =>
    dsimp only at hstep
    split at hstep
    · rename_i b hi
      cases hstep
      cases b with
      | false => exact absurd hi signalled
      | true => exact ⟨r, h.wake hi⟩
    · cases hstep
  | leave i =>
    dsimp only at hstep
    split at hstep
    · cases hstep
      exact h.leave ‹_›
    · cases hstep

end Gathers

end Gathers

/-! ## What is promised -/

/-- No client starts before every client has come, every client does start, and exactly one is told it was the last. -/
structure Together {n : Nat} (s : Start n) : Prop where
  entered : ∀ i last, s.client i = .started last → ∀ j, s.client j ≠ .connecting
  started : Final Start.step Signalled s → ∀ i, ∃ last, s.client i = .started last
  last : (∀ i, ∃ last, s.client i = .started last) → ∃! i, s.client i = .started true

theorem Start.not_connecting {n : Nat} {s : Start n} (final : Final Start.step Signalled s) (i : Fin n) :
    s.client i ≠ .connecting := by
  intro hi
  exact final (.enter i) (s.barrierClient i) (by simp only [Start.step, hi]) trivial

namespace Gathers

variable {n : Nat} {s : Start n} {r : Round (Fin n)} {i j : Fin n}

theorem full_of_final (h : Gathers s r) (final : Final Start.step Signalled s) : r.Full := fun i =>
  (h.takes i).arrived.mpr (Start.not_connecting final i)

theorem started_of_final (h : Gathers s r) (final : Final Start.step Signalled s) (i : Fin n) :
    ∃ last, s.client i = .started last := by
  cases hi : s.client i with
  | connecting => exact absurd hi (Start.not_connecting final i)
  | waiting signalled =>
    cases signalled with
    | false => exact absurd (h.full_of_final final) ((h.takes i).waiting hi)
    | true =>
      have signalled : Signalled s (.wake i) := by
        show s.client i ≠ .waiting false
        rw [hi]
        simp
      exact absurd signalled (final (.wake i) _ (by simp only [Start.step, hi]; rfl))
  | leaving last => exact absurd trivial (final (.leave i) _ (by simp only [Start.step, hi]; rfl))
  | started last => exact ⟨last, rfl⟩

theorem together (h : Gathers s r) (hn : 0 < n) : Together s where
  entered i last hi j := (h.takes j).arrived.mp (Round.arrived_of_told (((h.takes i).told last).mp hi) j)
  started := h.started_of_final
  last all := by
    have : Nonempty (Fin n) := ⟨⟨0, hn⟩⟩
    have told : ∀ i, r.told i ≠ none := by
      intro i
      obtain ⟨last, hi⟩ := all i
      rw [((h.takes i).told last).mp hi]
      exact Option.some_ne_none _
    obtain ⟨i, hi, huniq⟩ := Round.existsUnique_told_true told
    exact ⟨i, ((h.takes i).told true).mpr hi, fun j hj => huniq j (((h.takes j).told true).mp hj)⟩

theorem init (n : Nat) : Gathers (Start.init n n) Round.new where
  count := by simp [Start.init]
  takes i := {
    arrived := by simp [Start.init]
    told := fun last => by simp [Start.init]
    waiting := fun h => by cases h
    signalled := fun h => by cases h
    leaving := fun _ h => by cases h }

/-- A client that wakes without a broadcast starts before another one has come. -/
theorem spurious (h : Gathers s r) {s' s'' : Start n} (hi : s.client i = .waiting false)
    (hwake : s.step (.wake i) = some s') (hleave : s'.step (.leave i) = some s'') : ¬ Together s'' := by
  simp only [Start.step, hi, Option.some.injEq] at hwake
  subst hwake
  simp only [Start.step, Function.update_self, Option.some.injEq] at hleave
  subst hleave
  intro together
  refine (h.takes i).waiting hi fun j => (h.takes j).arrived.mpr fun hj => ?_
  have hne : j ≠ i := by
    rintro rfl
    rw [hi] at hj
    cases hj
  refine together.entered i false (Function.update_self ..) j ?_
  simp only [Function.update_of_ne hne]
  exact hj

end Gathers

/-! ## Runs end -/

def Place.weight : Place → Nat
  | .connecting => 3
  | .waiting _ => 2
  | .leaving _ => 1
  | .started _ => 0

def Start.weight {n : Nat} (s : Start n) : Nat := ∑ i, (s.client i).weight

theorem Start.weight_lt {n : Nat} {s s' : Start n} {i : Fin n} (hi : (s'.client i).weight < (s.client i).weight)
    (hj : ∀ j, j ≠ i → (s'.client j).weight = (s.client j).weight) : s'.weight < s.weight := by
  refine Finset.sum_lt_sum (fun j _ => ?_) ⟨i, Finset.mem_univ i, hi⟩
  by_cases hji : j = i
  · subst hji
    omega
  · exact Nat.le_of_eq (hj j hji)

theorem Place.weight_broadcast (place : Place) : place.broadcast.weight = place.weight := by cases place <;> rfl

theorem Start.weight_step {n : Nat} (s : Start n) (turn : Turn n) (s' : Start n) (hstep : s.step turn = some s') :
    s'.weight < s.weight := by
  unfold Start.step at hstep
  cases turn with
  | enter i =>
    dsimp only at hstep
    split at hstep
    · rename_i hi
      cases hstep
      refine Start.weight_lt (i := i) ?_ fun j hj => ?_
      · rw [hi, Start.barrierClient]
        split <;> simp [Place.weight]
      · rw [Start.barrierClient]
        split
        · simp only [Function.update_of_ne hj, Place.weight_broadcast]
        · simp only [Function.update_of_ne hj]
    · cases hstep
  | wake i =>
    dsimp only at hstep
    split at hstep
    · rename_i hi
      cases hstep
      refine Start.weight_lt (i := i) ?_ fun j hj => ?_
      · simp [hi, Place.weight]
      · simp only [Function.update_of_ne hj]
    · cases hstep
  | leave i =>
    dsimp only at hstep
    split at hstep
    · rename_i hi
      cases hstep
      refine Start.weight_lt (i := i) ?_ fun j hj => ?_
      · simp [hi, Place.weight]
      · simp only [Function.update_of_ne hj]
    · cases hstep

/-! ## More clients, or fewer -/

section Count

variable {n : Nat} {count : Nat}

/-- The first `k` clients have come, and wait. -/
def Start.afterFirst (n count k : Nat) : Start n where
  count := count - k
  client j := if j.val < k then .waiting false else .connecting

theorem Start.step_afterFirst {k : Nat} (hk : k + 1 < count) (hn : k < n) :
    (Start.afterFirst n count k).step (.enter ⟨k, hn⟩) = some (Start.afterFirst n count (k + 1)) := by
  have hplace : (Start.afterFirst n count k).client ⟨k, hn⟩ = .connecting := by simp [Start.afterFirst]
  simp only [Start.step, hplace, Start.barrierClient, Option.some.injEq]
  rw [if_neg (by simp only [Start.afterFirst]; omega)]
  simp only [Start.afterFirst, Start.mk.injEq]
  refine ⟨by omega, ?_⟩
  funext j
  by_cases hj : j = ⟨k, hn⟩
  · subst hj
    simp
  · have hne : j.val ≠ k := fun h => hj (Fin.ext h)
    rw [Function.update_of_ne hj]
    exact if_congr (by omega) rfl rfl

theorem Start.reachable_afterFirst {k : Nat} (hk : k < count) (hn : k ≤ n) :
    Reachable Start.step Signalled (Start.init n count) (Start.afterFirst n count k) := by
  induction k with
  | zero =>
    have hinit : Start.afterFirst n count 0 = Start.init n count := by simp [Start.afterFirst, Start.init]
    rw [hinit]
    exact .start
  | succ k ih =>
    exact .next (.enter ⟨k, by omega⟩) (ih (by omega) (by omega)) trivial (Start.step_afterFirst hk (by omega))

/-- With more clients than the count, the one that makes it 0 starts before the next one has come. -/
theorem Start.not_together_of_more (hcount : 0 < count) (hn : count < n) :
    ∃ s, Reachable Start.step Signalled (Start.init n count) s ∧ ¬ Together s := by
  have hreach : Reachable Start.step Signalled (Start.init n count) (Start.afterFirst n count (count - 1)) :=
    Start.reachable_afterFirst (by omega) (by omega)
  obtain ⟨i, hi⟩ : ∃ i : Fin n, i.val = count - 1 := ⟨⟨count - 1, by omega⟩, rfl⟩
  obtain ⟨j, hj⟩ : ∃ j : Fin n, j.val = count := ⟨⟨count, hn⟩, rfl⟩
  have hne : j ≠ i := by
    rintro rfl
    omega
  generalize hs : Start.afterFirst n count (count - 1) = s at hreach
  have hlast : s.client i = .connecting := by
    rw [← hs]
    exact if_neg (by omega)
  have hnext : s.client j = .connecting := by
    rw [← hs]
    exact if_neg (by omega)
  have hzero : s.count - 1 ≤ 0 := by
    rw [← hs]
    show (count : Int) - (count - 1 : Nat) - 1 ≤ 0
    omega
  have henter : s.step (.enter i) = some (s.barrierClient i) := by
    simp only [Start.step, hlast]
  have hclient : (s.barrierClient i).client =
      Function.update (fun j => (s.client j).broadcast) i (.leaving true) := by
    rw [Start.barrierClient, if_pos hzero]
  have hleave : (s.barrierClient i).step (.leave i) = some
      { s.barrierClient i with
        client := Function.update (s.barrierClient i).client i (.started true) } := by
    simp only [Start.step, hclient, Function.update_self]
  refine ⟨_, .next (.leave i) (.next (.enter i) hreach trivial henter) trivial hleave, fun together => ?_⟩
  refine together.entered i true (Function.update_self ..) j ?_
  simp only [Function.update_of_ne hne, hclient, hnext]
  rfl

/-- With fewer clients than the count, all wait. -/
theorem Start.not_together_of_fewer (hpos : 0 < n) (hn : n < count) :
    ∃ s, Reachable Start.step Signalled (Start.init n count) s ∧ ¬ Together s := by
  have hreach := Start.reachable_afterFirst (n := n) hn (Nat.le_refl n)
  have hwait : ∀ i, (Start.afterFirst n count n).client i = .waiting false := fun i => if_pos i.isLt
  refine ⟨_, hreach, fun together => ?_⟩
  have final : Final Start.step Signalled (Start.afterFirst n count n) := by
    intro turn s' hstep signalled
    cases turn with
    | enter i => simp [Start.step, hwait] at hstep
    | wake i => exact signalled (hwait i)
    | leave i => simp [Start.step, hwait] at hstep
  obtain ⟨last, hstarted⟩ := together.started final ⟨0, hpos⟩
  rw [hwait] at hstarted
  cases hstarted

end Count

/-! ## The barrier of `-P` -/

/-- The barrier before the first client that `client_init` made comes to it. -/
def clientStart (clients : ClientSettings) : Start (clientInit clients).length :=
  Start.init (clientInit clients).length (transmitsStart clients)

section Ports

variable {clients : ClientSettings}

/-- With a single port, every state of a signalled run is that of a round. -/
theorem gathers_of_reachable (parallel : 1 < clients.mThreads) (single : clients.mPortLast = clients.mPort)
    {s : Start (clientInit clients).length} (hs : Reachable Start.step Signalled (clientStart clients) s) :
    ∃ r, Gathers s r := by
  have hports : clients.ports = 1 := by
    rw [ClientSettings.ports, single]
    omega
  have hlen : (clientInit clients).length = clients.mThreads := by
    rw [length_clientInit (by omega) (by omega), hports]
    exact Nat.one_mul _
  have hinit : Gathers (clientStart clients) Round.new := by
    have hcount : transmitsStart clients = (clientInit clients).length := by rw [transmitsStart, hlen]
    rw [clientStart, hcount]
    exact Gathers.init _
  refine hs.invariant (I := fun s => ∃ r, Gathers s r) ⟨_, hinit⟩ fun s turn s' hs signalled hstep => ?_
  obtain ⟨r, hr⟩ := hs
  exact hr.step signalled hstep

/-- With several ports there are too many clients for the count, and with an empty range too few. -/
theorem not_together_of_ports (parallel : 1 < clients.mThreads) (several : clients.mPortLast ≠ clients.mPort) :
    ∃ s, Reachable Start.step Signalled (clientStart clients) s ∧ ¬ Together s := by
  have hne : clients.mPortLast.toNat ≠ clients.mPort.toNat := fun h => several (BitVec.eq_of_toNat_eq h)
  rcases Nat.lt_or_ge clients.mPortLast.toNat clients.mPort.toNat with hlt | hge
  · have hlen : (clientInit clients).length = 1 :=
      length_clientInit_of_no_port (by rw [ClientSettings.ports]; omega)
    exact Start.not_together_of_fewer (by omega) (by omega)
  · have hports : 2 ≤ clients.ports.toNat := by
      rw [ClientSettings.ports]
      omega
    have hlen : (clientInit clients).length = clients.ports.toNat * clients.mThreads :=
      length_clientInit (by omega) (by omega)
    have hmul := Nat.mul_le_mul_right clients.mThreads hports
    exact Start.not_together_of_more (by omega) (by omega)

end Ports

/-- Parallel clients. Every run is finite; all runs whose wake-ups come from the broadcast bring the clients together
just if there is a single port, and there no other wake-up does so. -/
theorem client_barrier_start (clients : ClientSettings) (parallel : 1 < clients.mThreads) :
    (∃ bound, ∀ turns s, run Start.step Any (clientStart clients) turns = some s → turns.length ≤ bound) ∧
    ((∀ s, Reachable Start.step Signalled (clientStart clients) s → Together s) ↔
      clients.mPortLast = clients.mPort) ∧
    (clients.mPortLast = clients.mPort → ∀ s i s' s'', Reachable Start.step Signalled (clientStart clients) s →
      ¬ Signalled s (.wake i) → s.step (.wake i) = some s' → s'.step (.leave i) = some s'' → ¬ Together s'') := by
  refine ⟨⟨(clientStart clients).weight, fun turns s hrun => ?_⟩, ⟨fun together => ?_, fun single s hs => ?_⟩, ?_⟩
  · have hle := run_length_le Start.step Any Start.weight_step hrun
    omega
  · by_contra several
    obtain ⟨s, hs, hbad⟩ := not_together_of_ports parallel several
    exact hbad (together s hs)
  · obtain ⟨r, hr⟩ := gathers_of_reachable parallel single hs
    exact hr.together (Nat.succ_pos _)
  · intro single s i s' s'' hs quiet hwake hleave
    obtain ⟨r, hr⟩ := gathers_of_reachable parallel single hs
    exact hr.spurious (not_not.mp quiet) hwake hleave

/-- Two clients for each port from 5001 on. -/
def twoThreads (mPortLast : BitVec 16) : ClientSettings where
  mThreads := 2
  mPort := 5001
  mPortLast := mPortLast

/-- Both clients come, the second one as the last, and both start. -/
def bothStart : List (Turn (clientInit (twoThreads 5001)).length) :=
  [.enter ⟨0, by decide⟩, .enter ⟨1, by decide⟩, .wake ⟨0, by decide⟩, .leave ⟨1, by decide⟩, .leave ⟨0, by decide⟩]

theorem client_barrier_start_single_port :
    ∃ s, run Start.step Signalled (clientStart (twoThreads 5001)) bothStart = some s ∧ Together s ∧
      s.client ⟨0, by decide⟩ = .started false ∧ s.client ⟨1, by decide⟩ = .started true := by
  have hrun : (run Start.step Signalled (clientStart (twoThreads 5001)) bothStart).map
      (fun s => (s.client ⟨0, by decide⟩, s.client ⟨1, by decide⟩)) = some (.started false, .started true) := by
    decide
  obtain ⟨s, hs, hclients⟩ := Option.map_eq_some_iff.mp hrun
  have together := (client_barrier_start (twoThreads 5001) (by decide)).2.1.mpr rfl s (.of_run _ _ .start hs)
  exact ⟨s, hs, together, congrArg Prod.fst hclients, congrArg Prod.snd hclients⟩

/-- Two ports, so four clients: the second one finds the count 0 and starts, with two of them still to come. And on a
single port the first client starts before the second has come, when its wait ends by itself. -/
theorem client_barrier_start_fails :
    ((run Start.step Signalled (clientStart (twoThreads 5002))
      [.enter ⟨0, by decide⟩, .enter ⟨1, by decide⟩, .leave ⟨1, by decide⟩]).map
      fun s => (s.client ⟨1, by decide⟩, s.client ⟨2, by decide⟩)) = some (.started true, .connecting) ∧
    ((run Start.step Any (clientStart (twoThreads 5001))
      [.enter ⟨0, by decide⟩, .wake ⟨0, by decide⟩, .leave ⟨0, by decide⟩]).map
      fun s => (s.client ⟨0, by decide⟩, s.client ⟨1, by decide⟩)) = some (.started false, .connecting) := by
  decide

end Iperf2.Threads
