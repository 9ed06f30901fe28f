import Iperf2.Lib.Transition
import Iperf2.Lib.Rendezvous

/-!
# The full-duplex barrier

The two traffic threads of a full-duplex test meet at one `BarrierMutex` twice: before their traffic
(`StartSynch`, `InitTrafficLoop`) and after it (`EndJob`). A step is what a thread does while it holds the
barrier's mutex; a thread in `Condition_TimedWait` can wake at any time, which covers the broadcast, the end
of the second and a spurious wake-up.

* `Duplex.step` : the critical sections of `fullduplex_startstop_barrier`, and the return from them;
* `Meets` : a state of the two threads is that of a `Round` for each of the two barriers;
* `Meets.step` : this is kept by every step without timeout, as long as nobody comes to the stop barrier while
  the other thread is still waiting at the start barrier.
-/

namespace Iperf2.Threads
open Rendezvous Transition

/-! ## The barrier and its threads -/

structure BarrierMutex where
  count : Nat
  timeout : Int
  deriving DecidableEq

def MINBARRIERTIMEOUT : Int := 3

/-- The settings that `InitSumReport` reads for the barrier. -/
structure DuplexSettings where
  isServerReverse : Bool
  isModeTime : Bool
  isUDP : Bool
  mAmount : BitVec 64

/-- The `fullduplex_barrier` of `InitSumReport`, in a report that `calloc` made. -/
def initSumReport (inSettings : DuplexSettings) : BarrierMutex :=
  if !inSettings.isServerReverse then
    let timeout := if inSettings.isModeTime && inSettings.isUDP then
      ((inSettings.mAmount / 100).setWidth 32 + 1).toInt else MINBARRIERTIMEOUT
    { count := 0, timeout := if timeout < MINBARRIERTIMEOUT then MINBARRIERTIMEOUT else timeout }
  else { count := 0, timeout := 0 }

/-- The traffic threads of one side: the one in `Client`, the one in `Server`. -/
inductive Traffic
  | client
  | server
  deriving DecidableEq

def Traffic.other : Traffic → Traffic
  | .client => .server
  | .server => .client

/-- `fullduplex_start_barrier`, `fullduplex_stop_barrier` -/
inductive Phase
  | start
  | stop
  deriving DecidableEq

/-- Where a thread stands. -/
inductive Point
  | call (φ : Phase)
  | wait (φ : Phase) (timeout : Int)
  | leave (φ : Phase) (rc : Int)
  /-- It has returned from the stop barrier. -/
  | past
  /-- `StartSynch` returned -1: the client does not `Run`. -/
  | failed
  /-- `exit(-1)` in `InitTrafficLoop`. -/
  | exited
  deriving DecidableEq

/-- A traffic thread, with what the barriers returned to it. -/
structure Thread where
  point : Point
  rc : Phase → Option Int

structure Duplex where
  barrier : BarrierMutex
  thread : Traffic → Thread

namespace Duplex

def moveTo (s : Duplex) (t : Traffic) (point : Point) : Duplex :=
  { s with thread := Function.update s.thread t { s.thread t with point := point } }

/-- The `while` loop of `fullduplex_startstop_barrier`, up to the next wait or to the unlock. -/
def waitLoop (s : Duplex) (t : Traffic) (φ : Phase) (timeout : Int) : Duplex :=
  if s.barrier.count ≠ 2 ∧ timeout > 0 then s.moveTo t (.wait φ timeout)
  else { s with barrier := { s.barrier with count := 0 } }.moveTo t (.leave φ 0)

/-- `fullduplex_startstop_barrier`, from the lock. -/
def fullduplexStartstopBarrier (s : Duplex) (t : Traffic) (φ : Phase) : Duplex :=
  let s := { s with barrier := { s.barrier with count := s.barrier.count + 1 } }
  if s.barrier.count = 2 then s.moveTo t (.leave φ 1) else s.waitLoop t φ s.barrier.timeout

/-- The rest of the loop body when `Condition_TimedWait` returns. -/
def timedWaitReturns (s : Duplex) (t : Traffic) (φ : Phase) (timeout : Int) : Duplex :=
  let timeout := timeout - 1
  if timeout = 0 ∧ s.barrier.count ≠ 2 then s.moveTo t (.leave φ (-1)) else s.waitLoop t φ timeout

/-- Where `StartSynch`, `InitTrafficLoop` and `EndJob` go with the result. -/
def next (t : Traffic) (rc : Int) : Phase → Point
  | .start =>
    if rc < 0 then
      match t with
      | .client => .failed
      | .server => .exited
    else .call .stop
  | .stop => .past

def returns (s : Duplex) (t : Traffic) (φ : Phase) (rc : Int) : Duplex :=
  let thread := { point := next t rc φ, rc := Function.update (s.thread t).rc φ (some rc) }
  { s with thread := Function.update s.thread t thread }

/-- Nothing was called yet. The server's report is one of a `ServerReverse` test, whose threads pass over the start
barrier. -/
def init (inSettings : DuplexSettings) : Duplex where
  barrier := initSumReport inSettings
  thread _ := { point := .call (if !inSettings.isServerReverse then .start else .stop), rc := fun _ => none }

end Duplex

/-- The thread `t` takes the mutex, wakes with the mutex, or returns. -/
inductive Act
  | enter (t : Traffic)
  | wake (t : Traffic)
  | leave (t : Traffic)
  deriving DecidableEq

namespace Duplex

def step (s : Duplex) (a : Act) : Option Duplex :=
  if (s.thread .server).point = .exited then none else
  match a with
  | .enter t =>
    match (s.thread t).point with
    | .call φ => some (s.fullduplexStartstopBarrier t φ)
    | _ => none
  | .wake t =>
    match (s.thread t).point with
    | .wait φ timeout => some (s.timedWaitReturns t φ timeout)
    | _ => none
  | .leave t =>
    match (s.thread t).point with
    | .leave φ rc => some (s.returns t φ rc)
    | _ => none

end Duplex

/-! ## Small facts -/

theorem Traffic.other_ne (t : Traffic) : t.other ≠ t := by cases t <;> decide

theorem Traffic.other_other (t : Traffic) : t.other.other = t := by cases t <;> rfl

theorem Traffic.eq_or_other (t u : Traffic) : u = t ∨ u = t.other := by
  cases t <;> cases u <;> decide

namespace Duplex

variable (s : Duplex) (t : Traffic)

@[simp] theorem moveTo_barrier (p : Point) : (s.moveTo t p).barrier = s.barrier := rfl

@[simp] theorem moveTo_self (p : Point) : (s.moveTo t p).thread t = { s.thread t with point := p } :=
  Function.update_self ..

@[simp] theorem moveTo_other (p : Point) : (s.moveTo t p).thread t.other = s.thread t.other :=
  Function.update_of_ne t.other_ne ..

@[simp] theorem returns_barrier (φ : Phase) (rc : Int) : (s.returns t φ rc).barrier = s.barrier := rfl

@[simp] theorem returns_self (φ : Phase) (rc : Int) : (s.returns t φ rc).thread t =
    { point := next t rc φ, rc := Function.update (s.thread t).rc φ (some rc) } := Function.update_self ..

@[simp] theorem returns_other (φ : Phase) (rc : Int) :
    (s.returns t φ rc).thread t.other = s.thread t.other := Function.update_of_ne t.other_ne ..

end Duplex

/-- The timeout of a barrier that was initialised. -/
theorem initSumReport_timeout {inSettings : DuplexSettings} (h : inSettings.isServerReverse = false) :
    MINBARRIERTIMEOUT ≤ (initSumReport inSettings).timeout := by
  rw [initSumReport, h]
  simp only [Bool.not_false, if_true]
  split <;> omega

/-! ## Guards -/

/-- The wait of `t` ends without the other thread: `fullduplex_startstop_barrier` returns -1. -/
def Duplex.timesOut (s : Duplex) (t : Traffic) : Bool :=
  match (s.thread t).point with
  | .wait _ timeout => timeout = 1 ∧ s.barrier.count ≠ 2
  | _ => false

/-- No wait times out in this step. -/
def Untimed (s : Duplex) : Act → Prop
  | .wake t => s.timesOut t = false
  | _ => True

/-- `t` is still in the wait of the start barrier. -/
def Duplex.lingers (s : Duplex) (t : Traffic) : Bool :=
  match (s.thread t).point with
  | .wait .start _ => true
  | _ => false

/-- Nobody comes to the stop barrier while the other thread is still waiting at the start barrier. -/
def Apart (s : Duplex) : Act → Prop
  | .enter t => (s.thread t).point = .call .stop → s.lingers t.other = false
  | _ => True

instance (s : Duplex) : (a : Act) → Decidable (Untimed s a)
  | .wake t => inferInstanceAs (Decidable (s.timesOut t = false))
  | .enter _ | .leave _ => .isTrue trivial

instance (s : Duplex) : (a : Act) → Decidable (Apart s a)
  | .enter t => inferInstanceAs (Decidable ((s.thread t).point = .call .stop → s.lingers t.other = false))
  | .wake _ | .leave _ => .isTrue trivial

/-! ## Two rounds -/

/-- The barriers at which a thread has been counted. -/
def Point.arrived : Point → Phase → Bool
  | .call .start, _ => false
  | .call .stop, φ | .wait .start _, φ | .leave .start _, φ | .failed, φ | .exited, φ => φ = .start
  | .wait .stop _, _ | .leave .stop _, _ | .past, _ => true

/-- The results a thread has, which no barrier turned away. -/
def Thread.InOrder (thread : Thread) : Prop :=
  match thread.point with
  | .call .start | .wait .start _ | .leave .start _ => thread.rc .start = none ∧ thread.rc .stop = none
  | .call .stop | .wait .stop _ | .leave .stop _ => thread.rc .start ≠ none ∧ thread.rc .stop = none
  | .past => thread.rc .start ≠ none ∧ thread.rc .stop ≠ none
  | .failed | .exited => False

/-- What the barrier returns for what a round tells. -/
def rcOf (last : Bool) : Int := if last then 1 else 0

/-- The thread `t` stands where the rounds of the two barriers have it. -/
structure Stands (barrier : BarrierMutex) (r : Phase → Round Traffic) (t : Traffic) (thread : Thread) : Prop where
  inOrder : thread.InOrder
  arrived : ∀ φ, t ∈ (r φ).arrived ↔ thread.point.arrived φ = true
  returned : ∀ φ, thread.rc φ = ((r φ).told t).map rcOf
  waiting : ∀ φ n, thread.point = .wait φ n →
    0 < n ∧ (r φ).arrived.head? = some t ∧ barrier.count = (r φ).arrived.length
  leaving : ∀ φ rc, thread.point = .leave φ rc →
    (r φ).Full ∧ rc = rcOf (decide ((r φ).arrived.getLast? = some t))

/-- The state of the two threads is that of one round for each barrier. -/
structure Meets (s : Duplex) (r : Phase → Round Traffic) : Prop where
  patience : 0 < s.barrier.timeout
  stands : ∀ t, Stands s.barrier r t (s.thread t)
  idle : (∀ t φ n, (s.thread t).point ≠ .wait φ n) → s.barrier.count = 0

/-- The three kinds of rounds of two parties. -/
theorem round_cases (r : Round Traffic) :
    r.arrived = [] ∨ (∃ t, r.arrived = [t]) ∨ ∃ t, r.arrived = [t, t.other] := by
  have hnd := r.nodup
  generalize r.arrived = l at hnd ⊢
  match l, hnd with
  | [], _ => exact .inl rfl
  | [t], _ => exact .inr (.inl ⟨t, rfl⟩)
  | [t, u], hnd =>
    rcases t.eq_or_other u with rfl | rfl
    · simp at hnd
    · exact .inr (.inr ⟨t, rfl⟩)
  | t :: u :: v :: _, hnd =>
    rcases t.eq_or_other u with rfl | rfl
    · simp at hnd
    · rcases t.eq_or_other v with rfl | rfl
      · simp at hnd
      · simp at hnd

theorem full_pair {r : Round Traffic} {t : Traffic} (h : r.arrived = [t, t.other]) : r.Full := by
  intro q
  rw [h]
  rcases t.eq_or_other q with rfl | rfl
  · exact List.mem_cons_self
  · exact List.mem_cons_of_mem _ (List.mem_singleton_self _)

/-- A thread that was counted at a barrier and has no result of it is inside. -/
theorem Thread.InOrder.inside {thread : Thread} {φ : Phase} (h : thread.InOrder)
    (counted : thread.point.arrived φ = true) (hrc : thread.rc φ = none) :
    (∃ n, thread.point = .wait φ n) ∨ ∃ rc, thread.point = .leave φ rc := by
  obtain ⟨point, rcs⟩ := thread
  cases point with
  | call ψ => cases ψ <;> cases φ <;> simp_all [Thread.InOrder, Point.arrived]
  | wait ψ n => cases ψ <;> cases φ <;> simp_all [Thread.InOrder, Point.arrived]
  | leave ψ rc => cases ψ <;> cases φ <;> simp_all [Thread.InOrder, Point.arrived]
  | past => cases φ <;> simp_all [Thread.InOrder]
  | failed => exact h.elim
  | exited => exact h.elim

namespace Meets

variable {s : Duplex} {r : Phase → Round Traffic} {t : Traffic} {φ : Phase}

/-- A thread that waits is alone at the barrier, or the other thread came after it. -/
theorem arrived_of_wait (h : Meets s r) {n : Int} (hw : (s.thread t).point = .wait φ n) :
    ((r φ).arrived = [t] ∧ s.barrier.count = 1) ∨ ((r φ).arrived = [t, t.other] ∧ s.barrier.count = 2) := by
  obtain ⟨-, hhead, hcount⟩ := (h.stands t).waiting φ n hw
  rcases round_cases (r φ) with hr | ⟨u, hr⟩ | ⟨u, hr⟩
  · rw [hr] at hhead
    cases hhead
  · rw [hr] at hhead hcount
    cases hhead
    exact .inl ⟨hr, hcount⟩
  · rw [hr] at hhead hcount
    cases hhead
    exact .inr ⟨hr, hcount⟩

theorem told_of_rc (h : Meets s r) {u : Traffic} (hrc : (s.thread u).rc φ ≠ none) : (r φ).told u ≠ none := by
  intro hn
  apply hrc
  rw [(h.stands u).returned, hn]
  rfl

/-- A wait at the stop barrier comes after everybody's at the start barrier. -/
theorem start_before_stop (h : Meets s r) {u : Traffic} {n m : Int} (hs : (s.thread t).point = .wait .start n)
    (hu : (s.thread u).point = .wait .stop m) : False := by
  have ord := (h.stands u).inOrder
  rw [Thread.InOrder, hu] at ord
  have full := (r .start).full u (h.told_of_rc ord.1)
  have count : s.barrier.count = 2 := by
    rcases h.arrived_of_wait hs with ⟨hr, -⟩ | ⟨-, hc⟩
    · have hmem := full t.other
      rw [hr] at hmem
      exact absurd (List.mem_singleton.mp hmem) t.other_ne
    · exact hc
  rcases h.arrived_of_wait hu with ⟨-, hc⟩ | ⟨hr, -⟩
  · omega
  · have hmem : t ∈ (r .stop).arrived := full_pair hr t
    rw [(h.stands t).arrived, hs] at hmem
    simp [Point.arrived] at hmem

/-- The threads never wait both. -/
theorem not_both_wait (h : Meets s r) {n : Int} (hw : (s.thread t).point = .wait φ n) (ψ : Phase) (m : Int) :
    (s.thread t.other).point ≠ .wait ψ m := by
  intro hu
  cases φ <;> cases ψ
  case start.stop => exact h.start_before_stop hw hu
  case stop.start => exact h.start_before_stop hu hw
  all_goals
    have ht := ((h.stands _).waiting _ _ hw).2.1
    rw [((h.stands _).waiting _ _ hu).2.1] at ht
    exact t.other_ne (Option.some.inj ht)

/-- What a thread finds that comes to a barrier. -/
theorem call_cases (h : Meets s r) (hp : (s.thread t).point = .call φ) (apart : Apart s (.enter t)) :
    ((r φ).arrived = [] ∧ s.barrier.count = 0 ∧ ∀ ψ m, (s.thread t.other).point ≠ .wait ψ m) ∨
      ((r φ).arrived = [t.other] ∧ s.barrier.count = 1 ∧ ∃ m, (s.thread t.other).point = .wait φ m) := by
  have ht : t ∉ (r φ).arrived := by
    rw [(h.stands t).arrived, hp]
    cases φ <;> simp [Point.arrived]
  have notFull : ¬ (r φ).Full := fun full => ht (full t)
  by_cases hw : ∃ ψ m, (s.thread t.other).point = .wait ψ m
  · obtain ⟨ψ, m, hu⟩ := hw
    have same : ψ = φ := by
      cases φ <;> cases ψ
      case start.stop =>
        have ord := (h.stands t.other).inOrder
        rw [Thread.InOrder, hu] at ord
        exact absurd ((r .start).full _ (h.told_of_rc ord.1)) notFull
      case stop.start =>
        have near := apart hp
        rw [Duplex.lingers, hu] at near
        cases near
      all_goals rfl
    subst same
    rcases h.arrived_of_wait hu with ⟨hr, hc⟩ | ⟨hr, -⟩
    · exact .inr ⟨hr, hc, m, hu⟩
    · exact absurd (full_pair hr) notFull
  · have notWait : ∀ ψ m, (s.thread t.other).point ≠ .wait ψ m := fun ψ m hu => hw ⟨ψ, m, hu⟩
    have hu : t.other ∉ (r φ).arrived := by
      intro hmem
      have hrc : (s.thread t.other).rc φ = none := by
        by_contra hne
        exact notFull ((r φ).full _ (h.told_of_rc hne))
      rcases (h.stands t.other).inOrder.inside (((h.stands _).arrived _).mp hmem) hrc with ⟨n, hn⟩ | ⟨rc, hn⟩
      · exact notWait φ n hn
      · exact notFull ((h.stands _).leaving _ _ hn).1
    refine .inl ⟨?_, h.idle ?_, notWait⟩
    · rw [List.eq_nil_iff_forall_not_mem]
      intro v
      rcases t.eq_or_other v with rfl | rfl
      · exact ht
      · exact hu
    · intro v ψ n hv
      rcases t.eq_or_other v with rfl | rfl
      · rw [hp] at hv
        cases hv
      · exact notWait ψ n hv

/-! ### One step -/

/-- The rounds after `t` arrives at `φ`. -/
def arriveAt (r : Phase → Round Traffic) (φ : Phase) (t : Traffic) (h : t ∉ (r φ).arrived) : Phase → Round Traffic :=
  Function.update r φ ((r φ).arrive t h)

theorem arriveAt_self (h : t ∉ (r φ).arrived) : arriveAt r φ t h φ = (r φ).arrive t h := Function.update_self ..

theorem arriveAt_told (h : t ∉ (r φ).arrived) (ψ : Phase) (u : Traffic) :
    (arriveAt r φ t h ψ).told u = (r ψ).told u := by
  by_cases hψ : ψ = φ
  · subst hψ
    rw [arriveAt_self, Round.arrive_told]
  · rw [arriveAt, Function.update_of_ne hψ]

theorem mem_arriveAt (h : t ∉ (r φ).arrived) (ψ : Phase) (u : Traffic) :
    u ∈ (arriveAt r φ t h ψ).arrived ↔ u ∈ (r ψ).arrived ∨ (ψ = φ ∧ u = t) := by
  by_cases hψ : ψ = φ
  · subst hψ
    rw [arriveAt_self, Round.arrive_arrived, List.mem_append, List.mem_singleton]
    simp
  · rw [arriveAt, Function.update_of_ne hψ]
    simp [hψ]

theorem not_arrived (h : Meets s r) (hp : (s.thread t).point = .call φ) : t ∉ (r φ).arrived := by
  rw [(h.stands t).arrived, hp]
  cases φ <;> simp [Point.arrived]

/-- A point after the call at which a thread is counted, with no result yet. -/
theorem stands_arriveAt (h : Meets s r) (hp : (s.thread t).point = .call φ) (ht : t ∉ (r φ).arrived) {p : Point}
    (inside : (∃ n, p = .wait φ n) ∨ ∃ rc, p = .leave φ rc) {barrier : BarrierMutex}
    (waiting : ∀ n, p = .wait φ n →
      0 < n ∧ ((r φ).arrive t ht).arrived.head? = some t ∧ barrier.count = ((r φ).arrive t ht).arrived.length)
    (leaving : ∀ rc, p = .leave φ rc →
      ((r φ).arrive t ht).Full ∧ rc = rcOf (decide (((r φ).arrive t ht).arrived.getLast? = some t))) :
    Stands barrier (arriveAt r φ t ht) t { s.thread t with point := p } where
  inOrder := by
    have ord := (h.stands t).inOrder
    rw [Thread.InOrder, hp] at ord
    rcases inside with ⟨n, rfl⟩ | ⟨rc, rfl⟩ <;> cases φ <;> exact ord
  arrived ψ := by
    rw [mem_arriveAt, (h.stands t).arrived, hp]
    rcases inside with ⟨n, rfl⟩ | ⟨rc, rfl⟩ <;> cases φ <;> cases ψ <;> simp [Point.arrived]
  returned ψ := by rw [arriveAt_told, (h.stands t).returned]
  waiting ψ n hn := by
    rcases inside with ⟨m, rfl⟩ | ⟨rc, rfl⟩ <;> cases hn
    rw [arriveAt_self]
    exact waiting n rfl
  leaving ψ rc hrc := by
    rcases inside with ⟨m, rfl⟩ | ⟨rc', rfl⟩ <;> cases hrc
    rw [arriveAt_self]
    exact leaving rc rfl

/-- A thread that was there or stays away when the other arrives. -/
theorem stands_arriveAt_other (h : Meets s r) (ht : t ∉ (r φ).arrived) {barrier : BarrierMutex}
    (waiting : ∀ ψ n, (s.thread t.other).point = .wait ψ n →
      ψ = φ ∧ (r φ).arrived = [t.other] ∧ barrier.count = 2) :
    Stands barrier (arriveAt r φ t ht) t.other (s.thread t.other) where
  inOrder := (h.stands t.other).inOrder
  arrived ψ := by
    rw [mem_arriveAt, (h.stands t.other).arrived]
    simp [t.other_ne]
  returned ψ := by rw [arriveAt_told, (h.stands t.other).returned]
  waiting ψ n hn := by
    obtain ⟨rfl, hr, hc⟩ := waiting ψ n hn
    rw [arriveAt_self, Round.arrive_arrived, hr]
    exact ⟨((h.stands _).waiting _ _ hn).1, rfl, hc⟩
  leaving ψ rc hrc := by
    obtain ⟨full, hlast⟩ := (h.stands t.other).leaving ψ rc hrc
    have hψ : ψ ≠ φ := by
      rintro rfl
      exact ht (full t)
    rw [arriveAt, Function.update_of_ne hψ]
    exact ⟨full, hlast⟩

/-- Every thread comes to a barrier either first, and waits, or second, and passes. -/
theorem enter (h : Meets s r) (hp : (s.thread t).point = .call φ) (apart : Apart s (.enter t)) :
    ∃ r', Meets (s.fullduplexStartstopBarrier t φ) r' := by
  have ht := h.not_arrived hp
  refine ⟨arriveAt r φ t ht, ?_⟩
  rcases h.call_cases hp apart with ⟨hr, hc, notWait⟩ | ⟨hr, hc, m, hm⟩
  · have hs : s.fullduplexStartstopBarrier t φ =
        { s with barrier := { s.barrier with count := 1 } }.moveTo t (.wait φ s.barrier.timeout) := by
      simp [Duplex.fullduplexStartstopBarrier, Duplex.waitLoop, hc, h.patience]
    rw [hs]
    refine ⟨h.patience, fun u => ?_, fun none => absurd (by rw [Duplex.moveTo_self]) (none t φ s.barrier.timeout)⟩
    · rcases t.eq_or_other u with rfl | rfl
      · rw [Duplex.moveTo_self]
        refine h.stands_arriveAt hp ht (.inl ⟨_, rfl⟩) (fun n hn => ?_) (fun rc hrc => by cases hrc)
        cases hn
        rw [Round.arrive_arrived, hr]
        exact ⟨h.patience, rfl, rfl⟩
      · rw [Duplex.moveTo_other]
        exact h.stands_arriveAt_other ht fun ψ n hn => absurd hn (notWait ψ n)
  · have hs : s.fullduplexStartstopBarrier t φ =
        { s with barrier := { s.barrier with count := 2 } }.moveTo t (.leave φ 1) := by
      simp [Duplex.fullduplexStartstopBarrier, hc]
    rw [hs]
    refine ⟨h.patience, fun u => ?_, fun none => absurd (by rw [Duplex.moveTo_other]; exact hm) (none t.other φ m)⟩
    · rcases t.eq_or_other u with rfl | rfl
      · rw [Duplex.moveTo_self]
        refine h.stands_arriveAt hp ht (.inr ⟨_, rfl⟩) (fun n hn => by cases hn) (fun rc hrc => ?_)
        cases hrc
        refine ⟨fun v => ?_, ?_⟩
        · rw [Round.arrive_arrived, hr]
          rcases u.eq_or_other v with rfl | rfl <;> simp
        · rw [Round.arrive_arrived, hr]
          simp [rcOf]
      · rw [Duplex.moveTo_other]
        refine h.stands_arriveAt_other ht fun ψ n hn => ?_
        rw [hm] at hn
        cases hn
        exact ⟨rfl, hr, rfl⟩

/-- A change of `t` that leaves the rounds and the count as they are. -/
theorem stands_other (h : Meets s r) {barrier : BarrierMutex}
    (notWait : ∀ ψ n, (s.thread t.other).point ≠ .wait ψ n) :
    Stands barrier r t.other (s.thread t.other) where
  inOrder := (h.stands t.other).inOrder
  arrived := (h.stands t.other).arrived
  returned := (h.stands t.other).returned
  waiting ψ n hn := absurd hn (notWait ψ n)
  leaving := (h.stands t.other).leaving

/-- `t` goes on inside the barrier. -/
theorem stands_inside (h : Meets s r) {n : Int} (hp : (s.thread t).point = .wait φ n) {p : Point}
    (inside : (∃ n, p = .wait φ n) ∨ ∃ rc, p = .leave φ rc) {barrier : BarrierMutex}
    (waiting : ∀ n, p = .wait φ n →
      0 < n ∧ (r φ).arrived.head? = some t ∧ barrier.count = (r φ).arrived.length)
    (leaving : ∀ rc, p = .leave φ rc → (r φ).Full ∧ rc = rcOf (decide ((r φ).arrived.getLast? = some t))) :
    Stands barrier r t { s.thread t with point := p } where
  inOrder := by
    have ord := (h.stands t).inOrder
    rw [Thread.InOrder, hp] at ord
    rcases inside with ⟨n, rfl⟩ | ⟨rc, rfl⟩ <;> cases φ <;> exact ord
  arrived ψ := by
    rw [(h.stands t).arrived, hp]
    rcases inside with ⟨n, rfl⟩ | ⟨rc, rfl⟩ <;> cases φ <;> exact Iff.rfl
  returned := (h.stands t).returned
  waiting ψ n hn := by
    rcases inside with ⟨m, rfl⟩ | ⟨rc, rfl⟩ <;> cases hn
    exact waiting n rfl
  leaving ψ rc hrc := by
    rcases inside with ⟨m, rfl⟩ | ⟨rc', rfl⟩ <;> cases hrc
    exact leaving rc rfl

/-- A wake-up leaves the barrier when both are counted, and else waits on. -/
theorem wake (h : Meets s r) {n : Int} (hp : (s.thread t).point = .wait φ n) (untimed : Untimed s (.wake t)) :
    Meets (s.timedWaitReturns t φ n) r := by
  have notWait := fun ψ m => h.not_both_wait hp ψ m
  obtain ⟨hn, hhead, hcount⟩ := (h.stands t).waiting φ n hp
  rcases h.arrived_of_wait hp with ⟨hr, hc⟩ | ⟨hr, hc⟩
  · -- nobody has come: the timeout counts down
    have more : 1 < n := by
      have late := untimed
      rw [Untimed, Duplex.timesOut, hp] at late
      have := of_decide_eq_false late
      omega
    have hs : s.timedWaitReturns t φ n = s.moveTo t (.wait φ (n - 1)) := by
      rw [Duplex.timedWaitReturns, if_neg (by omega), Duplex.waitLoop, if_pos (by omega)]
    rw [hs]
    refine ⟨h.patience, fun u => ?_, fun none => absurd (by rw [Duplex.moveTo_self]) (none t φ (n - 1))⟩
    rcases t.eq_or_other u with rfl | rfl
    · rw [Duplex.moveTo_self]
      refine h.stands_inside hp (.inl ⟨_, rfl⟩) (fun m hm => ?_) (fun rc hrc => by cases hrc)
      cases hm
      exact ⟨by omega, hhead, hcount⟩
    · rw [Duplex.moveTo_other]
      exact h.stands_other notWait
  · have hs : s.timedWaitReturns t φ n =
        { s with barrier := { s.barrier with count := 0 } }.moveTo t (.leave φ 0) := by
      rw [Duplex.timedWaitReturns, if_neg (by omega), Duplex.waitLoop, if_neg (by omega)]
    rw [hs]
    refine ⟨h.patience, fun u => ?_, fun _ => rfl⟩
    rcases t.eq_or_other u with rfl | rfl
    · rw [Duplex.moveTo_self]
      refine h.stands_inside hp (.inr ⟨_, rfl⟩) (fun m hm => by cases hm) (fun rc hrc => ?_)
      cases hrc
      refine ⟨full_pair hr, ?_⟩
      rw [hr]
      simp [rcOf, u.other_ne]
    · rw [Duplex.moveTo_other]
      exact h.stands_other notWait

/-- The rounds after `t` leaves `φ`. -/
def leaveFrom (r : Phase → Round Traffic) (φ : Phase) (t : Traffic) (h : (r φ).Full) : Phase → Round Traffic :=
  Function.update r φ ((r φ).leave t h)

theorem leaveFrom_arrived (full : (r φ).Full) (ψ : Phase) :
    (leaveFrom r φ t full ψ).arrived = (r ψ).arrived := by
  by_cases hψ : ψ = φ
  · subst hψ
    rw [leaveFrom, Function.update_self, Round.leave_arrived]
  · rw [leaveFrom, Function.update_of_ne hψ]

theorem leaveFrom_told_of_ne (full : (r φ).Full) {ψ : Phase} {u : Traffic} (h : ¬ (ψ = φ ∧ u = t)) :
    (leaveFrom r φ t full ψ).told u = (r ψ).told u := by
  by_cases hψ : ψ = φ
  · subst hψ
    rw [leaveFrom, Function.update_self, Round.leave_told_of_ne _ _ fun hu => h ⟨rfl, hu⟩]
  · rw [leaveFrom, Function.update_of_ne hψ]

theorem rcOf_nonneg (last : Bool) : ¬ rcOf last < 0 := by cases last <;> decide

/-- The thread that leaves has its result, and goes to the next barrier or to the end. -/
theorem stands_leaveFrom (h : Meets s r) (full : (r φ).Full) {last : Bool}
    (hp : (s.thread t).point = .leave φ (rcOf last)) (hlast : last = decide ((r φ).arrived.getLast? = some t))
    {barrier : BarrierMutex} :
    Stands barrier (leaveFrom r φ t full) t
      { point := Duplex.next t (rcOf last) φ
        rc := Function.update (s.thread t).rc φ (some (rcOf last)) } := by
  have ord := (h.stands t).inOrder
  have arr := (h.stands t).arrived
  rw [Thread.InOrder, hp] at ord
  rw [hp] at arr
  have hnext : Duplex.next t (rcOf last) φ = match φ with | .start => .call .stop | .stop => .past := by
    cases φ with
    | start => exact if_neg (rcOf_nonneg last)
    | stop => rfl
  rw [hnext]
  refine ⟨?_, fun ψ => ?_, fun ψ => ?_, fun ψ n hn => ?_, fun ψ rc hrc => ?_⟩
  · cases φ with
    | start => exact ⟨by simp, by simpa using ord.2⟩
    | stop => exact ⟨by simpa using ord.1, by simp⟩
  · rw [leaveFrom_arrived, arr]
    cases φ <;> exact Iff.rfl
  · by_cases hψ : ψ = φ
    · subst hψ
      rw [leaveFrom, Function.update_self, Round.leave_told_self, ← hlast]
      simp
    · rw [leaveFrom_told_of_ne full fun h => hψ h.1, ← (h.stands t).returned]
      simp [hψ]
  · cases φ <;> cases hn
  · cases φ <;> cases hrc

/-- A thread returns 1 or 0 and goes on. -/
theorem leave (h : Meets s r) {rc : Int} (hp : (s.thread t).point = .leave φ rc) :
    ∃ r', Meets (s.returns t φ rc) r' := by
  obtain ⟨full, rfl⟩ := (h.stands t).leaving φ rc hp
  refine ⟨leaveFrom r φ t full, h.patience, fun u => ?_, fun none => h.idle fun u ψ n hu => ?_⟩
  · rcases t.eq_or_other u with rfl | rfl
    · rw [Duplex.returns_self]
      exact h.stands_leaveFrom full hp rfl
    · rw [Duplex.returns_other, Duplex.returns_barrier]
      have hu := h.stands t.other
      refine ⟨hu.inOrder, fun ψ => ?_, fun ψ => ?_, fun ψ n hn => ?_, fun ψ rc hrc => ?_⟩
      · rw [leaveFrom_arrived, hu.arrived]
      · rw [leaveFrom_told_of_ne full fun h => t.other_ne h.2, hu.returned]
      · rw [leaveFrom_arrived]
        exact hu.waiting ψ n hn
      · rw [Round.Full, leaveFrom_arrived]
        exact hu.leaving ψ rc hrc
  · rcases t.eq_or_other u with rfl | rfl
    · rw [hp] at hu
      cases hu
    · exact none t.other ψ n (by rw [Duplex.returns_other]; exact hu)

/-- No step without timeout breaks the rounds, unless a thread comes to the stop barrier while the other is still
waiting at the start barrier. -/
theorem step (h : Meets s r) {a : Act} {s' : Duplex} (untimed : Untimed s a) (apart : Apart s a)
    (hstep : s.step a = some s') : ∃ r', Meets s' r' := by
  unfold Duplex.step at hstep
  split at hstep
  · cases hstep
  · cases a with
    | enter t =>
      dsimp only at hstep
      split at hstep
      · rename_i hp
        cases hstep
        exact h.enter hp apart
      · cases hstep
    | wake t =>
      dsimp only at hstep
      split at hstep
      · rename_i hp
        cases hstep
        exact ⟨r, h.wake hp untimed⟩
      · cases hstep
    | leave t =>
      dsimp only at hstep
      split at hstep
      · rename_i hp
        cases hstep
        exact h.leave hp
      · cases hstep

end Meets

end Iperf2.Threads
