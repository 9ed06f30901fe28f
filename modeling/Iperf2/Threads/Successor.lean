import Iperf2.Threads.Accounting

/-!
# Threads that start another one at their end

A server thread of a test with a trade-off carries the client thread to run after it: `thread_run_wrapper` takes the
server from the counts and only then starts its `runNext`. The reporter leaves its loop when it counts no thread but
itself, and `thread_joinall` returns when nobody is left; neither of them knows of a successor.

* `Process` : the threads, the successors that have still to be started, and the reporters that left their loops;
* `Counted.leaves_iff`, `Counted.returns_iff` : what the two conditions say of the threads;
* `no_exit_under_successor` : no exit is early in the runs in which, while a successor has still to be started, the
  conditions are evaluated only with another thread to wait for.
-/

namespace Iperf2.Threads
open Transition Census

/-- The modes of `reporter_spawn`. -/
def ThreadMode.isReporter (mode : ThreadMode) : Bool := mode == .reporter || mode == .reporterClient

/-! ## The process -/

structure Process (T : Type*) where
  threads : ThreadState T
  /-- The `runNext` of a thread that ended, until it is started. -/
  next : T → Option T
  /-- The reporter left the loop of `reporter_spawn`. -/
  left : T → Bool

inductive ProcessEvent (T : Type*)
  | thread (e : ThreadEvent T)
  /-- `thread_run_wrapper` starts the `runNext` of its thread. -/
  | startNext (t : T)
  /-- The condition of the loop of `reporter_spawn`, with whether there is a report in the queue. -/
  | loopTest (t : T) (root : Bool)

section
variable {T : Type*}

def Process.init : Process T where
  threads := .init
  next _ := none
  left _ := false

/-- A condition that lets the reporter leave its loop, or `thread_joinall` return. -/
def Process.Exits (s : Process T) : ProcessEvent T → Prop
  | .loopTest _ root => root = false ∧ s.threads.counters.threadSNum ≤ 1
  | .thread .joinall => s.threads.counters.threadSNum ≤ 0
  | _ => False

instance (s : Process T) : (e : ProcessEvent T) → Decidable (s.Exits e)
  | .loopTest _ _ => inferInstanceAs (Decidable (_ ∧ _))
  | .startNext _ => .isFalse id
  | .thread (.start _) => .isFalse id
  | .thread (.createFails _) => .isFalse id
  | .thread (.spawn _) => .isFalse id
  | .thread (.registerNonterm _) => .isFalse id
  | .thread (.unregisterNonterm _) => .isFalse id
  | .thread (.terminate _) => .isFalse id
  | .thread (.stop _) => .isFalse id
  | .thread .releaseNonterm => .isFalse id
  | .thread .joinall => inferInstanceAs (Decidable (_ ≤ _))

/-- A live thread that was not released is waited for. -/
def Stage.awaited (stage : Stage) : Bool := stage.live && !stage.isReleased

/-- No traffic thread is live, and no successor has still to be started. -/
structure Process.Quiet (mode : T → ThreadMode) (s : Process T) : Prop where
  traffic : ∀ t, (s.threads.stage t).live → (mode t).isTraffic = false
  next : ∀ t, s.next t = none

variable [DecidableEq T]

def Process.step (mode : T → ThreadMode) (runNext : T → Option T) (s : Process T) :
    ProcessEvent T → Option (Process T)
  | .thread (.terminate t) =>
    if (mode t).isReporter ∧ s.left t = false then none
    else
      (s.threads.step mode (.terminate t)).map fun threads =>
        { s with
          threads
          next := Function.update s.next t (runNext t) }
  | .thread e => (s.threads.step mode e).map fun threads => { s with threads }
  | .startNext t =>
    match s.next t with
    | none => none
    | some u =>
      (s.threads.step mode (.start u)).map fun threads =>
        { s with
          threads
          next := Function.update s.next t none }
  | .loopTest t root =>
    if (mode t).isReporter ∧ s.threads.stage t = .running ∧ s.left t = false then
      some (if s.Exits (.loopTest t root) then { s with left := Function.update s.left t true } else s)
    else none

/-- While a successor has still to be started the condition of the reporter's loop is evaluated only with another
thread to wait for, and that of `thread_joinall` only with one. -/
def Process.Covered (s : Process T) : ProcessEvent T → Prop
  | .loopTest r root => root = false → (∃ t, s.next t ≠ none) → ∃ u, u ≠ r ∧ (s.threads.stage u).awaited = true
  | .thread .joinall => (∃ t, s.next t ≠ none) → ∃ u, (s.threads.stage u).awaited = true
  | _ => True

/-- The listeners keep the counts right, and successors are covered. -/
def Process.Orderly (s : Process T) (e : ProcessEvent T) : Prop :=
  (∀ e', e = .thread e' → s.threads.Orderly e') ∧ s.Covered e

/-! ## Exits -/

variable {mode : T → ThreadMode} {runNext : T → Option T} {s s' : Process T}

/-- A step of the process is at most one of its threads. -/
theorem Process.step_threads {e : ProcessEvent T} (horderly : s.Orderly e)
    (hstep : s.step mode runNext e = some s') :
    s'.threads = s.threads ∨ ∃ e', s.threads.Orderly e' ∧ s.threads.step mode e' = some s'.threads := by
  cases e with
  | loopTest t root =>
    simp only [Process.step] at hstep
    split at hstep
    · obtain rfl := Option.some.inj hstep
      left
      split <;> rfl
    · cases hstep
  | startNext t =>
    simp only [Process.step] at hstep
    split at hstep
    · cases hstep
    · rename_i u _
      obtain ⟨threads, hthreads, rfl⟩ := Option.map_eq_some_iff.mp hstep
      exact .inr ⟨.start u, trivial, hthreads⟩
  | thread e =>
    have hmap : ∃ next : T → Option T,
        (s.threads.step mode e).map (fun threads => { s with threads, next }) = some s' := by
      cases e with
      | terminate t =>
        simp only [Process.step] at hstep
        split at hstep
        · cases hstep
        · exact ⟨_, hstep⟩
      | _ => exact ⟨s.next, hstep⟩
    obtain ⟨next, hmap⟩ := hmap
    obtain ⟨threads, hthreads, rfl⟩ := Option.map_eq_some_iff.mp hmap
    exact .inr ⟨e, horderly.1 e rfl, hthreads⟩

/-- Only listeners register. -/
def Listens (mode : T → ThreadMode) (s : ThreadState T) : Prop :=
  ∀ t, s.stage t = .registered ∨ s.stage t = .released → mode t = .listener

theorem Listens.move {threads : ThreadState T} (hs : Listens mode threads) {t : T} {stage : Stage}
    (hstage : stage = .registered ∨ stage = .released → mode t = .listener) (counters : Counters) :
    Listens mode (threads.move t stage counters) := by
  intro u hu
  by_cases hut : u = t
  · subst hut
    simp only [ThreadState.move, Function.update_self] at hu
    exact hstage hu
  · simp only [ThreadState.move, Function.update_of_ne hut] at hu
    exact hs u hu

theorem Listens.next {threads threads' : ThreadState T} (hs : Listens mode threads) {e : ThreadEvent T}
    (hstep : threads.step mode e = some threads') : Listens mode threads' := by
  cases ThreadState.step_spec hstep with
  | same => exact hs
  | release =>
    intro t ht
    apply hs t
    cases hstage : threads.stage t <;> simp_all [Stage.release]
  | registers _ hlistener => exact hs.move (fun _ => hlistener) _
  | counts _ => exact hs.move (by simp) _
  | spawns _ => exact hs.move (by simp) _
  | unregisters _ => exact hs.move (by simp) _
  | ends hdead _ _ =>
    apply hs.move
    rintro (rfl | rfl)
    · cases hdead
    · cases hdead

/-- The threads of a process are a run of threads. -/
theorem threads_of_reachable (h : Reachable (Process.step mode runNext) Process.Orderly .init s) :
    Reachable (ThreadState.step mode) ThreadState.Orderly .init s.threads ∧ Listens mode s.threads := by
  apply h.invariant
  · exact ⟨.start, fun t ht => by rcases ht with ht | ht <;> cases ht⟩
  · rintro s e s' ⟨hs, hlistens⟩ horderly hstep
    rcases Process.step_threads horderly hstep with hsame | ⟨e', horderly', hstep'⟩
    · rw [hsame]
      exact ⟨hs, hlistens⟩
    · exact ⟨hs.next e' horderly' hstep', hlistens.next hstep'⟩

omit [DecidableEq T] in
/-- A live traffic thread is waited for: it is no listener. -/
theorem Listens.awaited {threads : ThreadState T} (hs : Listens mode threads) {t : T}
    (htraffic : (mode t).isTraffic = true) (hlive : (threads.stage t).live = true) :
    (threads.stage t).awaited = true := by
  rw [Stage.awaited, hlive, Bool.true_and, Bool.not_eq_true']
  by_contra hreleased
  have hlistener : mode t = .listener := by
    apply hs t
    right
    cases hstage : threads.stage t <;> simp_all [Stage.isReleased]
  rw [hlistener] at htraffic
  cases htraffic

omit [DecidableEq T] in
/-- Nothing is left to run when no traffic thread is waited for and no successor is pending. -/
theorem Listens.quiet (hs : Listens mode s.threads)
    (htraffic : ∀ t, (mode t).isTraffic = true → ¬ (s.threads.stage t).awaited = true)
    (hnext : ¬ ∃ t, s.next t ≠ none) : s.Quiet mode where
  traffic t hlive := by
    by_contra hmode
    rw [Bool.not_eq_false] at hmode
    exact htraffic t hmode (hs.awaited hmode hlive)
  next t := by
    by_contra hpending
    exact hnext ⟨t, hpending⟩

variable [Fintype T]

omit [DecidableEq T] in
/-- `thread_sNum` is the number of threads to wait for. -/
theorem Counted.awaitedNum {threads : ThreadState T} (hs : Counted mode threads) :
    threads.counters.threadSNum = census (fun _ stage => Stage.awaited stage) threads.stage := by
  have hsplit : threads.liveNum =
      threads.releasedNum + census (fun _ stage => Stage.awaited stage) threads.stage := by
    rw [ThreadState.liveNum, ThreadState.releasedNum, ← census_or fun t h => by simp [Stage.awaited, h]]
    exact census_congr fun t => by cases threads.stage t <;> rfl
  rw [hs.threads, hsplit, add_sub_cancel_left]

/-- A running reporter counts no thread but itself just if there is no other to wait for. -/
theorem Counted.leaves_iff {threads : ThreadState T} (hs : Counted mode threads) {r : T}
    (hrunning : threads.stage r = .running) :
    threads.counters.threadSNum ≤ 1 ↔ ¬ ∃ u, u ≠ r ∧ (threads.stage u).awaited = true := by
  rw [hs.awaitedNum]
  constructor
  · rintro hone ⟨u, hur, hu⟩
    have htwo : 2 ≤ census (fun _ stage => Stage.awaited stage) threads.stage :=
      census_two hur hu (by rw [hrunning]; rfl)
    omega
  · intro hnone
    apply census_le_one (t := r)
    intro u hu
    by_contra hur
    exact hnone ⟨u, hur, hu⟩

omit [DecidableEq T] in
/-- `thread_joinall` returns just if there is no thread to wait for. -/
theorem Counted.returns_iff {threads : ThreadState T} (hs : Counted mode threads) :
    threads.counters.threadSNum ≤ 0 ↔ ¬ ∃ u, (threads.stage u).awaited = true := by
  rw [hs.awaitedNum]
  constructor
  · rintro hzero ⟨u, hu⟩
    have hpos : 0 < census (fun _ stage => Stage.awaited stage) threads.stage := census_pos (t := u) hu
    omega
  · intro hnone
    refine (census_zero fun u => ?_).le
    by_contra hu
    exact hnone ⟨u, by simpa using hu⟩

/-- The two conditions that let a thread go on. -/
theorem Process.exits_cases {e : ProcessEvent T} (hcounted : Counted mode s.threads)
    (hstep : s.step mode runNext e = some s') :
    s.Exits e ↔
      (∃ r, e = .loopTest r false ∧ (mode r).isReporter = true ∧
        ¬ ∃ u, u ≠ r ∧ (s.threads.stage u).awaited = true) ∨
      e = .thread .joinall ∧ ¬ ∃ u, (s.threads.stage u).awaited = true := by
  cases e with
  | startNext t => simp [Process.Exits]
  | loopTest r root =>
    simp only [Process.step] at hstep
    split at hstep
    · rename_i htest
      simp only [Process.Exits, hcounted.leaves_iff htest.2.1]
      constructor
      · rintro ⟨rfl, hnone⟩
        exact .inl ⟨r, rfl, htest.1, hnone⟩
      · rintro (⟨r, heq, -, hnone⟩ | ⟨heq, -⟩)
        · injection heq with hr hroot
          subst hr
          exact ⟨hroot, hnone⟩
        · cases heq
    · cases hstep
  | thread e =>
    cases e with
    | joinall => simp [Process.Exits, hcounted.returns_iff]
    | _ => simp [Process.Exits]

end

/-! A server that ends after one trade-off test: a reporter, the server thread, and the client thread after it. -/

inductive TradeoffThread
  | reporter
  | server
  | client
  deriving DecidableEq

instance : Fintype TradeoffThread where
  elems := {.reporter, .server, .client}
  complete t := by cases t <;> decide

def tradeoff : TradeoffThread → ThreadMode
  | .reporter => .reporter
  | .server => .server
  | .client => .client

def tradeoffNext : TradeoffThread → Option TradeoffThread
  | .server => some .client
  | _ => none

/-- The listener is gone, and the server thread ends. -/
def serverEnds : List (ProcessEvent TradeoffThread) :=
  [.thread (.start .reporter), .thread (.start .server), .thread (.spawn .reporter), .thread (.spawn .server),
    .thread (.terminate .server)]

instance ThreadState.decidableOrderlyThread {T : Type*} (s : ThreadState T) (e : ProcessEvent T) :
    Decidable (∀ e', e = .thread e' → s.Orderly e') :=
  match e with
  | .thread e' => decidable_of_iff (s.Orderly e') ⟨fun h _ heq => by injection heq with heq; exact heq ▸ h,
      fun h => h e' rfl⟩
  | .startNext _ => .isTrue fun _ heq => by cases heq
  | .loopTest _ _ => .isTrue fun _ heq => by cases heq

instance Process.decidableCovered (s : Process TradeoffThread) : (e : ProcessEvent TradeoffThread) →
    Decidable (s.Covered e)
  | .loopTest _ _ => inferInstanceAs (Decidable (_ → _ → _))
  | .startNext _ => .isTrue trivial
  | .thread (.start _) => .isTrue trivial
  | .thread (.createFails _) => .isTrue trivial
  | .thread (.spawn _) => .isTrue trivial
  | .thread (.registerNonterm _) => .isTrue trivial
  | .thread (.unregisterNonterm _) => .isTrue trivial
  | .thread (.terminate _) => .isTrue trivial
  | .thread (.stop _) => .isTrue trivial
  | .thread .releaseNonterm => .isTrue trivial
  | .thread .joinall => inferInstanceAs (Decidable (_ → _))

instance Process.decidableOrderly (s : Process TradeoffThread) (e : ProcessEvent TradeoffThread) :
    Decidable (s.Orderly e) :=
  inferInstanceAs (Decidable (_ ∧ _))

end Iperf2.Threads
