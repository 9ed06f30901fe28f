import Iperf2.Lib.Census
import Iperf2.Lib.Transition
import Mathlib.Data.Fin.VecNotation

/-!
# The thread counts

`Thread.c` counts the threads that `thread_joinall` waits for and the traffic threads among them. A listener registers
as one that does not terminate by itself; a signal releases all that are registered, so that nobody waits for them, and
a listener that ends after that puts itself back. An event is one such call, under the mutex of `thread_sNum_cond`, by
any of any number of threads.

* `ThreadState.step_spec` : what a step does, to nobody, to all listeners or to one thread;
* `Counted` : the invariant of the counters;
* `Counted.next` : every step keeps it, but for a listener that is stopped and for one that was released and ends while
  another is registered;
* `thread_accounting` : in the runs without these the counts are right, and either of them leads to wrong ones.
-/

namespace Iperf2.Threads
open Transition Census

/-! ## The counters -/

/-- `enum ThreadMode` -/
inductive ThreadMode
  | unknown
  | server
  | client
  | reporter
  | reporterClient
  | writeAckServer
  | writeAckClient
  | listener
  deriving DecidableEq

/-- `(thread->mThreadMode == kMode_Client) || (thread->mThreadMode == kMode_Server)` -/
def ThreadMode.isTraffic (mode : ThreadMode) : Bool := mode == .client || mode == .server

/-- The modes that `thread_run_wrapper` runs to their end; it fails for the others. -/
def ThreadMode.isSpawned : ThreadMode → Bool
  | .server => true
  | .client => true
  | .reporter => true
  | .reporterClient => true
  | .listener => true
  | _ => false

structure Counters where
  threadSNum : Int
  threadTrfcSNum : Int
  nonterminatingNum : Int
  deriving DecidableEq

/-- The increments of `thread_start`. -/
def Counters.increment (c : Counters) (mode : ThreadMode) : Counters :=
  { c with
    threadSNum := c.threadSNum + 1
    threadTrfcSNum := if mode.isTraffic then c.threadTrfcSNum + 1 else c.threadTrfcSNum }

/-- The decrements of `thread_run_wrapper`, of `thread_stop` and of a `thread_start` that made no thread. -/
def Counters.decrement (c : Counters) (mode : ThreadMode) : Counters :=
  { c with
    threadSNum := c.threadSNum - 1
    threadTrfcSNum := if mode.isTraffic then c.threadTrfcSNum - 1 else c.threadTrfcSNum }

/-- `thread_register_nonterm` -/
def threadRegisterNonterm (c : Counters) : Counters := { c with nonterminatingNum := c.nonterminatingNum + 1 }

/-- `thread_unregister_nonterm` -/
def threadUnregisterNonterm (c : Counters) : Counters :=
  if c.nonterminatingNum = 0 then
    -- nonterminating has been released, add back to the threads to wait on
    { c with threadSNum := c.threadSNum + 1 }
  else { c with nonterminatingNum := c.nonterminatingNum - 1 }

/-- `thread_release_nonterm` -/
def threadReleaseNonterm (c : Counters) : Counters :=
  { c with
    threadSNum := c.threadSNum - c.nonterminatingNum
    nonterminatingNum := 0 }

/-! ## Threads -/

/-- Where a thread is: a listener registers, may be released, and unregisters before it ends. -/
inductive Stage
  | idle
  /-- `thread_start` counted it and calls `pthread_create`. -/
  | counted
  | running
  | registered
  | released
  | unregistered
  | ended
  deriving DecidableEq

/-- A thread is live from its count in `thread_start` to the decrement at its end. -/
def Stage.live : Stage → Bool
  | .idle => false
  | .ended => false
  | _ => true

/-- A thread is executing its own code. -/
def Stage.runs : Stage → Bool
  | .running => true
  | .registered => true
  | .released => true
  | .unregistered => true
  | _ => false

def Stage.isReleased : Stage → Bool
  | .released => true
  | _ => false

def Stage.isRegistered : Stage → Bool
  | .registered => true
  | _ => false

/-- What a release makes of a thread. -/
def Stage.release : Stage → Stage
  | .registered => .released
  | stage => stage

structure ThreadState (T : Type*) where
  counters : Counters
  stage : T → Stage

inductive ThreadEvent (T : Type*)
  /-- `thread_start` counts a thread. -/
  | start (t : T)
  /-- `pthread_create` makes no thread. -/
  | createFails (t : T)
  /-- The new thread is in `thread_run_wrapper`. -/
  | spawn (t : T)
  | registerNonterm (t : T)
  | unregisterNonterm (t : T)
  /-- The thread is done and decrements the counts. -/
  | terminate (t : T)
  /-- `thread_stop`, of a thread that fails. -/
  | stop (t : T)
  | releaseNonterm
  /-- `thread_joinall` returns. -/
  | joinall

section
variable {T : Type*}

def ThreadState.init : ThreadState T where
  counters :=
    { threadSNum := 0
      threadTrfcSNum := 0
      nonterminatingNum := 0 }
  stage _ := .idle

variable [DecidableEq T]

/-- A thread comes to a stage, with the counters as they are then. -/
def ThreadState.move (s : ThreadState T) (t : T) (stage : Stage) (counters : Counters) : ThreadState T :=
  { counters, stage := Function.update s.stage t stage }

def ThreadState.step (mode : T → ThreadMode) (s : ThreadState T) : ThreadEvent T → Option (ThreadState T)
  | .start t =>
    match s.stage t with
    | .idle => some (s.move t .counted (s.counters.increment (mode t)))
    | .ended => none
    -- called on a running thread
    | _ => some s
  | .createFails t =>
    if s.stage t = .counted then some (s.move t .idle (s.counters.decrement (mode t))) else none
  | .spawn t => if s.stage t = .counted then some (s.move t .running s.counters) else none
  | .registerNonterm t =>
    if s.stage t = .running ∧ mode t = .listener then
      some (s.move t .registered (threadRegisterNonterm s.counters))
    else none
  | .unregisterNonterm t =>
    if s.stage t = .registered ∨ s.stage t = .released then
      some (s.move t .unregistered (threadUnregisterNonterm s.counters))
    else none
  | .terminate t =>
    if s.stage t = .unregistered ∨ s.stage t = .running ∧ mode t ≠ .listener ∧ (mode t).isSpawned then
      some (s.move t .ended (s.counters.decrement (mode t)))
    else none
  | .stop t =>
    -- a thread that was not started is not stopped
    if s.stage t = .idle then some s
    else if (s.stage t).runs then some (s.move t .ended (s.counters.decrement (mode t)))
    else none
  | .releaseNonterm =>
    some
      { counters := threadReleaseNonterm s.counters
        stage := fun t => (s.stage t).release }
  | .joinall => if s.counters.threadSNum > 0 then none else some s

/-- What a step does: nothing, a release of all registered listeners, or one thread comes to another stage. -/
inductive ThreadState.Steps (mode : T → ThreadMode) (s : ThreadState T) : ThreadEvent T → ThreadState T → Prop
  | same {e : ThreadEvent T} : s.Steps mode e s
  | release : s.Steps mode .releaseNonterm
      { counters := threadReleaseNonterm s.counters
        stage := fun t => (s.stage t).release }
  | counts {t : T} (hidle : s.stage t = .idle) :
      s.Steps mode (.start t) (s.move t .counted (s.counters.increment (mode t)))
  | spawns {t : T} (hcounted : s.stage t = .counted) : s.Steps mode (.spawn t) (s.move t .running s.counters)
  | registers {t : T} (hrunning : s.stage t = .running) (hlistener : mode t = .listener) :
      s.Steps mode (.registerNonterm t) (s.move t .registered (threadRegisterNonterm s.counters))
  | unregisters {t : T} (hlistens : s.stage t = .registered ∨ s.stage t = .released) :
      s.Steps mode (.unregisterNonterm t) (s.move t .unregistered (threadUnregisterNonterm s.counters))
  /-- Only `thread_stop` takes a listener from the counts that did not unregister. -/
  | ends {e : ThreadEvent T} {t : T} {stage : Stage} (hdead : stage.live = false) (hlive : (s.stage t).live = true)
      (hlistens : e = .stop t ∨ s.stage t ≠ .registered ∧ s.stage t ≠ .released) :
      s.Steps mode e (s.move t stage (s.counters.decrement (mode t)))

theorem ThreadState.step_spec {mode : T → ThreadMode} {s s' : ThreadState T} {e : ThreadEvent T}
    (hstep : s.step mode e = some s') : s.Steps mode e s' := by
  cases e with
  | start t =>
    simp only [ThreadState.step] at hstep
    split at hstep
    · rename_i hidle
      obtain rfl := Option.some.inj hstep
      exact .counts hidle
    · cases hstep
    · obtain rfl := Option.some.inj hstep
      exact .same
  | createFails t =>
    obtain ⟨hcounted, hsome⟩ := Option.ite_none_right_eq_some.mp hstep
    obtain rfl := Option.some.inj hsome
    exact .ends rfl (by rw [hcounted]; rfl) (.inr (by simp [hcounted]))
  | spawn t =>
    obtain ⟨hcounted, hsome⟩ := Option.ite_none_right_eq_some.mp hstep
    obtain rfl := Option.some.inj hsome
    exact .spawns hcounted
  | registerNonterm t =>
    obtain ⟨hrunning, hsome⟩ := Option.ite_none_right_eq_some.mp hstep
    obtain rfl := Option.some.inj hsome
    exact .registers hrunning.1 hrunning.2
  | unregisterNonterm t =>
    obtain ⟨hlistens, hsome⟩ := Option.ite_none_right_eq_some.mp hstep
    obtain rfl := Option.some.inj hsome
    exact .unregisters hlistens
  | terminate t =>
    obtain ⟨hends, hsome⟩ := Option.ite_none_right_eq_some.mp hstep
    obtain rfl := Option.some.inj hsome
    have hstage : s.stage t = .unregistered ∨ s.stage t = .running := hends.imp_right (·.1)
    rcases hstage with hstage | hstage <;> exact .ends rfl (by rw [hstage]; rfl) (.inr (by simp [hstage]))
  | stop t =>
    simp only [ThreadState.step] at hstep
    split at hstep
    · obtain rfl := Option.some.inj hstep
      exact .same
    · obtain ⟨hruns, hsome⟩ := Option.ite_none_right_eq_some.mp hstep
      obtain rfl := Option.some.inj hsome
      refine .ends rfl ?_ (.inl rfl)
      cases hstage : s.stage t <;> simp_all [Stage.runs, Stage.live]
  | releaseNonterm =>
    obtain rfl := Option.some.inj hstep
    exact .release
  | joinall =>
    obtain ⟨-, hsome⟩ := Option.ite_none_left_eq_some.mp hstep
    obtain rfl := Option.some.inj hsome
    exact .same

end

/-! ## The accounts -/

section
variable {T : Type*} [Fintype T]

/-- The live threads. -/
def ThreadState.liveNum (s : ThreadState T) : Int := census (fun _ stage => stage.live) s.stage

/-- The live client and server threads. -/
def ThreadState.trafficNum (mode : T → ThreadMode) (s : ThreadState T) : Int :=
  census (fun t stage => stage.live && (mode t).isTraffic) s.stage

/-- The listeners that were released and did not unregister. -/
def ThreadState.releasedNum (s : ThreadState T) : Int := census (fun _ stage => stage.isReleased) s.stage

/-- The listeners that are registered and were not released. -/
def ThreadState.registeredNum (s : ThreadState T) : Int := census (fun _ stage => stage.isRegistered) s.stage

variable [DecidableEq T]

/-- The counts are right, and `thread_joinall` returns only when all threads have ended but the released ones. -/
structure Accounted (mode : T → ThreadMode) (s : ThreadState T) : Prop where
  threads : s.counters.threadSNum = s.liveNum - s.releasedNum
  nonneg : 0 ≤ s.counters.threadSNum
  traffic : s.counters.threadTrfcSNum = s.trafficNum mode
  joined : ∀ s', s.step mode .joinall = some s' → ∀ t, (s.stage t).live → s.stage t = .released

/-- The invariant of the counters. -/
structure Counted (mode : T → ThreadMode) (s : ThreadState T) : Prop where
  threads : s.counters.threadSNum = s.liveNum - s.releasedNum
  traffic : s.counters.threadTrfcSNum = s.trafficNum mode
  nonterminating : s.counters.nonterminatingNum = s.registeredNum

/-- No listener is stopped while it is registered or released, and one that was released ends when no other is
registered. -/
def ThreadState.Orderly (s : ThreadState T) : ThreadEvent T → Prop
  | .stop t => s.stage t ≠ .registered ∧ s.stage t ≠ .released
  | .unregisterNonterm t => s.stage t = .released → s.counters.nonterminatingNum = 0
  | _ => True

variable {mode : T → ThreadMode} {s s' : ThreadState T}

omit [DecidableEq T] in
theorem Counted.init : Counted mode (ThreadState.init : ThreadState T) := by
  refine ⟨?_, (census_zero fun _ => rfl).symm, (census_zero fun _ => rfl).symm⟩
  simp only [ThreadState.liveNum, ThreadState.releasedNum]
  rw [census_zero fun _ => rfl, census_zero fun _ => rfl]
  rfl

/-- One thread comes to another stage, and the counters move with it. -/
theorem Counted.move (hs : Counted mode s) {t : T} {before stage : Stage} {counters : Counters}
    (hbefore : s.stage t = before)
    (hthreads : counters.threadSNum = s.counters.threadSNum + (if stage.live then 1 else 0) -
      (if before.live then 1 else 0) - (if stage.isReleased then 1 else 0) + (if before.isReleased then 1 else 0))
    (htraffic : counters.threadTrfcSNum = s.counters.threadTrfcSNum +
      (if stage.live && (mode t).isTraffic then 1 else 0) - (if before.live && (mode t).isTraffic then 1 else 0))
    (hnonterm : counters.nonterminatingNum = s.counters.nonterminatingNum +
      (if stage.isRegistered then 1 else 0) - (if before.isRegistered then 1 else 0)) :
    Counted mode (s.move t stage counters) := by
  have hlive := census_update (fun _ stage => Stage.live stage) s.stage t stage
  have hreleased := census_update (fun _ stage => Stage.isReleased stage) s.stage t stage
  have hregistered := census_update (fun _ stage => Stage.isRegistered stage) s.stage t stage
  have htrfc := census_update (fun t stage => Stage.live stage && (mode t).isTraffic) s.stage t stage
  have h1 := hs.threads
  have h2 := hs.traffic
  have h3 := hs.nonterminating
  simp only [ThreadState.liveNum, ThreadState.releasedNum, ThreadState.trafficNum, ThreadState.registeredNum,
    hbefore] at hlive hreleased hregistered htrfc h1 h2 h3
  refine ⟨?_, ?_, ?_⟩ <;>
    simp only [ThreadState.liveNum, ThreadState.releasedNum, ThreadState.trafficNum, ThreadState.registeredNum,
      ThreadState.move]
  · omega
  · omega
  · omega

/-- A live thread that is not a listener between its registration and its end is no longer counted. -/
theorem Counted.decrement (hs : Counted mode s) {t : T} {stage : Stage} (hdead : stage.live = false)
    (hlive : (s.stage t).live = true) (hlistens : s.stage t ≠ .registered ∧ s.stage t ≠ .released) :
    Counted mode (s.move t stage (s.counters.decrement (mode t))) := by
  have hbefore : (s.stage t).isReleased = false ∧ (s.stage t).isRegistered = false := by
    cases hstage : s.stage t <;> simp_all [Stage.isReleased, Stage.isRegistered]
  have hafter : stage.isReleased = false ∧ stage.isRegistered = false := by
    cases stage <;> simp_all [Stage.live, Stage.isReleased, Stage.isRegistered]
  apply hs.move rfl
  · rw [hdead, hlive, hbefore.1, hafter.1]
    simp [Counters.decrement]
  · rw [hdead, hlive]
    cases htraffic : (mode t).isTraffic <;> simp [Counters.decrement, htraffic]
  · rw [hbefore.2, hafter.2]
    simp [Counters.decrement]

section
variable (stage : T → Stage)
omit [DecidableEq T]

theorem release_live (p : T → Bool) :
    census (fun t stage => Stage.live stage && p t) (fun t => (stage t).release) =
      census (fun t stage => Stage.live stage && p t) stage :=
  census_congr fun t => by cases stage t <;> rfl

theorem release_isRegistered : census (fun _ stage => Stage.isRegistered stage) (fun t => (stage t).release) = 0 :=
  census_zero fun t => by cases stage t <;> rfl

theorem release_isReleased :
    census (fun _ stage => Stage.isReleased stage) (fun t => (stage t).release) =
      census (fun _ stage => Stage.isReleased stage) stage +
        census (fun _ stage => Stage.isRegistered stage) stage := by
  rw [← census_or fun t h => by cases hstage : stage t <;> simp_all [Stage.isReleased, Stage.isRegistered]]
  exact census_congr fun t => by cases stage t <;> rfl

/-- The state after a release. -/
theorem ThreadState.release_nums (s : ThreadState T) (counters : Counters) :
    let s' : ThreadState T := { counters, stage := fun t => (s.stage t).release }
    s'.liveNum = s.liveNum ∧ s'.trafficNum mode = s.trafficNum mode ∧ s'.registeredNum = 0 ∧
      s'.releasedNum = s.releasedNum + s.registeredNum := by
  refine ⟨?_, release_live s.stage _, release_isRegistered s.stage, release_isReleased s.stage⟩
  have hlive := release_live s.stage fun _ => true
  simp only [Bool.and_true] at hlive
  exact hlive

end

omit [DecidableEq T] in
/-- All registered listeners become released ones. -/
theorem Counted.release (hs : Counted mode s) :
    Counted mode
      { counters := threadReleaseNonterm s.counters
        stage := fun t => (s.stage t).release } := by
  obtain ⟨hlive, htraffic, hregistered, hreleased⟩ := s.release_nums (threadReleaseNonterm s.counters)
  refine ⟨?_, hs.traffic.trans htraffic.symm, hregistered.symm⟩
  rw [hlive, hreleased]
  have hthreads := hs.threads
  have hnonterm := hs.nonterminating
  simp only [threadReleaseNonterm]
  omega

/-- **Every step** keeps the counters right. -/
theorem Counted.next (hs : Counted mode s) {e : ThreadEvent T} (horderly : s.Orderly e)
    (hstep : s.step mode e = some s') : Counted mode s' := by
  cases ThreadState.step_spec hstep with
  | same => exact hs
  | release => exact hs.release
  | counts hidle =>
    apply hs.move hidle
    · simp [Counters.increment, Stage.live, Stage.isReleased]
    · cases htraffic : (mode _).isTraffic <;> simp [Counters.increment, Stage.live, htraffic]
    · simp [Counters.increment, Stage.isRegistered]
  | spawns hcounted => apply hs.move hcounted <;> simp [Stage.live, Stage.isReleased, Stage.isRegistered]
  | registers hrunning _ =>
    apply hs.move hrunning <;> simp [threadRegisterNonterm, Stage.live, Stage.isReleased, Stage.isRegistered]
  | unregisters hlistens =>
    rcases hlistens with hregistered | hreleased
    · -- it is one of those that are registered
      have hpos : 0 < s.registeredNum := census_pos (by rw [hregistered]; rfl)
      rw [← hs.nonterminating] at hpos
      apply hs.move hregistered <;> rw [threadUnregisterNonterm, if_neg hpos.ne'] <;>
        simp [Stage.live, Stage.isReleased, Stage.isRegistered]
    · apply hs.move hreleased <;> rw [threadUnregisterNonterm, if_pos (horderly hreleased)] <;>
        simp [Stage.live, Stage.isReleased, Stage.isRegistered]
  | ends hdead hlive hlistens =>
    apply hs.decrement hdead hlive
    rcases hlistens with rfl | hlistens
    · exact horderly
    · exact hlistens

/-- Counters that are right say when all threads have ended but the released ones. -/
theorem Counted.accounted (hs : Counted mode s) : Accounted mode s := by
  have hsub : ∀ t, (s.stage t).isReleased → (s.stage t).live := fun t h => by
    cases hstage : s.stage t <;> simp_all [Stage.live, Stage.isReleased]
  have hle : s.releasedNum ≤ s.liveNum := census_mono hsub
  refine ⟨hs.threads, ?_, hs.traffic, fun s' hstep t hlive => ?_⟩
  · rw [hs.threads]
    omega
  · have hzero : s.liveNum ≤ s.releasedNum := by
      have hthreads := hs.threads
      simp only [ThreadState.step] at hstep
      split at hstep
      · cases hstep
      · omega
    have hreleased := of_census_le hsub hzero hlive
    cases hstage : s.stage t <;> simp_all [Stage.isReleased]

theorem counted_of_reachable (h : Reachable (ThreadState.step mode) ThreadState.Orderly .init s) : Counted mode s :=
  h.invariant .init fun _ _ _ hs horderly hstep => hs.next horderly hstep

/-! ## The two exceptions -/

/-- A released listener that is stopped leaves the count one too low. -/
theorem stop_released {t : T} (hs : Counted mode s) (hreleased : s.stage t = .released)
    (hstep : s.step mode (.stop t) = some s') : ¬ Accounted mode s' := by
  simp only [ThreadState.step, hreleased, reduceCtorEq, if_false, Stage.runs, if_true, Option.some.injEq] at hstep
  subst hstep
  intro haccounted
  have hthreads := haccounted.threads
  have hlive := census_update (fun _ stage => Stage.live stage) s.stage t .ended
  have hnum := census_update (fun _ stage => Stage.isReleased stage) s.stage t .ended
  have h1 := hs.threads
  simp only [ThreadState.liveNum, ThreadState.releasedNum, ThreadState.move, Counters.decrement, hreleased, Stage.live,
    Stage.isReleased, if_true, Bool.false_eq_true, if_false] at hthreads hlive hnum h1
  omega

/-- A released listener that ends while another one is registered does not put itself back. -/
theorem unregister_registered {t : T} (hs : Counted mode s) (hreleased : s.stage t = .released)
    (hne : s.counters.nonterminatingNum ≠ 0) (hstep : s.step mode (.unregisterNonterm t) = some s') :
    ¬ Accounted mode s' := by
  simp only [ThreadState.step, hreleased, or_true, if_true, Option.some.injEq, threadUnregisterNonterm, if_neg hne]
    at hstep
  subst hstep
  intro haccounted
  have hthreads := haccounted.threads
  have hlive := census_update (fun _ stage => Stage.live stage) s.stage t .unregistered
  have hnum := census_update (fun _ stage => Stage.isReleased stage) s.stage t .unregistered
  have h1 := hs.threads
  simp only [ThreadState.liveNum, ThreadState.releasedNum, ThreadState.move, hreleased, Stage.live,
    Stage.isReleased, if_true, Bool.false_eq_true, if_false] at hthreads hlive hnum h1
  omega

/-- After a registered listener was stopped a release takes one thread too many from the count. -/
theorem stop_registered {t : T} (hs : Counted mode s) (hregistered : s.stage t = .registered)
    (hstep : s.step mode (.stop t) = some s') :
    ∃ s'', s'.step mode .releaseNonterm = some s'' ∧ ¬ Accounted mode s'' := by
  simp only [ThreadState.step, hregistered, reduceCtorEq, if_false, Stage.runs, if_true, Option.some.injEq] at hstep
  subst hstep
  refine ⟨_, rfl, fun haccounted => ?_⟩
  let s' := s.move t .ended (s.counters.decrement (mode t))
  obtain ⟨hlive, -, -, hreleased⟩ := @ThreadState.release_nums T _ mode s' (threadReleaseNonterm s'.counters)
  have hthreads := haccounted.threads
  rw [hlive, hreleased] at hthreads
  have hlive' := census_update (fun _ stage => Stage.live stage) s.stage t .ended
  have hreleased' := census_update (fun _ stage => Stage.isReleased stage) s.stage t .ended
  have hregistered' := census_update (fun _ stage => Stage.isRegistered stage) s.stage t .ended
  have h1 := hs.threads
  have h2 := hs.nonterminating
  simp only [s', ThreadState.liveNum, ThreadState.releasedNum, ThreadState.registeredNum, ThreadState.move,
    Counters.decrement, threadReleaseNonterm, hregistered, Stage.live, Stage.isReleased, Stage.isRegistered, if_true,
    Bool.false_eq_true, if_false] at hthreads hlive' hreleased' hregistered' h1 h2
  omega

variable (mode) in
/-- **Thread accounting.** In every run in which no listener is stopped between its registration and its end, and no
released one ends while another is registered, the counts are right in every state; where one step breaks this, they
are wrong then or after the next release. -/
theorem thread_accounting :
    (∀ s, Reachable (ThreadState.step mode) ThreadState.Orderly .init s → Accounted mode s) ∧
      ∀ s e s', Reachable (ThreadState.step mode) ThreadState.Orderly .init s → ¬ s.Orderly e →
        s.step mode e = some s' → ∃ s'', Reachable (ThreadState.step mode) Any s' s'' ∧ ¬ Accounted mode s'' := by
  refine ⟨fun s h => (counted_of_reachable h).accounted, fun s e s' h hnot hstep => ?_⟩
  have hs := counted_of_reachable h
  cases e with
  | stop t =>
    by_cases hreleased : s.stage t = .released
    · exact ⟨s', .start, stop_released hs hreleased hstep⟩
    · have hregistered : s.stage t = .registered := by
        by_contra hregistered
        exact hnot ⟨hregistered, hreleased⟩
      obtain ⟨s'', hrelease, hwrong⟩ := stop_registered hs hregistered hstep
      exact ⟨s'', Reachable.start.next .releaseNonterm trivial hrelease, hwrong⟩
  | unregisterNonterm t =>
    obtain ⟨hreleased, hne⟩ := Classical.not_imp.mp hnot
    exact ⟨s', .start, unregister_registered hs hreleased hne hstep⟩
  | _ => exact absurd trivial hnot

end

/-! A reporter and two listeners, on two ports. -/

def twoPorts : Fin 3 → ThreadMode := ![.reporter, .listener, .listener]

/-- All are started and the listeners registered. -/
def bothListen : List (ThreadEvent (Fin 3)) :=
  [.start 0, .start 1, .start 2, .spawn 0, .spawn 1, .spawn 2, .registerNonterm 1, .registerNonterm 2]

instance ThreadState.decidableOrderly {T : Type*} (s : ThreadState T) : (e : ThreadEvent T) → Decidable (s.Orderly e)
  | .stop _ => inferInstanceAs (Decidable (_ ∧ _))
  | .unregisterNonterm _ => inferInstanceAs (Decidable (_ → _))
  | .start _ => .isTrue trivial
  | .createFails _ => .isTrue trivial
  | .spawn _ => .isTrue trivial
  | .registerNonterm _ => .isTrue trivial
  | .terminate _ => .isTrue trivial
  | .releaseNonterm => .isTrue trivial
  | .joinall => .isTrue trivial

/-- A signal releases the listeners, which end, and the reporter after them. -/
theorem thread_accounting_signal :
    ∃ s, run (ThreadState.step twoPorts) ThreadState.Orderly .init (bothListen ++ [.releaseNonterm,
        .unregisterNonterm 1, .terminate 1, .unregisterNonterm 2, .terminate 2]) = some s ∧
      s.counters.threadSNum = 1 ∧ Accounted twoPorts s := by
  have hrun : (run (ThreadState.step twoPorts) ThreadState.Orderly .init (bothListen ++ [.releaseNonterm,
      .unregisterNonterm 1, .terminate 1, .unregisterNonterm 2, .terminate 2])).map (·.counters.threadSNum) =
      some 1 := by decide +kernel
  obtain ⟨s, hs, hnum⟩ := Option.map_eq_some_iff.mp hrun
  exact ⟨s, hs, hnum, (thread_accounting twoPorts).1 s (.of_run _ _ .start hs)⟩

/-- The second listener cannot bind its port and is stopped. After a signal `thread_joinall` returns under the
reporter. -/
theorem thread_accounting_fails :
    ∃ s, Reachable (ThreadState.step twoPorts) Any .init s ∧ s.counters.threadSNum = 0 ∧
      s.liveNum - s.releasedNum = 1 ∧ s.stage 0 = .running ∧ s.step twoPorts .joinall = some s ∧
      ¬ Accounted twoPorts s := by
  have hrun : (run (ThreadState.step twoPorts) Any .init (bothListen ++ [.stop 2, .releaseNonterm])).map
      (fun s => (s.counters.threadSNum, s.liveNum - s.releasedNum, s.stage 0)) = some (0, 1, .running) := by
    decide +kernel
  obtain ⟨s, hs, hvalues⟩ := Option.map_eq_some_iff.mp hrun
  simp only [Prod.mk.injEq] at hvalues
  obtain ⟨hnum, hlive, hstage⟩ := hvalues
  have hjoin : s.step twoPorts .joinall = some s := by
    simp only [ThreadState.step, hnum]
    rfl
  refine ⟨s, .of_run _ _ .start hs, hnum, hlive, hstage, hjoin, fun haccounted => ?_⟩
  have hthreads := haccounted.threads
  rw [hnum, hlive] at hthreads
  exact absurd hthreads (by decide)

end Iperf2.Threads
