import Iperf2.Threads.Reuse

/-!
# Release of the full-duplex report

After the stop barrier `EndJob` takes its result as a truth value: who got 1, and also who got -1, destroys the
barrier, frees the report and closes the socket of both threads; who got 0 leaves it all to the other thread.

On the client side that is right when no wait times out, the threads stay apart, and the thread with the 1 frees the
report after the other has left the barrier. On the server side the barrier was not initialised: nobody waits, both
threads get 0, and nobody frees or closes.

* `Test.step` : the steps of the two barriers, `EndJob` behind the stop barrier, and the close;
* `Releases` : the invariant of the client side;
* `fullduplex_report_release` : the client side in the runs that are `Orderly`, the server side in every run.
-/

namespace Iperf2.Threads
open Rendezvous Transition

/-! ## The end of a traffic thread -/

/-- How far a thread is after the stop barrier, with the `do_close` that `EndJob` returned. -/
inductive Exit
  | running
  | ended (doClose : Bool)
  | gone (doClose : Bool)
  deriving DecidableEq

/-- A full-duplex test on one side: how often the report was freed and the socket closed. The bytes of the barrier
stay as they are when the report is freed. -/
structure Test where
  duplex : Duplex
  exit : Traffic → Exit
  freed : Nat
  closed : Nat

inductive Event
  | barrier (a : Act)
  | endJob (t : Traffic)
  | close (t : Traffic)
  deriving DecidableEq

namespace Test

def init (inSettings : DuplexSettings) : Test where
  duplex := Duplex.init inSettings
  exit _ := .running
  freed := 0
  closed := 0

/-- `EndJob` when `fullduplex_stop_barrier` returned `rc`: `Condition_Destroy` and `FreeSumReport`, or `do_close = 0`. -/
def endJob (s : Test) (t : Traffic) (rc : Int) : Test :=
  if rc ≠ 0 then
    { s with
      exit := Function.update s.exit t (.ended true)
      freed := s.freed + 1 }
  else { s with exit := Function.update s.exit t (.ended false) }

/-- The caller of `EndJob` closes the socket if `do_close` says so. -/
def close (s : Test) (t : Traffic) (doClose : Bool) : Test :=
  { s with
    exit := Function.update s.exit t (.gone doClose)
    closed := if doClose then s.closed + 1 else s.closed }

def step (s : Test) : Event → Option Test
  | .barrier a => (s.duplex.step a).map fun duplex => { s with duplex := duplex }
  | .endJob t =>
    match (s.duplex.thread .server).point, s.exit t, (s.duplex.thread t).rc .stop with
    | .exited, _, _ => none
    | _, .running, some rc => some (s.endJob t rc)
    | _, _, _ => none
  | .close t =>
    match (s.duplex.thread .server).point, s.exit t with
    | .exited, _ => none
    | _, .ended doClose => some (s.close t doClose)
    | _, _ => none

end Test

/-- The steps of the barriers are `Guarded`, and who frees the report does so after the other thread has left the stop
barrier. -/
def Orderly (s : Test) : Event → Prop
  | .barrier a => Guarded s.duplex a
  | .endJob t => (s.duplex.thread t).rc .stop ≠ some 0 → (s.duplex.thread t.other).rc .stop ≠ none
  | .close _ => True

instance (s : Test) : (e : Event) → Decidable (Orderly s e)
  | .barrier a => inferInstanceAs (Decidable (Guarded s.duplex a))
  | .endJob _ => inferInstanceAs (Decidable (_ → _))
  | .close _ => .isTrue trivial

/-! ## Threads that are past the barriers -/

namespace Duplex

variable (s : Duplex) (t : Traffic) (φ : Phase)

theorem waitLoop_other (timeout : Int) : (s.waitLoop t φ timeout).thread t.other = s.thread t.other := by
  rw [waitLoop]
  split
  · exact moveTo_other ..
  · exact moveTo_other ..

theorem fullduplexStartstopBarrier_other :
    (s.fullduplexStartstopBarrier t φ).thread t.other = s.thread t.other := by
  rw [fullduplexStartstopBarrier]
  split
  · exact moveTo_other ..
  · exact waitLoop_other ..

theorem timedWaitReturns_other (timeout : Int) :
    (s.timedWaitReturns t φ timeout).thread t.other = s.thread t.other := by
  rw [timedWaitReturns]
  split
  · exact moveTo_other ..
  · exact waitLoop_other ..

variable {s t}

/-- A thread that is past the barriers is not touched any more. -/
theorem thread_of_past {s' : Duplex} {a : Act} (hstep : s.step a = some s') (hp : (s.thread t).point = .past) :
    s'.thread t = s.thread t := by
  unfold step at hstep
  split at hstep
  · cases hstep
  · cases a with
    | enter v =>
      rcases t.eq_or_other v with rfl | rfl
      · simp [hp] at hstep
      · dsimp only at hstep
        split at hstep
        · rename_i ψ _
          cases hstep
          have hother := s.fullduplexStartstopBarrier_other t.other ψ
          rwa [t.other_other] at hother
        · cases hstep
    | wake v =>
      rcases t.eq_or_other v with rfl | rfl
      · simp [hp] at hstep
      · dsimp only at hstep
        split at hstep
        · rename_i ψ n _
          cases hstep
          have hother := s.timedWaitReturns_other t.other ψ n
          rwa [t.other_other] at hother
        · cases hstep
    | leave v =>
      rcases t.eq_or_other v with rfl | rfl
      · simp [hp] at hstep
      · dsimp only at hstep
        split at hstep
        · rename_i ψ rc _
          cases hstep
          have hother := s.returns_other t.other ψ rc
          rwa [t.other_other] at hother
        · cases hstep

end Duplex

theorem Meets.past_of_stop {s : Duplex} {r : Phase → Round Traffic} (h : Meets s r) {t : Traffic}
    (hrc : (s.thread t).rc .stop ≠ none) : (s.thread t).point = .past := by
  have ord := (h.stands t).inOrder
  cases hp : (s.thread t).point with
  | past => rfl
  | call φ => cases φ <;> rw [Thread.InOrder, hp] at ord <;> exact absurd ord.2 hrc
  | wait φ n => cases φ <;> rw [Thread.InOrder, hp] at ord <;> exact absurd ord.2 hrc
  | leave φ rc => cases φ <;> rw [Thread.InOrder, hp] at ord <;> exact absurd ord.2 hrc
  | failed => rw [Thread.InOrder, hp] at ord; exact ord.elim
  | exited => rw [Thread.InOrder, hp] at ord; exact ord.elim

/-! ## The client side -/

namespace Exit

/-- What `EndJob` returned. -/
def doClose : Exit → Option Bool
  | .running => none
  | .ended b | .gone b => some b

/-- Whether the thread has freed the report, and whether it has closed the socket. -/
def frees : Exit → Nat
  | .running => 0
  | .ended b | .gone b => if b then 1 else 0

def closes : Exit → Nat
  | .running | .ended _ => 0
  | .gone b => if b then 1 else 0

end Exit

/-- How often the two threads have freed the report. -/
def freesOf (exit : Traffic → Exit) : Nat := (exit .client).frees + (exit .server).frees

def closesOf (exit : Traffic → Exit) : Nat := (exit .client).closes + (exit .server).closes

theorem freesOf_eq (exit : Traffic → Exit) (t : Traffic) : freesOf exit = (exit t).frees + (exit t.other).frees := by
  cases t
  · rfl
  · exact Nat.add_comm _ _

theorem closesOf_eq (exit : Traffic → Exit) (t : Traffic) :
    closesOf exit = (exit t).closes + (exit t.other).closes := by
  cases t
  · rfl
  · exact Nat.add_comm _ _

/-- The invariant of the client side. -/
structure Releases (s : Test) : Prop where
  meets : ∃ r, Meets s.duplex r
  rc : ∀ t b, (s.exit t).doClose = some b → (s.duplex.thread t).rc .stop = some (rcOf b)
  freed : s.freed = freesOf s.exit
  closed : s.closed = closesOf s.exit
  late : 0 < s.freed → ∀ t, (s.duplex.thread t).rc .stop ≠ none

namespace Releases

variable {s : Test} {t : Traffic}

theorem init {inSettings : DuplexSettings} (client : inSettings.isServerReverse = false) :
    Releases (Test.init inSettings) where
  meets := ⟨_, meets_init client⟩
  rc _ _ h := by cases h
  freed := rfl
  closed := rfl
  late h := absurd h (Nat.lt_irrefl 0)

theorem barrier (h : Releases s) {a : Act} {duplex : Duplex} (guarded : Guarded s.duplex a)
    (hstep : s.duplex.step a = some duplex) : Releases { s with duplex := duplex } := by
  obtain ⟨r, hr⟩ := h.meets
  have keeps : ∀ t, (s.duplex.thread t).rc .stop ≠ none → duplex.thread t = s.duplex.thread t := fun t hrc =>
    Duplex.thread_of_past hstep (hr.past_of_stop hrc)
  refine ⟨hr.step guarded.1 guarded.2 hstep, fun t b hb => ?_, h.freed, h.closed, fun hfreed t => ?_⟩
  · have hrc := h.rc t b hb
    show (duplex.thread t).rc .stop = _
    rw [keeps t (by rw [hrc]; exact Option.some_ne_none _), hrc]
  · have hrc := h.late hfreed t
    show (duplex.thread t).rc .stop ≠ none
    rw [keeps t hrc]
    exact hrc

/-- `EndJob` after the barrier returned what a round tells. -/
theorem endJob_rcOf (s : Test) (t : Traffic) (last : Bool) : s.endJob t (rcOf last) =
    { s with
      exit := Function.update s.exit t (.ended last)
      freed := s.freed + (Exit.ended last).frees } := by
  cases last <;> rfl

theorem endJob (h : Releases s) {rc : Int} (running : s.exit t = .running)
    (hrc : (s.duplex.thread t).rc .stop = some rc) (orderly : Orderly s (.endJob t)) :
    Releases (s.endJob t rc) := by
  obtain ⟨r, hr⟩ := h.meets
  have hreturned := (hr.stands t).returned .stop
  rw [hrc, eq_comm, Option.map_eq_some_iff] at hreturned
  obtain ⟨last, -, rfl⟩ := hreturned
  rw [endJob_rcOf]
  refine ⟨⟨r, hr⟩, fun u b hb => ?_, ?_, ?_, fun hfreed u => ?_⟩
  · by_cases hu : u = t
    · subst hu
      simp only [Function.update_self, Exit.doClose, Option.some.injEq] at hb
      subst hb
      exact hrc
    · simp only [Function.update_of_ne hu] at hb
      exact h.rc u b hb
  · have hfreed := h.freed
    rw [freesOf_eq _ t, running] at hfreed
    simp only [freesOf_eq _ t, Function.update_self, Function.update_of_ne t.other_ne]
    rw [hfreed, Exit.frees]
    omega
  · have hclosed := h.closed
    rw [closesOf_eq _ t, running] at hclosed
    simp only [closesOf_eq _ t, Function.update_self, Function.update_of_ne t.other_ne]
    exact hclosed
  · cases last with
    | false => exact h.late hfreed u
    | true =>
      have hother := orderly (by rw [hrc]; decide)
      rcases t.eq_or_other u with rfl | rfl
      · show (s.duplex.thread u).rc .stop ≠ none
        rw [hrc]
        exact Option.some_ne_none _
      · exact hother

theorem close (h : Releases s) {b : Bool} (ended : s.exit t = .ended b) : Releases (s.close t b) := by
  refine ⟨h.meets, fun u c hc => ?_, ?_, ?_, h.late⟩
  · by_cases hu : u = t
    · subst hu
      simp only [Test.close, Function.update_self] at hc
      exact h.rc u c (by rw [ended]; exact hc)
    · simp only [Test.close, Function.update_of_ne hu] at hc
      exact h.rc u c hc
  · have hfreed := h.freed
    rw [freesOf_eq _ t, ended] at hfreed
    simp only [Test.close, freesOf_eq _ t, Function.update_self, Function.update_of_ne t.other_ne]
    exact hfreed
  · have hclosed := h.closed
    rw [closesOf_eq _ t, ended] at hclosed
    simp only [Test.close, closesOf_eq _ t, Function.update_self, Function.update_of_ne t.other_ne]
    rw [hclosed]
    cases b
    · rfl
    · show (Exit.closes _ + _) + 1 = 1 + _
      rw [Exit.closes, Nat.zero_add, Nat.add_comm]

theorem step (h : Releases s) {e : Event} {s' : Test} (orderly : Orderly s e) (hstep : s.step e = some s') :
    Releases s' := by
  cases e with
  | barrier a =>
    obtain ⟨duplex, hduplex, rfl⟩ := Option.map_eq_some_iff.mp hstep
    exact h.barrier orderly hduplex
  | endJob t =>
    unfold Test.step at hstep
    dsimp only at hstep
    split at hstep
    · cases hstep
    · cases hstep
      exact h.endJob ‹_› ‹_› orderly
    · cases hstep
  | close t =>
    unfold Test.step at hstep
    dsimp only at hstep
    split at hstep
    · cases hstep
    · cases hstep
      exact h.close ‹_›
    · cases hstep

theorem not_exited (h : Releases s) : (s.duplex.thread .server).point ≠ .exited := by
  obtain ⟨r, hr⟩ := h.meets
  exact hr.not_exited

theorem step_endJob (h : Releases s) {rc : Int} (running : s.exit t = .running)
    (hrc : (s.duplex.thread t).rc .stop = some rc) : s.step (.endJob t) = some (s.endJob t rc) := by
  unfold Test.step
  dsimp only
  split
  · exact absurd ‹_› h.not_exited
  · rename_i rc' _ hrc' _
    rw [hrc, Option.some.injEq] at hrc'
    rw [hrc']
  · rename_i hno
    exact absurd hrc (hno rc running)

theorem step_close (h : Releases s) {b : Bool} (ended : s.exit t = .ended b) :
    s.step (.close t) = some (s.close t b) := by
  unfold Test.step
  dsimp only
  split
  · exact absurd ‹_› h.not_exited
  · rename_i b' hended _
    rw [ended, Exit.ended.injEq] at hended
    rw [hended]
  · rename_i hno
    exact absurd ended (hno b)

end Releases

/-! ## What is promised -/

/-- Both threads are at their end. -/
def Test.Done (s : Test) : Prop := ∀ t, ∃ b, s.exit t = .gone b

/-- The report is freed and the socket closed at most once, the report only after both threads have left the stop
barrier; and at the end both once, by the only thread to which `EndJob` returned 1. -/
structure ReleasedOnce (s : Test) : Prop where
  freed : s.freed ≤ 1
  closed : s.closed ≤ 1
  late : 0 < s.freed → ∀ t, (s.duplex.thread t).rc .stop ≠ none
  done : s.Done → s.freed = 1 ∧ s.closed = 1 ∧
    ∃ t, (s.exit t).doClose = some true ∧ (s.exit t.other).doClose = some false

namespace Exit

theorem closes_le_frees (e : Exit) : e.closes ≤ e.frees := by
  cases e with
  | running => exact Nat.le_refl 0
  | ended b => exact Nat.zero_le _
  | gone b => exact Nat.le_refl _

theorem doClose_of_frees {e : Exit} (h : e.frees ≠ 0) : e.doClose = some true ∧ e.frees = 1 := by
  cases e with
  | running => exact absurd rfl h
  | ended b =>
    cases b
    · exact absurd rfl h
    · exact ⟨rfl, rfl⟩
  | gone b =>
    cases b
    · exact absurd rfl h
    · exact ⟨rfl, rfl⟩

end Exit

namespace Releases

variable {s : Test} {t : Traffic}

/-- Only one of the threads got the 1. -/
theorem frees_other (h : Releases s) (ht : (s.exit t).frees ≠ 0) : (s.exit t.other).frees = 0 := by
  obtain ⟨r, hr⟩ := h.meets
  by_contra hu
  have hrct := h.rc t true (Exit.doClose_of_frees ht).1
  have hrcu := h.rc t.other true (Exit.doClose_of_frees hu).1
  have all : ∀ v, (s.duplex.thread v).rc .stop = some 1 := by
    intro v
    rcases t.eq_or_other v with rfl | rfl
    · exact hrct
    · exact hrcu
  obtain ⟨v, -, hv⟩ := (hr.meeting .stop).results fun v => by rw [all v]; exact Option.some_ne_none _
  rw [all] at hv
  cases hv

theorem freed_le (h : Releases s) : s.freed ≤ 1 := by
  rw [h.freed, freesOf]
  by_cases hc : (s.exit .client).frees = 0
  · by_cases hs : (s.exit .server).frees = 0
    · omega
    · have := (Exit.doClose_of_frees hs).2
      omega
  · have := (Exit.doClose_of_frees hc).2
    have hs : (s.exit .server).frees = 0 := h.frees_other hc
    omega

theorem closed_le (h : Releases s) : s.closed ≤ s.freed := by
  rw [h.closed, h.freed]
  exact Nat.add_le_add (Exit.closes_le_frees _) (Exit.closes_le_frees _)

theorem done (h : Releases s) (hdone : s.Done) : s.freed = 1 ∧ s.closed = 1 ∧
    ∃ t, (s.exit t).doClose = some true ∧ (s.exit t.other).doClose = some false := by
  obtain ⟨r, hr⟩ := h.meets
  have hrc : ∀ t, ∃ b, s.exit t = .gone b ∧ (s.duplex.thread t).rc .stop = some (rcOf b) := by
    intro t
    obtain ⟨b, hb⟩ := hdone t
    exact ⟨b, hb, h.rc t b (by rw [hb]; rfl)⟩
  obtain ⟨t, ht, hu⟩ := (hr.meeting .stop).results fun t => by
    obtain ⟨b, -, hb⟩ := hrc t
    rw [hb]
    exact Option.some_ne_none _
  obtain ⟨b, hb, hbrc⟩ := hrc t
  obtain ⟨c, hc, hcrc⟩ := hrc t.other
  rw [ht, Option.some.injEq] at hbrc
  rw [hu, Option.some.injEq] at hcrc
  have hbt : b = true := by
    cases b
    · cases hbrc
    · rfl
  have hcf : c = false := by
    cases c
    · rfl
    · cases hcrc
  subst hbt hcf
  refine ⟨?_, ?_, t, by rw [hb]; rfl, by rw [hc]; rfl⟩
  · rw [h.freed, freesOf_eq _ t, hb, hc]
    rfl
  · rw [h.closed, closesOf_eq _ t, hb, hc]
    rfl

theorem releasedOnce (h : Releases s) : ReleasedOnce s where
  freed := h.freed_le
  closed := Nat.le_trans h.closed_le h.freed_le
  late := h.late
  done := h.done

/-- An orderly run ends only when both threads are at their end. -/
theorem done_of_final (h : Releases s) (final : Final Test.step Orderly s) : s.Done := by
  obtain ⟨r, hr⟩ := h.meets
  have past : ∀ t, (s.duplex.thread t).point = .past := by
    refine fun t => hr.past (fun a duplex hstep guarded => ?_) t
    exact final (.barrier a) _ (by rw [Test.step, hstep]; rfl) guarded
  have hrc : ∀ t, (s.duplex.thread t).rc .stop ≠ none := by
    intro t
    have ord := (hr.stands t).inOrder
    rw [Thread.InOrder, past t] at ord
    exact ord.2
  intro t
  cases hexit : s.exit t with
  | running =>
    obtain ⟨rc, hrct⟩ := Option.ne_none_iff_exists'.mp (hrc t)
    exact absurd (fun _ => hrc t.other) (final _ _ (h.step_endJob hexit hrct))
  | ended b => exact absurd trivial (final _ _ (h.step_close hexit))
  | gone b => exact ⟨b, rfl⟩

end Releases

/-! ## Runs end -/

def Exit.weight : Exit → Nat
  | .running => 2
  | .ended _ => 1
  | .gone _ => 0

def Test.weight (s : Test) : Nat := s.duplex.weight + ((s.exit .client).weight + (s.exit .server).weight)

theorem Test.weight_eq (s : Test) (t : Traffic) :
    s.weight = s.duplex.weight + ((s.exit t).weight + (s.exit t.other).weight) := by
  cases t
  · rfl
  · exact congrArg (s.duplex.weight + ·) (Nat.add_comm _ _)

theorem Test.weight_step (s : Test) (e : Event) (s' : Test) (hstep : s.step e = some s') : s'.weight < s.weight := by
  cases e with
  | barrier a =>
    obtain ⟨duplex, hduplex, rfl⟩ := Option.map_eq_some_iff.mp hstep
    exact Nat.add_lt_add_right (Threads.weight_step _ _ _ hduplex) _
  | endJob t =>
    unfold Test.step at hstep
    dsimp only at hstep
    split at hstep
    · cases hstep
    · cases hstep
      rw [s.weight_eq t, ‹s.exit t = .running›, Test.endJob]
      split <;> rw [Test.weight_eq _ t] <;> simp [Exit.weight, Function.update_of_ne t.other_ne]
    · cases hstep
  | close t =>
    unfold Test.step at hstep
    dsimp only at hstep
    split at hstep
    · cases hstep
    · rename_i b hended _
      cases hstep
      rw [s.weight_eq t, hended, Test.close, Test.weight_eq _ t]
      simp [Exit.weight, Function.update_of_ne t.other_ne]
    · cases hstep

/-! ## The server side -/

/-- A thread at the barrier that was not initialised: it does not wait, and gets 0. -/
def Thread.PassesOver (thread : Thread) : Prop :=
  (thread.point = .call .stop ∧ thread.rc .stop = none) ∨ (thread.point = .leave .stop 0 ∧ thread.rc .stop = none) ∨
    (thread.point = .past ∧ thread.rc .stop = some 0)

/-- Where a thread can be after that. -/
def Exit.leavesOpen (e : Exit) : Prop := e = .running ∨ e = .ended false ∨ e = .gone false

/-- The invariant of the server side. -/
structure PassedOver (s : Test) : Prop where
  barrier : s.duplex.barrier = { count := 0, timeout := 0 }
  thread : ∀ t, (s.duplex.thread t).PassesOver
  exit : ∀ t, (s.exit t).leavesOpen
  freed : s.freed = 0
  closed : s.closed = 0

namespace PassedOver

variable {s : Test} {t : Traffic}

theorem init {inSettings : DuplexSettings} (server : inSettings.isServerReverse = true) :
    PassedOver (Test.init inSettings) where
  barrier := by simp [Test.init, Duplex.init, initSumReport, server]
  thread t := by simp [Test.init, Duplex.init, Thread.PassesOver, server]
  exit _ := .inl rfl
  freed := rfl
  closed := rfl

theorem not_exited (h : PassedOver s) : (s.duplex.thread .server).point ≠ .exited := by
  intro hp
  rcases h.thread .server with ⟨hq, -⟩ | ⟨hq, -⟩ | ⟨hq, -⟩ <;> rw [hp] at hq <;> cases hq

/-- One thread moves on, and the barrier is as it was. -/
theorem of_thread (h : PassedOver s) {duplex : Duplex} (barrier : duplex.barrier = s.duplex.barrier)
    (self : (duplex.thread t).PassesOver) (other : duplex.thread t.other = s.duplex.thread t.other) :
    PassedOver { s with duplex := duplex } := by
  refine ⟨barrier.trans h.barrier, fun u => ?_, h.exit, h.freed, h.closed⟩
  rcases t.eq_or_other u with rfl | rfl
  · exact self
  · show (duplex.thread t.other).PassesOver
    rw [other]
    exact h.thread t.other

theorem enter (h : PassedOver s) {φ : Phase} (hp : (s.duplex.thread t).point = .call φ) :
    PassedOver { s with duplex := s.duplex.fullduplexStartstopBarrier t φ } := by
  rcases h.thread t with ⟨hq, hrc⟩ | ⟨hq, -⟩ | ⟨hq, -⟩ <;> rw [hp] at hq <;> cases hq
  have hs : s.duplex.fullduplexStartstopBarrier t .stop = s.duplex.moveTo t (.leave .stop 0) := by
    have hb := h.barrier
    simp [Duplex.fullduplexStartstopBarrier, Duplex.waitLoop, hb, Duplex.moveTo]
  rw [hs]
  refine h.of_thread rfl (.inr (.inl ?_)) (Duplex.moveTo_other ..)
  rw [Duplex.moveTo_self]
  exact ⟨rfl, hrc⟩

theorem leave (h : PassedOver s) {φ : Phase} {rc : Int} (hp : (s.duplex.thread t).point = .leave φ rc) :
    PassedOver { s with duplex := s.duplex.returns t φ rc } := by
  rcases h.thread t with ⟨hq, -⟩ | ⟨hq, hrc⟩ | ⟨hq, -⟩ <;> rw [hp] at hq <;> cases hq
  refine h.of_thread rfl (.inr (.inr ?_)) (Duplex.returns_other ..)
  rw [Duplex.returns_self]
  exact ⟨rfl, by simp⟩

theorem not_waiting (h : PassedOver s) (φ : Phase) (n : Int) : (s.duplex.thread t).point ≠ .wait φ n := by
  intro hp
  rcases h.thread t with ⟨hq, -⟩ | ⟨hq, -⟩ | ⟨hq, -⟩ <;> rw [hp] at hq <;> cases hq

theorem of_exit (h : PassedOver s) {e : Exit} (he : e.leavesOpen) :
    PassedOver { s with exit := Function.update s.exit t e } := by
  refine ⟨h.barrier, h.thread, fun u => ?_, h.freed, h.closed⟩
  by_cases hu : u = t
  · subst hu
    show (Function.update s.exit u e u).leavesOpen
    rw [Function.update_self]
    exact he
  · show (Function.update s.exit t e u).leavesOpen
    rw [Function.update_of_ne hu]
    exact h.exit u

theorem barrier_step (h : PassedOver s) {a : Act} {duplex : Duplex} (hstep : s.duplex.step a = some duplex) :
    PassedOver { s with duplex := duplex } := by
  unfold Duplex.step at hstep
  split at hstep
  · cases hstep
  · cases a with
    | enter t =>
      dsimp only at hstep
      split at hstep
      · cases hstep
        exact h.enter ‹_›
      · cases hstep
    | wake t =>
      dsimp only at hstep
      split at hstep
      · exact absurd ‹_› (h.not_waiting _ _)
      · cases hstep
    | leave t =>
      dsimp only at hstep
      split at hstep
      · cases hstep
        exact h.leave ‹_›
      · cases hstep

theorem step (h : PassedOver s) {e : Event} {s' : Test} (hstep : s.step e = some s') : PassedOver s' := by
  cases e with
  | barrier a =>
    obtain ⟨duplex, hduplex, rfl⟩ := Option.map_eq_some_iff.mp hstep
    exact h.barrier_step hduplex
  | endJob t =>
    unfold Test.step at hstep
    dsimp only at hstep
    split at hstep
    · cases hstep
    · rename_i rc _ hrc _
      cases hstep
      have hzero : rc = 0 := by
        rcases h.thread t with ⟨-, hq⟩ | ⟨-, hq⟩ | ⟨-, hq⟩ <;> rw [hrc] at hq <;> cases hq
        rfl
      subst hzero
      exact h.of_exit (.inr (.inl rfl))
    · cases hstep
  | close t =>
    unfold Test.step at hstep
    dsimp only at hstep
    split at hstep
    · cases hstep
    · rename_i b hended _
      cases hstep
      have hfalse : b = false := by
        rcases h.exit t with hq | hq | hq <;> rw [hended] at hq <;> cases hq
        rfl
      subst hfalse
      exact h.of_exit (.inr (.inr rfl))
    · cases hstep

/-- A run ends when both threads are at their end; `EndJob` returned 0 to both. -/
theorem gone_of_final (h : PassedOver s) (final : Final Test.step Any s) (t : Traffic) : s.exit t = .gone false := by
  have none : ∀ e, s.step e = none := fun e =>
    Option.eq_none_iff_forall_ne_some.mpr fun s' hstep => final e s' hstep trivial
  have noAct : ∀ a, s.duplex.step a = Option.none := fun a => Option.map_eq_none_iff.mp (none (.barrier a))
  have past : (s.duplex.thread t).rc .stop = some 0 := by
    rcases h.thread t with ⟨hp, -⟩ | ⟨hp, -⟩ | ⟨-, hrc⟩
    · have henter := noAct (.enter t)
      rw [Duplex.step, if_neg h.not_exited] at henter
      simp [hp] at henter
    · have hleave := noAct (.leave t)
      rw [Duplex.step, if_neg h.not_exited] at hleave
      simp [hp] at hleave
    · exact hrc
  rcases h.exit t with hexit | hexit | hexit
  · have hend := none (.endJob t)
    unfold Test.step at hend
    dsimp only at hend
    split at hend
    · exact absurd ‹_› h.not_exited
    · cases hend
    · rename_i hno
      exact absurd past (hno 0 hexit)
  · have hclose := none (.close t)
    unfold Test.step at hclose
    dsimp only at hclose
    split at hclose
    · exact absurd ‹_› h.not_exited
    · cases hclose
    · rename_i hno
      exact absurd hexit (hno false)
  · exact hexit

end PassedOver

/-! ## Both sides -/

/-- Every run is finite. On the client side the orderly runs release the report and the socket once, and end when both
threads are at their end. On the server side no run does: none frees the report or closes the socket. -/
theorem fullduplex_report_release (inSettings : DuplexSettings) :
    (∃ bound, ∀ as s, run Test.step Any (Test.init inSettings) as = some s → as.length ≤ bound) ∧
    (inSettings.isServerReverse = false → ∀ s, Reachable Test.step Orderly (Test.init inSettings) s →
      ReleasedOnce s ∧ (Final Test.step Orderly s → s.Done)) ∧
    (inSettings.isServerReverse = true → ∀ s, Reachable Test.step Any (Test.init inSettings) s →
      s.freed = 0 ∧ s.closed = 0 ∧ (Final Test.step Any s → ∀ t, s.exit t = .gone false)) := by
  refine ⟨⟨(Test.init inSettings).weight, fun as s hrun => ?_⟩, fun client s hs => ?_, fun server s hs => ?_⟩
  · have hle := run_length_le Test.step Any Test.weight_step hrun
    omega
  · have h : Releases s :=
      hs.invariant (Releases.init client) fun s e s' hs orderly hstep => hs.step orderly hstep
    exact ⟨h.releasedOnce, h.done_of_final⟩
  · have h : PassedOver s :=
      hs.invariant (PassedOver.init server) fun s e s' hs _ hstep => hs.step hstep
    exact ⟨h.freed, h.closed, h.gone_of_final⟩

/-- A run through both barriers on the client side, up to the close. -/
def releaseRun : List Event :=
  [.barrier (.enter .client), .barrier (.enter .server), .barrier (.wake .client), .barrier (.leave .client),
    .barrier (.leave .server), .barrier (.enter .server), .barrier (.enter .client), .barrier (.leave .client),
    .barrier (.wake .server), .barrier (.leave .server), .endJob .client, .endJob .server, .close .server,
    .close .client]

theorem fullduplex_report_release_udp :
    ∃ s, run Test.step Orderly (Test.init udpTest) releaseRun = some s ∧ s.exit .client = .gone true ∧
      s.exit .server = .gone false ∧ s.freed = 1 ∧ s.closed = 1 := by
  have hrun : (run Test.step Orderly (Test.init udpTest) releaseRun).map
      (fun s => (s.exit .client, s.exit .server)) = some (.gone true, .gone false) := by
    decide
  obtain ⟨s, hs, hexit⟩ := Option.map_eq_some_iff.mp hrun
  have hclient : s.exit .client = .gone true := congrArg Prod.fst hexit
  have hserver : s.exit .server = .gone false := congrArg Prod.snd hexit
  have hrel := ((fullduplex_report_release udpTest).2.1 rfl s (.of_run _ _ .start hs)).1
  obtain ⟨hfreed, hclosed, -⟩ := hrel.done fun t => by
    cases t
    · exact ⟨true, hclient⟩
    · exact ⟨false, hserver⟩
  exact ⟨s, hs, hclient, hserver, hfreed, hclosed⟩

/-- A TCP test on the client side, whose barrier waits three times, and the same test on the server side. -/
def tcpTest (isServerReverse : Bool) : DuplexSettings where
  isServerReverse := isServerReverse
  isModeTime := true
  isUDP := false
  mAmount := 1000

/-- The client's wait at the stop barrier times out, and then the server comes: both free the report and close the
socket. On the server side both threads come to their end, and nobody does. -/
theorem fullduplex_report_release_fails :
    ((run Test.step Any (Test.init (tcpTest false))
      [.barrier (.enter .client), .barrier (.enter .server), .barrier (.wake .client), .barrier (.leave .client),
        .barrier (.leave .server), .barrier (.enter .client), .barrier (.wake .client), .barrier (.wake .client),
        .barrier (.wake .client), .barrier (.leave .client), .endJob .client, .close .client, .barrier (.enter .server),
        .barrier (.leave .server), .endJob .server, .close .server]).map
      fun s => (s.freed, s.closed, s.exit .client, s.exit .server)) = some (2, 2, .gone true, .gone true) ∧
    ((run Test.step Any (Test.init (tcpTest true))
      [.barrier (.enter .client), .barrier (.leave .client), .barrier (.enter .server), .barrier (.leave .server),
        .endJob .client, .close .client, .endJob .server, .close .server]).map
      fun s => (s.freed, s.closed, s.exit .client, s.exit .server)) = some (0, 0, .gone false, .gone false) := by
  decide

end Iperf2.Threads
