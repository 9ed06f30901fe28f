import Iperf2.Threads.FullDuplex

/-!
# Reuse of the full-duplex barrier

Only the waiter puts the count back to 0, after it wakes, so the count can still be 2 when the other thread comes to
the next barrier. That thread makes it 3, waits with the first one, and no wait of the two sees a 2 again.

* `Point.weight` : every step makes the weight of the two threads smaller, so every run ends;
* `Meets.past` : a guarded run ends only when both threads are past both barriers;
* `fullduplex_barrier_reuse` : the two barriers, in every run whose threads stay `Apart`; and they do just if the
  first thread to come to a barrier finds the count 0;
* `overtaken_never_return` : what happens else.
-/

namespace Iperf2.Threads
open Rendezvous Transition

/-- The steps without timeout that keep the threads apart. -/
def Guarded (s : Duplex) (a : Act) : Prop := Untimed s a ∧ Apart s a

instance (s : Duplex) (a : Act) : Decidable (Guarded s a) := inferInstanceAs (Decidable (_ ∧ _))

/-! ## Runs end -/

/-- What is left to do after a barrier. -/
def Phase.rest (timeout : Nat) : Phase → Nat
  | .start => timeout + 3
  | .stop => 0

/-- What is left to do, with the timeout of the barrier. -/
def Point.weight (timeout : Nat) : Point → Nat
  | .call φ => φ.rest timeout + timeout + 3
  | .wait φ n => φ.rest timeout + n.toNat + 2
  | .leave φ _ => φ.rest timeout + 1
  | .past | .failed | .exited => 0

def Duplex.weight (s : Duplex) : Nat :=
  (s.thread .client).point.weight s.barrier.timeout.toNat + (s.thread .server).point.weight s.barrier.timeout.toNat

theorem Duplex.weight_eq (s : Duplex) (t : Traffic) :
    s.weight = (s.thread t).point.weight s.barrier.timeout.toNat +
      (s.thread t.other).point.weight s.barrier.timeout.toNat := by
  cases t
  · rfl
  · exact Nat.add_comm _ _

theorem weight_waitLoop (s : Duplex) (t : Traffic) (φ : Phase) (timeout : Int) :
    (s.waitLoop t φ timeout).weight ≤
      φ.rest s.barrier.timeout.toNat + (if timeout > 0 then timeout.toNat + 2 else 1) +
        (s.thread t.other).point.weight s.barrier.timeout.toNat := by
  rw [Duplex.weight_eq _ t, Duplex.waitLoop]
  split
  · rename_i h
    rw [if_pos h.2]
    simp [Point.weight, Nat.add_assoc]
  · have hle : 1 ≤ if timeout > 0 then timeout.toNat + 2 else 1 := by
      split <;> omega
    simp only [Duplex.moveTo_self, Duplex.moveTo_other, Duplex.moveTo_barrier, Point.weight]
    omega

theorem weight_next (t : Traffic) (rc : Int) (φ : Phase) (timeout : Nat) :
    (Duplex.next t rc φ).weight timeout ≤ φ.rest timeout := by
  cases φ with
  | start =>
    show (if rc < 0 then _ else Point.call .stop).weight timeout ≤ _
    split
    · cases t <;> exact Nat.zero_le _
    · simp [Point.weight, Phase.rest]
  | stop => exact Nat.le_refl _

/-- Every step leaves less to do. -/
theorem weight_step (s : Duplex) (a : Act) (s' : Duplex) (hstep : s.step a = some s') : s'.weight < s.weight := by
  unfold Duplex.step at hstep
  split at hstep
  · cases hstep
  · cases a with
    | enter t =>
      dsimp only at hstep
      split at hstep
      · rename_i φ hp
        cases hstep
        rw [s.weight_eq t, hp, Duplex.fullduplexStartstopBarrier]
        split
        · rw [Duplex.weight_eq _ t]
          simp only [Duplex.moveTo_self, Duplex.moveTo_other, Duplex.moveTo_barrier, Point.weight]
          omega
        · refine Nat.lt_of_le_of_lt (weight_waitLoop _ t φ s.barrier.timeout) ?_
          rw [Point.weight]
          dsimp only
          split <;> omega
      · cases hstep
    | wake t =>
      dsimp only at hstep
      split at hstep
      · rename_i φ n hp
        cases hstep
        rw [s.weight_eq t, hp, Duplex.timedWaitReturns]
        split
        · rw [Duplex.weight_eq _ t]
          simp only [Duplex.moveTo_self, Duplex.moveTo_other, Duplex.moveTo_barrier, Point.weight]
          omega
        · have hle := weight_waitLoop s t φ (n - 1)
          rw [Point.weight]
          split at hle <;> omega
      · cases hstep
    | leave t =>
      dsimp only at hstep
      split at hstep
      · rename_i φ rc hp
        cases hstep
        rw [s.weight_eq t, hp, Duplex.weight_eq _ t, Duplex.returns_self, Duplex.returns_other, Duplex.returns_barrier]
        have hle := weight_next t rc φ s.barrier.timeout.toNat
        rw [Point.weight]
        dsimp only
        omega
      · cases hstep

/-! ## Where they end -/

namespace Meets

variable {s : Duplex} {r : Phase → Round Traffic} {t : Traffic}

theorem not_exited (h : Meets s r) : (s.thread .server).point ≠ .exited := by
  intro hp
  have ord := (h.stands .server).inOrder
  rw [Thread.InOrder, hp] at ord
  exact ord

theorem step_enter (h : Meets s r) {φ : Phase} (hp : (s.thread t).point = .call φ) :
    s.step (.enter t) = some (s.fullduplexStartstopBarrier t φ) := by
  rw [Duplex.step, if_neg h.not_exited]
  simp only [hp]

theorem step_wake (h : Meets s r) {φ : Phase} {n : Int} (hp : (s.thread t).point = .wait φ n) :
    s.step (.wake t) = some (s.timedWaitReturns t φ n) := by
  rw [Duplex.step, if_neg h.not_exited]
  simp only [hp]

theorem step_leave (h : Meets s r) {φ : Phase} {rc : Int} (hp : (s.thread t).point = .leave φ rc) :
    s.step (.leave t) = some (s.returns t φ rc) := by
  rw [Duplex.step, if_neg h.not_exited]
  simp only [hp]

/-- A thread can come to its barrier when the other one is not waiting at an earlier one. -/
theorem not_final_of_call (h : Meets s r) {φ : Phase} (hp : (s.thread t).point = .call φ)
    (apart : Apart s (.enter t)) : ¬ Final Duplex.step Guarded s := fun final =>
  final _ _ (h.step_enter hp) ⟨trivial, apart⟩

/-- A thread that waits can wake, or the other one can come. -/
theorem not_final_of_wait (h : Meets s r) {φ : Phase} {n : Int} (hp : (s.thread t).point = .wait φ n) :
    ¬ Final Duplex.step Guarded s := by
  intro final
  have late : s.timesOut t = true := by
    by_contra hlate
    exact final _ _ (h.step_wake hp) ⟨Bool.eq_false_iff.mpr hlate, trivial⟩
  rw [Duplex.timesOut, hp] at late
  have hcount := (of_decide_eq_true late).2
  have hr : (r φ).arrived = [t] := by
    rcases h.arrived_of_wait hp with ⟨hr, -⟩ | ⟨-, hc⟩
    · exact hr
    · exact absurd hc hcount
  have away : (s.thread t.other).point.arrived φ = false := by
    rw [Bool.eq_false_iff]
    intro hmem
    rw [← (h.stands t.other).arrived, hr, List.mem_singleton] at hmem
    exact t.other_ne hmem
  cases hu : (s.thread t.other).point with
  | call ψ =>
    refine h.not_final_of_call hu (fun hstop => ?_) final
    rw [hu] at hstop
    cases hstop
    rw [hu] at away
    cases φ with
    | start => cases away
    | stop =>
      rw [t.other_other, Duplex.lingers, hp]
  | wait ψ m => exact h.not_both_wait hp ψ m hu
  | leave ψ rc => exact final _ _ (h.step_leave hu) ⟨trivial, trivial⟩
  | past =>
    rw [hu] at away
    cases away
  | failed =>
    have ord := (h.stands t.other).inOrder
    rw [Thread.InOrder, hu] at ord
    exact ord
  | exited =>
    have ord := (h.stands t.other).inOrder
    rw [Thread.InOrder, hu] at ord
    exact ord

/-- A run ends only when both threads are past both barriers. -/
theorem past (h : Meets s r) (final : Final Duplex.step Guarded s) (t : Traffic) : (s.thread t).point = .past := by
  have ord := (h.stands t).inOrder
  cases hp : (s.thread t).point with
  | call φ =>
    refine absurd final (h.not_final_of_call hp fun _ => ?_)
    rw [Duplex.lingers]
    split
    · rename_i n hu
      exact absurd final (h.not_final_of_wait hu)
    · rfl
  | wait φ n => exact absurd final (h.not_final_of_wait hp)
  | leave φ rc => exact absurd ⟨trivial, trivial⟩ (final _ _ (h.step_leave hp))
  | past => rfl
  | failed =>
    rw [Thread.InOrder, hp] at ord
    exact ord.elim
  | exited =>
    rw [Thread.InOrder, hp] at ord
    exact ord.elim

/-- The first thread to come to a barrier finds the count 0 just if it does not overtake the other. -/
theorem count_of_first (h : Meets s r) {φ : Phase} (hp : (s.thread t).point = .call φ)
    (first : (s.thread t.other).point.arrived φ = false) : s.barrier.count = 0 ↔ Apart s (.enter t) := by
  constructor
  · intro hc _
    rw [Duplex.lingers]
    split
    · rename_i n hu
      rcases h.arrived_of_wait hu with ⟨-, hc'⟩ | ⟨-, hc'⟩ <;> omega
    · rfl
  · intro apart
    rcases h.call_cases hp apart with ⟨-, hc, -⟩ | ⟨-, -, m, hm⟩
    · exact hc
    · rw [hm] at first
      cases φ <;> cases first

end Meets

theorem meets_init {inSettings : DuplexSettings} (client : inSettings.isServerReverse = false) :
    Meets (Duplex.init inSettings) fun _ => Round.new := by
  have patience := initSumReport_timeout client
  rw [MINBARRIERTIMEOUT] at patience
  have hcall : ∀ t, (Duplex.init inSettings).thread t = { point := .call .start, rc := fun _ => none } := by
    intro t
    simp [Duplex.init, client]
  refine ⟨?_, fun t => ?_, fun _ => ?_⟩
  · show 0 < (initSumReport inSettings).timeout
    omega
  · rw [hcall]
    exact {
      inOrder := ⟨rfl, rfl⟩
      arrived := fun φ => by simp [Point.arrived]
      returned := fun _ => rfl
      waiting := fun _ _ h => by cases h
      leaving := fun _ _ h => by cases h }
  · simp [Duplex.init, initSumReport, client]

/-- Every state of a guarded run is that of two rounds. -/
theorem meets_of_reachable {inSettings : DuplexSettings} (client : inSettings.isServerReverse = false) {s : Duplex}
    (h : Reachable Duplex.step Guarded (Duplex.init inSettings) s) : ∃ r, Meets s r := by
  refine h.invariant (I := fun s => ∃ r, Meets s r) ⟨_, meets_init client⟩ fun s a s' hs hguard hstep => ?_
  obtain ⟨r, hr⟩ := hs
  exact hr.step hguard.1 hguard.2 hstep

/-! ## The thread that comes too early -/

/-- `t` waits at the stop barrier while the other thread is still waiting at the start barrier. -/
structure Overtaken (s : Duplex) (t : Traffic) : Prop where
  count : s.barrier.count = 3
  early : ∃ n, 0 < n ∧ (s.thread t).point = .wait .stop n
  late : ∃ n, 0 < n ∧ (s.thread t.other).point = .wait .start n
  noStop : (s.thread t).rc .stop = none
  noStart : (s.thread t.other).rc .start = none

/-- A thread that is not `Apart` from the other makes the count 3. -/
theorem Meets.overtaken {s s' : Duplex} {r : Phase → Round Traffic} (h : Meets s r) {t : Traffic}
    (close : ¬ Apart s (.enter t)) (hstep : s.step (.enter t) = some s') : Overtaken s' t := by
  have hp : (s.thread t).point = .call .stop := by
    by_contra hp
    exact close fun hstop => absurd hstop hp
  have hu : ∃ n, (s.thread t.other).point = .wait .start n := by
    by_contra hu
    refine close fun _ => ?_
    rw [Duplex.lingers]
    split
    · rename_i n hn
      exact absurd ⟨n, hn⟩ hu
    · rfl
  obtain ⟨n, hn⟩ := hu
  have ord := (h.stands t).inOrder
  have ordu := (h.stands t.other).inOrder
  rw [Thread.InOrder, hp] at ord
  rw [Thread.InOrder, hn] at ordu
  have hcount : s.barrier.count = 2 := by
    rcases h.arrived_of_wait hn with ⟨hr, -⟩ | ⟨-, hc⟩
    · have hmem := (r .start).full t (h.told_of_rc ord.1) t
      rw [hr, List.mem_singleton] at hmem
      exact absurd hmem.symm t.other_ne
    · exact hc
  have hs : s.fullduplexStartstopBarrier t .stop =
      { s with barrier := { s.barrier with count := 3 } }.moveTo t (.wait .stop s.barrier.timeout) := by
    simp [Duplex.fullduplexStartstopBarrier, Duplex.waitLoop, hcount, h.patience]
  rw [h.step_enter hp, hs, Option.some.injEq] at hstep
  subst hstep
  refine ⟨rfl, ⟨s.barrier.timeout, h.patience, ?_⟩, ⟨n, ((h.stands _).waiting _ _ hn).1, ?_⟩, ?_, ?_⟩
  · rw [Duplex.moveTo_self]
  · rw [Duplex.moveTo_other]
    exact hn
  · rw [Duplex.moveTo_self]
    exact ord.2
  · rw [Duplex.moveTo_other]
    exact ordu.1

/-- A wait that sees 3 goes on until it times out. -/
theorem timedWaitReturns_three {s : Duplex} {t : Traffic} {φ : Phase} {n : Int} (hcount : s.barrier.count = 3)
    (hp : (s.thread t).point = .wait φ n) (hn : 0 < n) (untimed : Untimed s (.wake t)) :
    0 < n - 1 ∧ s.timedWaitReturns t φ n = s.moveTo t (.wait φ (n - 1)) := by
  have late := untimed
  rw [Untimed, Duplex.timesOut, hp] at late
  have more := of_decide_eq_false late
  refine ⟨by omega, ?_⟩
  rw [Duplex.timedWaitReturns, if_neg (by omega), Duplex.waitLoop, if_pos (by omega)]

theorem Overtaken.step {s s' : Duplex} {t : Traffic} (h : Overtaken s t) {a : Act} (untimed : Untimed s a)
    (hstep : s.step a = some s') : Overtaken s' t := by
  obtain ⟨n, hn, hp⟩ := h.early
  obtain ⟨m, hm, hu⟩ := h.late
  unfold Duplex.step at hstep
  split at hstep
  · cases hstep
  · cases a with
    | enter v =>
      rcases t.eq_or_other v with rfl | rfl
      · simp [hp] at hstep
      · simp [hu] at hstep
    | wake v =>
      rcases t.eq_or_other v with rfl | rfl
      · obtain ⟨hn', hs⟩ := timedWaitReturns_three h.count hp hn untimed
        simp only [hp, hs, Option.some.injEq] at hstep
        subst hstep
        refine ⟨h.count, ⟨n - 1, hn', ?_⟩, ⟨m, hm, ?_⟩, ?_, ?_⟩
        · rw [Duplex.moveTo_self]
        · rw [Duplex.moveTo_other]
          exact hu
        · rw [Duplex.moveTo_self]
          exact h.noStop
        · rw [Duplex.moveTo_other]
          exact h.noStart
      · obtain ⟨hm', hs⟩ := timedWaitReturns_three h.count hu hm untimed
        simp only [hu, hs, Option.some.injEq] at hstep
        subst hstep
        have hother := Duplex.moveTo_other s t.other (.wait .start (m - 1))
        rw [t.other_other] at hother
        refine ⟨h.count, ⟨n, hn, ?_⟩, ⟨m - 1, hm', ?_⟩, ?_, ?_⟩
        · rw [hother]
          exact hp
        · rw [Duplex.moveTo_self]
        · rw [hother]
          exact h.noStop
        · rw [Duplex.moveTo_self]
          exact h.noStart
    | leave v =>
      rcases t.eq_or_other v with rfl | rfl
      · simp [hp] at hstep
      · simp [hu] at hstep

/-- From there on, no thread returns from its wait without a timeout. -/
theorem overtaken_never_return {s s' : Duplex} {t : Traffic} (h : Overtaken s t)
    (hs' : Reachable Duplex.step Untimed s s') : Overtaken s' t :=
  hs'.invariant (I := (Overtaken · t)) h fun _ _ _ hs untimed hstep => hs.step untimed hstep

/-! ## The two barriers -/

/-- What the two callers of one barrier are promised: none returns before both are counted, 1 or 0 is returned, and
not the same to both. -/
structure Meeting (s : Duplex) (φ : Phase) : Prop where
  together : ∀ t, (s.thread t).rc φ ≠ none → ∀ u, (s.thread u).point.arrived φ = true
  result : ∀ t rc, (s.thread t).rc φ = some rc → rc = 1 ∨ rc = 0
  results : (∀ t, (s.thread t).rc φ ≠ none) →
    ∃ t, (s.thread t).rc φ = some 1 ∧ (s.thread t.other).rc φ = some 0

theorem Meets.meeting {s : Duplex} {r : Phase → Round Traffic} (h : Meets s r) (φ : Phase) : Meeting s φ where
  together t ht u := ((h.stands u).arrived φ).mp ((r φ).full t (h.told_of_rc ht) u)
  result t rc hrc := by
    rw [(h.stands t).returned, Option.map_eq_some_iff] at hrc
    obtain ⟨last, -, rfl⟩ := hrc
    cases last
    · exact .inr rfl
    · exact .inl rfl
  results all := by
    have told := fun t => h.told_of_rc (all t)
    have hrc := fun t => (h.stands t).returned φ
    rcases Round.told_pair (q := Traffic.server) (Traffic.eq_or_other .client) (by decide) (told _) (told _) with
      ⟨hc, hs⟩ | ⟨hc, hs⟩
    · refine ⟨.client, by rw [hrc, hc]; rfl, ?_⟩
      show (s.thread .server).rc φ = some 0
      rw [hrc, hs]
      rfl
    · refine ⟨.server, by rw [hrc, hs]; rfl, ?_⟩
      show (s.thread .client).rc φ = some 0
      rw [hrc, hc]
      rfl

/-- Start and stop barrier of a test on the client side, for the runs without timeout whose threads stay `Apart`:
every such run is finite, keeps the promise of both barriers, and ends when both threads returned from both. The
count is 0 when a barrier counts its first thread just if that thread is `Apart`. -/
theorem fullduplex_barrier_reuse (inSettings : DuplexSettings) (client : inSettings.isServerReverse = false) :
    (∃ bound, ∀ as s, run Duplex.step Guarded (Duplex.init inSettings) as = some s → as.length ≤ bound) ∧
    ∀ s, Reachable Duplex.step Guarded (Duplex.init inSettings) s →
      (∀ φ, Meeting s φ) ∧
      (∀ t φ, (s.thread t).point = .call φ → (s.thread t.other).point.arrived φ = false →
        (s.barrier.count = 0 ↔ Apart s (.enter t))) ∧
      (Final Duplex.step Guarded s → ∀ t φ, (s.thread t).rc φ ≠ none) := by
  refine ⟨⟨(Duplex.init inSettings).weight, fun as s hrun => ?_⟩, fun s hs => ?_⟩
  · have hle := run_length_le Duplex.step Guarded weight_step hrun
    omega
  · obtain ⟨r, hr⟩ := meets_of_reachable client hs
    refine ⟨hr.meeting, fun t φ hp first => hr.count_of_first hp first, fun final t φ => ?_⟩
    have ord := (hr.stands t).inOrder
    rw [Thread.InOrder, hr.past final t] at ord
    cases φ with
    | start => exact ord.1
    | stop => exact ord.2

/-- A UDP test of ten seconds. -/
def udpTest : DuplexSettings where
  isServerReverse := false
  isModeTime := true
  isUDP := true
  mAmount := 1000

theorem fullduplex_barrier_reuse_udp :
    ∃ s, run Duplex.step Guarded (Duplex.init udpTest)
        [.enter .client, .wake .client, .enter .server, .leave .server, .wake .client, .enter .server, .leave .client,
          .enter .client, .wake .server, .leave .server, .leave .client] = some s ∧
      (∀ φ, Meeting s φ) ∧ (s.thread .server).rc .start = some 1 ∧ (s.thread .client).rc .stop = some 1 := by
  have hrun : (run Duplex.step Guarded (Duplex.init udpTest)
        [.enter .client, .wake .client, .enter .server, .leave .server, .wake .client, .enter .server, .leave .client,
          .enter .client, .wake .server, .leave .server, .leave .client]).map
      (fun s => ((s.thread .server).rc .start, (s.thread .client).rc .stop)) = some (some 1, some 1) := by
    decide
  obtain ⟨s, hs, hrc⟩ := Option.map_eq_some_iff.mp hrun
  have hmeet := ((fullduplex_barrier_reuse udpTest rfl).2 s (.of_run _ _ .start hs)).1
  exact ⟨s, hs, hmeet, congrArg Prod.fst hrc, congrArg Prod.snd hrc⟩

/-- The server returns from the start barrier, runs and comes to the stop barrier before the client woke: no run
without timeout goes on from there to a return of one of them. -/
theorem fullduplex_barrier_reuse_fails :
    ∃ s, run Duplex.step Untimed (Duplex.init udpTest)
        [.enter .client, .enter .server, .leave .server, .enter .server] = some s ∧ s.barrier.count = 3 ∧
      ∀ s', Reachable Duplex.step Untimed s s' →
        (s'.thread .client).rc .start = none ∧ (s'.thread .server).rc .stop = none := by
  have hrun : (run Duplex.step Untimed (Duplex.init udpTest)
        [.enter .client, .enter .server, .leave .server, .enter .server]).map
      (fun s => (s.barrier.count, s.thread .client, s.thread .server)) =
      some (3, ⟨.wait .start 11, fun _ => none⟩, ⟨.wait .stop 11, Function.update (fun _ => none) .start (some 1)⟩) := by
    rfl
  obtain ⟨s, hs, hst⟩ := Option.map_eq_some_iff.mp hrun
  have hcount := congrArg Prod.fst hst
  have hclient := congrArg (Prod.fst ∘ Prod.snd) hst
  have hserver := congrArg (Prod.snd ∘ Prod.snd) hst
  dsimp only [Function.comp] at hcount hclient hserver
  have hover : Overtaken s .server := {
    count := hcount
    early := ⟨11, by decide, by rw [hserver]⟩
    late := ⟨11, by decide, by rw [Traffic.other, hclient]⟩
    noStop := by rw [hserver]; rfl
    noStart := by rw [Traffic.other, hclient] }
  refine ⟨s, hs, hcount, fun s' hs' => ?_⟩
  have hover' := overtaken_never_return hover hs'
  exact ⟨hover'.noStart, hover'.noStop⟩

end Iperf2.Threads
