import Iperf2.Lib.Transition
import Mathlib.Algebra.BigOperators.Group.Finset.Piecewise
import Mathlib.Tactic.Abel

/-!
# Members that report to a pool

Every member of a group counts items and now and then reports what it counted `since` its last report to a pool that
the group shares. The pool is also adjusted on its own. After its final report a member does nothing.

* `Conserves` : what one operation does to a count of the members and of the pool;
* `Conserves.kept` : in every state reached the pool has what the members had counted at their last reports, which
  for a member that is done is all it counted;
* `Moves` : what one member and the pool come to in several operations; `Moves.reachable`, `Moves.final`.
-/

namespace Pool
open Transition

variable {ι S E P F A : Type*}

/-- The operations of members with states `S` and a pool `P`. -/
structure System (ι S E P F : Type*) where
  item : ι → S → E → S
  report : ι → Bool → S → P → S × P
  adjust : P → F → P

/-- The members, as they are and as they were at their last reports. -/
structure State (ι S P : Type*) where
  member : ι → S
  reported : ι → S
  done : ι → Bool
  pool : P

inductive Event (ι E F : Type*)
  | item (i : ι) (e : E)
  | report (i : ι) (final : Bool)
  | adjust (f : F)

/-- Nothing was counted yet. -/
def State.start (member : ι → S) (pool : P) : State ι S P where
  member
  reported := member
  done := fun _ => false
  pool

section
variable [DecidableEq ι]

def System.step (sys : System ι S E P F) (s : State ι S P) : Event ι E F → Option (State ι S P)
  | .item i e =>
    if s.done i then none
    else some { s with member := Function.update s.member i (sys.item i (s.member i) e) }
  | .report i final =>
    if s.done i then none
    else
      let (member, pool) := sys.report i final (s.member i) s.pool
      some
        { member := Function.update s.member i member
          reported := Function.update s.reported i (s.member i)
          done := Function.update s.done i final
          pool }
  | .adjust f => some { s with pool := sys.adjust s.pool f }

end

/-- A count has a total of each member, what the member counted since its last report, and a total of the pool. -/
structure Conserves [AddCommGroup A] (sys : System ι S E P F) (I : ι → S → Prop) (total since : ι → S → A)
    (pooled : P → A) : Prop where
  inv_item : ∀ i s e, I i s → I i (sys.item i s e)
  inv_report : ∀ i final s p, I i s → I i (sys.report i final s p).1
  item : ∀ i s e, I i s → total i (sys.item i s e) - since i (sys.item i s e) = total i s - since i s
  report : ∀ i final s p, I i s →
    total i (sys.report i final s p).1 = total i s ∧ pooled (sys.report i final s p).2 = pooled p + since i s
  restart : ∀ i s p, I i s → since i (sys.report i false s p).1 = 0
  adjust : ∀ p f, pooled (sys.adjust p f) = pooled p

/-- The invariant: the pool has what was reported, and a member that is done reported all. -/
structure Kept [AddCommGroup A] [Fintype ι] (I : ι → S → Prop) (total since : ι → S → A) (pooled : P → A)
    (s : State ι S P) : Prop where
  inv : ∀ i, I i (s.member i)
  running : ∀ i, s.done i = false → total i (s.reported i) = total i (s.member i) - since i (s.member i)
  done : ∀ i, s.done i = true → total i (s.reported i) = total i (s.member i)
  pool : pooled s.pool = ∑ i, total i (s.reported i)

section
variable [AddCommGroup A] [Fintype ι] {I : ι → S → Prop} {total since : ι → S → A} {pooled : P → A}
  {s s' : State ι S P}

theorem Kept.start {member : ι → S} {pool : P} (hI : ∀ i, I i (member i)) (hsince : ∀ i, since i (member i) = 0)
    (hpool : pooled pool = ∑ i, total i (member i)) : Kept I total since pooled (State.start member pool) where
  inv := hI
  running i _ := by simp only [State.start, hsince, sub_zero]
  done i hdone := by cases hdone
  pool := hpool

/-- When all members are done the pool has their totals. -/
theorem Kept.all_done (hs : Kept I total since pooled s) (hdone : ∀ i, s.done i = true) :
    pooled s.pool = ∑ i, total i (s.member i) := by
  rw [hs.pool]
  exact Finset.sum_congr rfl fun i _ => hs.done i (hdone i)

variable [DecidableEq ι] {sys : System ι S E P F}

/-- One member's value changes, and the sum with it. -/
theorem sum_update (f : ι → S → A) (g : ι → S) (i : ι) (x : S) :
    ∑ j, f j (Function.update g i x j) = ∑ j, f j (g j) + (f i x - f i (g i)) := by
  have hupdate : (fun j => f j (Function.update g i x j)) = Function.update (fun j => f j (g j)) i (f i x) := by
    funext j
    by_cases hj : j = i
    · subst hj
      simp only [Function.update_self]
    · simp only [Function.update_of_ne hj]
  rw [hupdate, Finset.sum_update_of_mem (Finset.mem_univ i), ← Finset.add_sum_erase _ _ (Finset.mem_univ i),
    Finset.sdiff_singleton_eq_erase]
  abel

theorem Kept.item (h : Conserves sys I total since pooled) (hs : Kept I total since pooled s) (i : ι) (e : E)
    (hdone : s.done i = false) :
    Kept I total since pooled { s with member := Function.update s.member i (sys.item i (s.member i) e) } := by
  refine ⟨fun j => ?_, fun j hjd => ?_, fun j hjd => ?_, hs.pool⟩
  · by_cases hj : j = i
    · subst hj
      simp only [Function.update_self]
      exact h.inv_item j _ e (hs.inv j)
    · simp only [Function.update_of_ne hj]
      exact hs.inv j
  · by_cases hj : j = i
    · subst hj
      simp only [Function.update_self]
      rw [h.item j _ e (hs.inv j)]
      exact hs.running j hjd
    · simp only [Function.update_of_ne hj]
      exact hs.running j hjd
  · have hj : j ≠ i := by
      rintro rfl
      exact absurd hjd (by simp [hdone])
    simp only [Function.update_of_ne hj]
    exact hs.done j hjd

theorem Kept.report (h : Conserves sys I total since pooled) (hs : Kept I total since pooled s) (i : ι)
    (final : Bool) (hdone : s.done i = false) :
    Kept I total since pooled
      { member := Function.update s.member i (sys.report i final (s.member i) s.pool).1
        reported := Function.update s.reported i (s.member i)
        done := Function.update s.done i final
        pool := (sys.report i final (s.member i) s.pool).2 } := by
  obtain ⟨htotal, hpool⟩ := h.report i final (s.member i) s.pool (hs.inv i)
  refine ⟨fun j => ?_, fun j hjd => ?_, fun j hjd => ?_, ?_⟩
  · by_cases hj : j = i
    · subst hj
      simp only [Function.update_self]
      exact h.inv_report j final _ _ (hs.inv j)
    · simp only [Function.update_of_ne hj]
      exact hs.inv j
  · by_cases hj : j = i
    · subst hj
      simp only [Function.update_self] at hjd ⊢
      subst hjd
      rw [htotal, h.restart j _ _ (hs.inv j), sub_zero]
    · simp only [Function.update_of_ne hj] at hjd ⊢
      exact hs.running j hjd
  · by_cases hj : j = i
    · subst hj
      simp only [Function.update_self]
      exact htotal.symm
    · simp only [Function.update_of_ne hj] at hjd ⊢
      exact hs.done j hjd
  · simp only
    rw [sum_update, hpool, hs.pool, hs.running i hdone, sub_sub_cancel]

theorem Kept.step (h : Conserves sys I total since pooled) (hs : Kept I total since pooled s) {a : Event ι E F}
    (hstep : sys.step s a = some s') : Kept I total since pooled s' := by
  cases a with
  | item i e =>
    simp only [System.step] at hstep
    split at hstep
    · cases hstep
    · obtain rfl := Option.some.inj hstep
      exact hs.item h i e (by simpa using ‹¬ s.done i›)
  | report i final =>
    simp only [System.step] at hstep
    split at hstep
    · cases hstep
    · obtain rfl := Option.some.inj hstep
      exact hs.report h i final (by simpa using ‹¬ s.done i›)
  | adjust f =>
    obtain rfl := Option.some.inj hstep
    exact ⟨hs.inv, hs.running, hs.done, (h.adjust s.pool f).trans hs.pool⟩

/-- In every state reached the pool has what was reported. -/
theorem Conserves.kept (h : Conserves sys I total since pooled) {s₀ : State ι S P}
    (hs₀ : Kept I total since pooled s₀) (hs : Reachable sys.step Any s₀ s) : Kept I total since pooled s :=
  hs.invariant hs₀ fun _ _ _ hs _ hstep => hs.step h hstep

end

/-! ## Several operations of one member -/

section
variable {sys : System ι S E P F} {i : ι} {m m' : S} {p p' : P}

/-- The pool comes from `p` to `p'` in adjustments. -/
def Adjusts (sys : System ι S E P F) (p p' : P) : Prop := ∃ fs : List F, fs.foldl sys.adjust p = p'

/-- Member `i` and the pool come from `m` and `p` to `m'` and `p'`, without a final report. -/
inductive Moves (sys : System ι S E P F) (i : ι) (m : S) (p : P) : S → P → Prop
  | start : Moves sys i m p m p
  | item {m' : S} {p' : P} (e : E) : Moves sys i m p m' p' → Moves sys i m p (sys.item i m' e) p'
  | report {m' : S} {p' : P} : Moves sys i m p m' p' →
    Moves sys i m p (sys.report i false m' p').1 (sys.report i false m' p').2
  | adjust {m' : S} {p' : P} (f : F) : Moves sys i m p m' p' → Moves sys i m p m' (sys.adjust p' f)

theorem Moves.adjusts {p'' : P} (h : Moves sys i m p m' p') (hp : Adjusts sys p' p'') : Moves sys i m p m' p'' := by
  obtain ⟨fs, rfl⟩ := hp
  induction fs generalizing p' with
  | nil => exact h
  | cons f fs ih => exact ih (h.adjust f)

theorem Moves.trans {m'' : S} {p'' : P} (h : Moves sys i m p m' p') (h' : Moves sys i m' p' m'' p'') :
    Moves sys i m p m'' p'' := by
  induction h' with
  | start => exact h
  | item e _ ih => exact ih.item e
  | report _ ih => exact ih.report
  | adjust f _ ih => exact ih.adjust f

variable [DecidableEq ι] {s₀ s : State ι S P}

/-- Adjustments of the pool are steps. -/
theorem Adjusts.reachable (hs : Reachable sys.step Any s₀ s) (h : Adjusts sys s.pool p) :
    Reachable sys.step Any s₀ { s with pool := p } := by
  obtain ⟨fs, rfl⟩ := h
  induction fs generalizing s with
  | nil => exact hs
  | cons f fs ih => exact ih (hs.next (.adjust f) trivial rfl)

/-- The operations of one running member are steps, which the other members do not see. -/
theorem Moves.reachable (hs : Reachable sys.step Any s₀ s) (hrunning : s.done i = false)
    (h : Moves sys i (s.member i) s.pool m p) :
    ∃ s', Reachable sys.step Any s₀ s' ∧ s'.member = Function.update s.member i m ∧ s'.pool = p ∧
      s'.done = s.done := by
  induction h with
  | start => exact ⟨s, hs, (Function.update_eq_self i s.member).symm, rfl, rfl⟩
  | item e _ ih =>
    obtain ⟨s', hs', hmember, hpool, hdone⟩ := ih
    have hstep : sys.step s' (.item i e) =
        some { s' with member := Function.update s'.member i (sys.item i (s'.member i) e) } := by
      simp only [System.step, hdone, hrunning, Bool.false_eq_true, if_false]
    refine ⟨_, hs'.next (.item i e) trivial hstep, ?_, hpool, hdone⟩
    simp only [hmember, Function.update_self, Function.update_idem]
  | report _ ih =>
    obtain ⟨s', hs', hmember, hpool, hdone⟩ := ih
    have hstep : sys.step s' (.report i false) = some
        { member := Function.update s'.member i (sys.report i false (s'.member i) s'.pool).1
          reported := Function.update s'.reported i (s'.member i)
          done := Function.update s'.done i false
          pool := (sys.report i false (s'.member i) s'.pool).2 } := by
      simp only [System.step, hdone, hrunning, Bool.false_eq_true, if_false]
    refine ⟨_, hs'.next (.report i false) trivial hstep, ?_, ?_, ?_⟩
    · simp only [hmember, hpool, Function.update_self, Function.update_idem]
    · simp only [hmember, hpool, Function.update_self]
    · simp only [hdone, ← hrunning, Function.update_eq_self]
  | adjust f _ ih =>
    obtain ⟨s', hs', hmember, hpool, hdone⟩ := ih
    refine ⟨_, hs'.next (.adjust f) trivial rfl, hmember, ?_, hdone⟩
    simp only [hpool]

/-- The final report of a member, after which the pool is adjusted. -/
theorem Moves.final (hs : Reachable sys.step Any s₀ s) (hrunning : s.done i = false)
    (h : Moves sys i (s.member i) s.pool m p) (hp : Adjusts sys (sys.report i true m p).2 p') :
    ∃ s', Reachable sys.step Any s₀ s' ∧ s'.member = Function.update s.member i (sys.report i true m p).1 ∧
      s'.pool = p' ∧ s'.done = Function.update s.done i true := by
  obtain ⟨s', hs', hmember, hpool, hdone⟩ := h.reachable hs hrunning
  have hi : s'.member i = m := by rw [hmember, Function.update_self]
  have hstep : sys.step s' (.report i true) = some
      { member := Function.update s'.member i (sys.report i true (s'.member i) s'.pool).1
        reported := Function.update s'.reported i (s'.member i)
        done := Function.update s'.done i true
        pool := (sys.report i true (s'.member i) s'.pool).2 } := by
    simp only [System.step, hdone, hrunning, Bool.false_eq_true, if_false]
  rw [hi, hpool] at hstep
  refine ⟨_, Adjusts.reachable (hs'.next (.report i true) trivial hstep) hp, ?_, rfl, ?_⟩
  · simp only [hmember, Function.update_idem]
  · simp only [hdone]

end

end Pool
