import Mathlib.Data.List.Induction
import Mathlib.Logic.Relation

/-!
# Partial labelled transition systems

A system is a partial step `S → L → Option S`: the label resolves every choice the environment or the
scheduler makes, and `none` says the label is not possible in that state.

* `Reachable step G s₀` : the states of the runs from `s₀` all of whose steps meet the guard `G`;
  `Reachable.invariant` (one step preserves it, so every reachable state has it); `Reachable.trans`;
  `Reachable.exists_of_measure` (what steps come closer to can be reached); `Final`, where no guarded step is possible;
* `run` : a run as a function of its labels; `run_cons`, `run_of_stuck`; `Reachable.of_run`; `run_length_le` (a measure
  that every step makes smaller bounds the length of the runs);
* `history_invariant` : the same induction for a deterministic system, over the list of its events;
* `Simulates` : a relation carried along by every guarded step, with the steps of a second system;
  `Simulates.reachable`.
-/

namespace Transition

variable {S L T M : Type*}

/-- The guard every step meets. -/
def Any (_ : S) (_ : L) : Prop := True

instance (s : S) (a : L) : Decidable (Any s a) := .isTrue trivial

/-- The states of the runs from `s₀` all of whose steps `s, a` meet `G s a`. -/
inductive Reachable (step : S → L → Option S) (G : S → L → Prop) (s₀ : S) : S → Prop
  | start : Reachable step G s₀ s₀
  | next {s s' : S} (a : L) : Reachable step G s₀ s → G s a → step s a = some s' → Reachable step G s₀ s'

section Reachable
variable {step : S → L → Option S} {G : S → L → Prop} {s₀ s : S}

/-- What holds at the start and is preserved by every guarded step holds in every state reached. -/
theorem Reachable.invariant {I : S → Prop} (start : I s₀)
    (next : ∀ s a s', I s → G s a → step s a = some s' → I s') (h : Reachable step G s₀ s) : I s := by
  induction h with
  | start => exact start
  | next a _ guard hstep ih => exact next _ a _ ih guard hstep

/-- A run goes on from where another one ends. -/
theorem Reachable.trans {s' : S} (h : Reachable step G s₀ s) (h' : Reachable step G s s') : Reachable step G s₀ s' := by
  induction h' with
  | start => exact h
  | next a _ guard hstep ih => exact ih.next a guard hstep

/-- When some step makes a measure smaller wherever the goal is not reached, it can be reached. -/
theorem Reachable.exists_of_measure {I goal : S → Prop} (μ : S → Nat)
    (progress : ∀ s, I s → ¬ goal s → ∃ a s', G s a ∧ step s a = some s' ∧ I s' ∧ μ s' < μ s) (hs : I s) :
    ∃ s', Reachable step G s s' ∧ goal s' := by
  induction hn : μ s using Nat.strongRecOn generalizing s with
  | ind n ih =>
    by_cases hgoal : goal s
    · exact ⟨s, .start, hgoal⟩
    · obtain ⟨a, mid, guard, hstep, hmid, hlt⟩ := progress s hs hgoal
      obtain ⟨s', hreach, hgoal'⟩ := ih _ (hn ▸ hlt) hmid rfl
      exact ⟨s', .trans (.next a .start guard hstep) hreach, hgoal'⟩

/-- No guarded step is possible any more. -/
def Final (step : S → L → Option S) (G : S → L → Prop) (s : S) : Prop := ∀ a s', step s a = some s' → ¬ G s a

end Reachable

section Run
variable (step : S → L → Option S) (G : S → L → Prop) [∀ s a, Decidable (G s a)]

/-- The state after the labels `as`, or `none` when a step is not possible or does not meet the guard. -/
def run : S → List L → Option S
  | s, [] => some s
  | s, a :: as => if G s a then (step s a).bind fun s' => run s' as else none

theorem run_cons {s s' : S} {a : L} {as : List L} :
    run step G s (a :: as) = some s' ↔ G s a ∧ ∃ mid, step s a = some mid ∧ run step G mid as = some s' := by
  rw [run]
  split
  · rename_i guard
    rw [Option.bind_eq_some_iff]
    exact (and_iff_right guard).symm
  · rename_i guard
    constructor
    · intro h
      cases h
    · intro h
      exact absurd h.1 guard

/-- A run from a state without a step. -/
theorem run_of_stuck {s s' : S} {as : List L} (stuck : ∀ a, step s a = none) (h : run step G s as = some s') :
    as = [] ∧ s' = s := by
  cases as with
  | nil =>
    cases h
    exact ⟨rfl, rfl⟩
  | cons a as =>
    obtain ⟨-, mid, hmid, -⟩ := (run_cons step G).mp h
    rw [stuck a] at hmid
    cases hmid

theorem Reachable.of_run {s₀ s s' : S} {as : List L} (h₀ : Reachable step G s₀ s)
    (h : run step G s as = some s') : Reachable step G s₀ s' := by
  induction as generalizing s with
  | nil =>
    cases h
    exact h₀
  | cons a as ih =>
    obtain ⟨guard, mid, hmid, hrest⟩ := (run_cons step G).mp h
    exact ih (.next a h₀ guard hmid) hrest

/-- When every step makes a measure smaller, the measure bounds the length of the runs. -/
theorem run_length_le {μ : S → Nat} (smaller : ∀ s a s', step s a = some s' → μ s' < μ s) {s s' : S} {as : List L}
    (h : run step G s as = some s') : as.length + μ s' ≤ μ s := by
  induction as generalizing s with
  | nil =>
    cases h
    simp
  | cons a as ih =>
    obtain ⟨-, mid, hmid, hrest⟩ := (run_cons step G).mp h
    have hlt := smaller s a mid hmid
    have hle := ih hrest
    rw [List.length_cons]
    omega

end Run

/-- What holds of the empty history and is kept by one more event holds of every history of a run. -/
theorem history_invariant {E : Type*} {step : S → E → S} {s₀ : S} {P : List E → S → Prop} (start : P [] s₀)
    (next : ∀ es s e, P es s → P (es ++ [e]) (step s e)) (es : List E) : P es (es.foldl step s₀) := by
  induction es using List.reverseRecOn with
  | nil => exact start
  | append_singleton es e ih =>
    rw [List.foldl_append]
    exact next es _ e ih

section Simulation
variable (stepC : S → L → Option S) (G : S → L → Prop) (stepA : T → M → Option T)

/-- Every guarded concrete step is matched by no abstract step or by one. -/
def Simulates (R : S → T → Prop) : Prop :=
  ∀ s t a s', R s t → G s a → stepC s a = some s' →
    R s' t ∨ ∃ m t', stepA t m = some t' ∧ R s' t'

/-- A simulated run ends in a state related to a reachable abstract one. -/
theorem Simulates.reachable {R : S → T → Prop} (sim : Simulates stepC G stepA R) {s₀ s : S} {t₀ : T}
    (h₀ : R s₀ t₀) (h : Reachable stepC G s₀ s) :
    ∃ t, Reachable stepA Any t₀ t ∧ R s t := by
  induction h with
  | start => exact ⟨t₀, .start, h₀⟩
  | next a _ guard hstep ih =>
    obtain ⟨t, ht, hR⟩ := ih
    rcases sim _ t a _ hR guard hstep with hR' | ⟨m, t', hm, hR'⟩
    · exact ⟨t, ht, hR'⟩
    · exact ⟨t', .next m ht trivial hm, hR'⟩

end Simulation

end Transition
