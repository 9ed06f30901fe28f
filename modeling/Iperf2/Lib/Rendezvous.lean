import Mathlib.Data.Fintype.Card
import Mathlib.Logic.Function.Basic
import Mathlib.Tactic.Common

/-!
# A rendezvous

The parties of a finite type meet once: each arrives, none leaves before all have arrived, and each is told
on leaving whether it was the last one to arrive. A `Round` carries the proof that it is the state of such
a meeting.

* `Round.arrive`, `Round.leave` : the two moves, each keeping the order of arrival;
* `Round.full_iff_length` : a round is full when as many arrived as there are parties;
* `Round.arrived_of_told` : who left, left a full round;
* `Round.existsUnique_told_true` : when all have left, exactly one was told it was the last;
* `Round.told_pair` : with two parties, one was told so and the other was not.
-/

namespace Rendezvous

/-- One meeting of the parties `P`, in the order of their arrival, with what each was told on leaving. -/
structure Round (P : Type*) where
  arrived : List P
  told : P → Option Bool
  nodup : arrived.Nodup
  full : ∀ p, told p ≠ none → ∀ q, q ∈ arrived
  last : ∀ p b, told p = some b → (b = true ↔ arrived.getLast? = some p)

namespace Round

variable {P : Type*}

/-- Nobody has arrived. -/
def new : Round P where
  arrived := []
  told _ := none
  nodup := List.nodup_nil
  full _ h := absurd rfl h
  last _ _ h := by cases h

/-- Everybody has arrived. -/
def Full (r : Round P) : Prop := ∀ q, q ∈ r.arrived

theorem told_eq_none {r : Round P} {p q : P} (h : p ∉ r.arrived) : r.told q = none := by
  by_contra hq
  exact h (r.full q hq p)

/-- `p` arrives after all who have. -/
def arrive (r : Round P) (p : P) (h : p ∉ r.arrived) : Round P where
  arrived := r.arrived ++ [p]
  told := r.told
  nodup := by
    rw [List.nodup_append]
    refine ⟨r.nodup, List.nodup_singleton p, fun a ha b hb => ?_⟩
    rw [List.mem_singleton.mp hb]
    exact ne_of_mem_of_not_mem ha h
  full q hq := absurd (told_eq_none h) hq
  last q b hb := by
    rw [told_eq_none h] at hb
    cases hb

/-- `p` leaves a full round. -/
def leave [DecidableEq P] (r : Round P) (p : P) (h : r.Full) : Round P where
  arrived := r.arrived
  told := Function.update r.told p (some (decide (r.arrived.getLast? = some p)))
  nodup := r.nodup
  full _ _ := h
  last q b hb := by
    by_cases hq : q = p
    · subst hq
      rw [Function.update_self, Option.some.injEq] at hb
      rw [← hb, decide_eq_true_iff]
    · rw [Function.update_of_ne hq] at hb
      exact r.last q b hb

@[simp] theorem new_arrived : (new : Round P).arrived = [] := rfl
@[simp] theorem new_told (p : P) : (new : Round P).told p = none := rfl
@[simp] theorem arrive_arrived (r : Round P) (p : P) (h : p ∉ r.arrived) :
    (r.arrive p h).arrived = r.arrived ++ [p] := rfl
@[simp] theorem arrive_told (r : Round P) (p : P) (h : p ∉ r.arrived) : (r.arrive p h).told = r.told := rfl
@[simp] theorem leave_arrived [DecidableEq P] (r : Round P) (p : P) (h : r.Full) :
    (r.leave p h).arrived = r.arrived := rfl

theorem leave_told_self [DecidableEq P] (r : Round P) (p : P) (h : r.Full) :
    (r.leave p h).told p = some (decide (r.arrived.getLast? = some p)) := Function.update_self ..

theorem leave_told_of_ne [DecidableEq P] (r : Round P) {p q : P} (h : r.Full) (hq : q ≠ p) :
    (r.leave p h).told q = r.told q := Function.update_of_ne hq ..

/-- Everybody has arrived when as many have as there are. -/
theorem full_iff_length [Fintype P] {r : Round P} : r.Full ↔ r.arrived.length = Fintype.card P := by
  classical
  rw [← List.toFinset_card_of_nodup r.nodup, Finset.card_eq_iff_eq_univ, Finset.eq_univ_iff_forall, Full]
  simp only [List.mem_toFinset]

theorem length_le [Fintype P] (r : Round P) : r.arrived.length ≤ Fintype.card P := r.nodup.length_le_card

/-- Nobody leaves before everybody has arrived. -/
theorem arrived_of_told {r : Round P} {p : P} {b : Bool} (h : r.told p = some b) : r.Full :=
  r.full p (by rw [h]; exact Option.some_ne_none b)

/-- At most one party is told it was the last. -/
theorem eq_of_told_true {r : Round P} {p q : P} (hp : r.told p = some true) (hq : r.told q = some true) :
    p = q := by
  have hp' := (r.last p true hp).mp rfl
  have hq' := (r.last q true hq).mp rfl
  exact Option.some.inj (hp'.symm.trans hq')

/-- When all have left, exactly one was told it was the last. -/
theorem existsUnique_told_true [Nonempty P] {r : Round P} (h : ∀ p, r.told p ≠ none) :
    ∃! p, r.told p = some true := by
  obtain ⟨p₀⟩ := (inferInstance : Nonempty P)
  have hne : r.arrived ≠ [] := List.ne_nil_of_mem (r.full p₀ (h p₀) p₀)
  obtain ⟨b, hb⟩ := Option.ne_none_iff_exists'.mp (h (r.arrived.getLast hne))
  have htrue : b = true := (r.last _ b hb).mpr (List.getLast?_eq_some_getLast hne)
  subst htrue
  exact ⟨_, hb, fun q hq => eq_of_told_true hq hb⟩

/-- With two parties, one is told it was the last and the other that it was not. -/
theorem told_pair {r : Round P} {p q : P} (two : ∀ u, u = p ∨ u = q) (hpq : p ≠ q)
    (hp : r.told p ≠ none) (hq : r.told q ≠ none) :
    (r.told p = some true ∧ r.told q = some false) ∨ (r.told p = some false ∧ r.told q = some true) := by
  have : Nonempty P := ⟨p⟩
  have all : ∀ u, r.told u ≠ none := by
    intro u
    rcases two u with rfl | rfl
    · exact hp
    · exact hq
  have not_last : ∀ u v, u ≠ v → r.told v = some true → r.told u = some false := by
    intro u v huv hv
    obtain ⟨b, hb⟩ := Option.ne_none_iff_exists'.mp (all u)
    cases b with
    | false => exact hb
    | true => exact absurd (eq_of_told_true hb hv) huv
  obtain ⟨w, hw, -⟩ := existsUnique_told_true all
  rcases two w with rfl | rfl
  · exact .inl ⟨hw, not_last q w hpq.symm hw⟩
  · exact .inr ⟨not_last p w hpq hw, hw⟩

end Round

end Rendezvous
