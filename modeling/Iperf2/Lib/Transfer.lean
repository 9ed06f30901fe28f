import Mathlib.Data.List.Basic

/-!
# Transfers in pieces

A transfer moves a number of elements in rounds. A round moves some of what is left, moves nothing, or ends the
transfer.

* `Round` : what a round does, `Round.size` elements of it;
* `Moves left rounds n` : the rounds of a whole transfer of `left` elements, of which `n` move; `Moves.le`;
* `Moves.eq_total` : these are the sizes of the rounds;
* `Moves.full` : all move, if no round ends the transfer.
-/

namespace Transfer

inductive Round
  | move (k : Nat)
  | again
  | stop

/-- How many elements a round moves. -/
def Round.size : Round → Nat
  | .move k => k
  | .again => 0
  | .stop => 0

/-- The elements that rounds move together. -/
def total : List Round → Nat
  | [] => 0
  | r :: rounds => r.size + total rounds

@[simp] theorem total_nil : total [] = 0 := rfl

@[simp] theorem total_cons (r : Round) (rounds : List Round) : total (r :: rounds) = r.size + total rounds := rfl

/-- The rounds of a transfer of `left` elements. It is over when nothing is left, or with a round that ends it. -/
inductive Moves : (left : Nat) → List Round → (n : Nat) → Prop
  | finish : Moves 0 [] 0
  | stop {left : Nat} (hleft : 0 < left) : Moves left [.stop] 0
  | again {left n : Nat} {rounds : List Round} (hleft : 0 < left) (hrest : Moves left rounds n) :
      Moves left (.again :: rounds) n
  | move {left n k : Nat} {rounds : List Round} (hk : 0 < k) (hle : k ≤ left) (hrest : Moves (left - k) rounds n) :
      Moves left (.move k :: rounds) (k + n)

variable {left n : Nat} {rounds : List Round}

theorem Moves.le (h : Moves left rounds n) : n ≤ left := by
  induction h with
  | finish => exact Nat.le_refl 0
  | stop _ => exact Nat.zero_le _
  | again _ _ ih => exact ih
  | move _ hle _ ih => omega

theorem Moves.eq_total (h : Moves left rounds n) : n = total rounds := by
  induction h with
  | finish => rfl
  | stop _ => rfl
  | again _ _ ih =>
    rw [total_cons, Round.size, Nat.zero_add]
    exact ih
  | move _ _ _ ih => rw [total_cons, Round.size, ih]

/-- Everything moves, if no round ends the transfer. -/
theorem Moves.full (h : Moves left rounds n) (hstop : .stop ∉ rounds) : n = left := by
  induction h with
  | finish => rfl
  | stop _ => exact absurd (List.mem_singleton_self _) hstop
  | again _ _ ih => exact ih fun hmem => hstop (List.mem_cons_of_mem _ hmem)
  | move _ hle _ ih =>
    have hrest := ih fun hmem => hstop (List.mem_cons_of_mem _ hmem)
    omega

end Transfer
