import Iperf2.Lib.Transition

/-!
# A first-in first-out channel

`Channel α` is what a queue between one sender and one receiver is for: the values sent, those received and
those in between. Its field `fifo` says that nothing is lost, duplicated or reordered, so a channel that
violates it cannot be built.
-/

/-- A channel with its history. -/
structure Channel (α : Type*) where
  sent : List α
  pending : List α
  got : List α
  fifo : got ++ pending = sent

namespace Channel

variable {α : Type*}

/-- The channel before any send. -/
def empty : Channel α := ⟨[], [], [], rfl⟩

/-- Send `x`. -/
def push (c : Channel α) (x : α) : Channel α where
  sent := c.sent ++ [x]
  pending := c.pending ++ [x]
  got := c.got
  fifo := by rw [← List.append_assoc, c.fifo]

/-- Receive the oldest pending value. -/
def pop (c : Channel α) : Option (Channel α) :=
  match h : c.pending with
  | [] => none
  | x :: rest => some ⟨c.sent, rest, c.got ++ [x], by rw [← c.fifo, h]; simp⟩

/-- What the two ends do. -/
inductive Act (α : Type*)
  | push (x : α)
  | pop

def step (c : Channel α) : Act α → Option (Channel α)
  | .push x => some (c.push x)
  | .pop => c.pop

theorem pop_of_pending (c : Channel α) {x : α} {rest : List α} (h : c.pending = x :: rest) :
    ∃ c', c.pop = some c' ∧ c'.sent = c.sent ∧ c'.pending = rest ∧ c'.got = c.got ++ [x] := by
  obtain ⟨sent, pending, got, fifo⟩ := c
  subst h
  exact ⟨_, rfl, rfl, rfl, rfl⟩

/-- What was received is an initial part of what was sent. -/
theorem got_isPrefix (c : Channel α) : c.got.IsPrefix c.sent := ⟨c.pending, c.fifo⟩

/-- With nothing pending everything sent was received. -/
theorem got_eq_sent (c : Channel α) (h : c.pending = []) : c.got = c.sent := by
  rw [← c.fifo, h, List.append_nil]

end Channel
