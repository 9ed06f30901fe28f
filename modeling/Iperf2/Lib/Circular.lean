import Mathlib.Data.Nat.ModEq
import Mathlib.Logic.Function.Basic

/-!
# Windows of a circular buffer

A circular buffer of `m` slots is a function of the slot; its unread part is the `n` slots after slot `c`,
one past the reader's index. `window data m c n` lists them in order.

* `wrap_succ` : the index the code computes with a comparison is the successor modulo `m`;
* `slot_inj` : fewer than `m` steps from one slot reach distinct slots;
* `window_succ`, `window_pop`, `window_update` : what the writer, the reader and a write outside do.
-/

namespace Circular

variable {α : Type*}

/-- The index after `c`, wrapped by a comparison with the number of slots. -/
def wrap (m c : Nat) : Nat := if c + 1 = m then 0 else c + 1

theorem wrap_succ {m c : Nat} (hc : c < m) : wrap m c = (c + 1) % m := by
  unfold wrap
  split
  · rename_i h
    rw [h, Nat.mod_self]
  · rw [Nat.mod_eq_of_lt (by omega)]

theorem slot_inj {m c i j : Nat} (hi : i < m) (hj : j < m) (h : (c + i) % m = (c + j) % m) : i = j :=
  Nat.ModEq.eq_of_lt_of_lt (Nat.ModEq.add_left_cancel' c h) hi hj

/-- The contents of the `n` slots after slot `c`. -/
def window (data : Nat → α) (m c n : Nat) : List α :=
  (List.range n).map fun k => data ((c + (k + 1)) % m)

/-- The window grows at its end by the slot after it. -/
theorem window_succ (data : Nat → α) (m c n : Nat) :
    window data m c (n + 1) = window data m c n ++ [data ((c + (n + 1)) % m)] := by
  simp [window, List.range_succ]

/-- The window shrinks at its front when the reader moves to the next slot. -/
theorem window_pop (data : Nat → α) (m c n : Nat) :
    window data m c (n + 1) = data ((c + 1) % m) :: window data m ((c + 1) % m) n := by
  unfold window
  rw [List.range_succ_eq_map, List.map_cons, List.map_map]
  congr 1
  apply List.map_congr_left
  intro k _
  simp only [Function.comp_apply, Nat.mod_add_mod]
  congr 2
  omega

/-- A write to a slot outside the window does not change it. -/
theorem window_update (data : Nat → α) {m c n i : Nat} (x : α) (hn : n < m) (hi : i < m)
    (hlo : i = 0 ∨ n < i) : window (Function.update data ((c + i) % m) x) m c n = window data m c n := by
  unfold window
  apply List.map_congr_left
  intro k hk
  have hk' : k < n := List.mem_range.mp hk
  apply Function.update_of_ne
  intro h
  have := slot_inj (by omega) hi h
  omega

end Circular
