import Mathlib.Data.List.Basic

/-!
# Accesses to a block of memory

What a program does with a block that it allocated, as a list of the accesses, each with its offset and its size.

* `extent` : the bytes that the accesses need;
* `inBounds_iff` : they are in the bounds of a block if it has that many bytes;
* `extent_append`, `extent_fields` : the extent of accesses after others, and of the fields of a struct.
-/

namespace Memory

inductive Access where
  | load (offset size : Nat)
  | store (offset size : Nat)
  deriving DecidableEq

/-- The bytes that a block needs for the access. -/
def Access.reach : Access → Nat
  | load offset size => offset + size
  | store offset size => offset + size

/-- The accesses are in the bounds of a block of `n` bytes. -/
def InBounds (n : Nat) (accesses : List Access) : Prop := ∀ a ∈ accesses, a.reach ≤ n

/-- The bytes that a block needs for the accesses. -/
def extent : List Access → Nat
  | [] => 0
  | a :: accesses => max a.reach (extent accesses)

theorem inBounds_nil (n : Nat) : InBounds n [] := List.forall_mem_nil _

theorem inBounds_cons {n : Nat} {a : Access} {accesses : List Access} :
    InBounds n (a :: accesses) ↔ a.reach ≤ n ∧ InBounds n accesses :=
  List.forall_mem_cons

/-- **The bounds of a block.** -/
theorem inBounds_iff {n : Nat} {accesses : List Access} : InBounds n accesses ↔ extent accesses ≤ n := by
  induction accesses with
  | nil => exact iff_of_true (inBounds_nil n) (Nat.zero_le n)
  | cons a accesses ih => rw [inBounds_cons, ih, extent, Nat.max_le]

theorem extent_append (accesses accesses' : List Access) :
    extent (accesses ++ accesses') = max (extent accesses) (extent accesses') := by
  induction accesses with
  | nil => exact (Nat.zero_max _).symm
  | cons a accesses ih => rw [List.cons_append, extent, extent, ih, Nat.max_assoc]

/-- The order of accesses does not matter. -/
theorem extent_perm {accesses accesses' : List Access} (h : accesses.Perm accesses') :
    extent accesses = extent accesses' := by
  apply Nat.le_antisymm
  · apply inBounds_iff.mp
    intro a ha
    exact inBounds_iff.mpr (Nat.le_refl (extent accesses')) a (h.subset ha)
  · apply inBounds_iff.mp
    intro a ha
    exact inBounds_iff.mpr (Nat.le_refl (extent accesses)) a (h.symm.subset ha)

/-- Stores to the `n + 1` fields of a struct at `base`, of `size` bytes each. -/
theorem extent_fields (base size n : Nat) :
    extent ((List.range (n + 1)).map fun i => .store (base + size * i) size) = base + size * (n + 1) := by
  induction n with
  | zero => simp [extent, Access.reach]
  | succ n ih =>
    rw [List.range_succ, List.map_append, extent_append, ih, List.map_singleton, extent, extent, Access.reach]
    have hlast : base + size * (n + 1) + size = base + size * (n + 1 + 1) := by
      rw [Nat.mul_add size (n + 1), Nat.mul_one, Nat.add_assoc]
    rw [hlast, Nat.max_zero]
    apply Nat.max_eq_right
    exact Nat.add_le_add_left (Nat.mul_le_mul_left size (Nat.le_succ _)) base

end Memory
