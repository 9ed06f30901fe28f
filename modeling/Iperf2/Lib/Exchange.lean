import Mathlib.Data.List.Range

/-!
# Exchange of adjacent blocks

Two adjacent blocks of an array change places, by swaps of single elements. The shorter one is swapped with the far end
of the longer one, where it belongs, and the two parts of the longer one are exchanged next. An array is a function from
its indices.

* `Exchange.swap`, `Exchange.swapBlocks` : one swap, and swaps of two blocks that do not overlap;
* `Exchange.loop` : the algorithm; `loop_apply` says what is where;
* `Exchange.slice` : a part of the array as a list; `slice_append`, `slice_congr`; `slice_loop` : the two blocks have changed
  places.
-/

namespace Exchange

variable {α : Type*}

/-- `tem = f[i]; f[i] = f[j]; f[j] = tem;` -/
def swap (f : Nat → α) (i j : Nat) : Nat → α := fun k => if k = j then f i else if k = i then f j else f k

/-- The first `n` elements from `p` on, swapped one after the other with those from `q` on. -/
def swapBlocks (f : Nat → α) (p q : Nat) : Nat → Nat → α
  | 0 => f
  | n + 1 => swap (swapBlocks f p q n) (p + n) (q + n)

theorem swapBlocks_apply (f : Nat → α) {p q n : Nat} (h : p + n ≤ q) (k : Nat) : swapBlocks f p q n k =
    if p ≤ k ∧ k < p + n then f (q + (k - p)) else if q ≤ k ∧ k < q + n then f (p + (k - q)) else f k := by
  induction n generalizing k with
  | zero =>
    rw [if_neg (by omega), if_neg (by omega)]
    rfl
  | succ n ih =>
    have hih := ih (by omega)
    show swap (swapBlocks f p q n) (p + n) (q + n) k = _
    unfold swap
    by_cases hq : k = q + n
    · rw [if_pos hq, hih, if_neg (by omega), if_neg (by omega), if_neg (by omega), if_pos (by omega)]
      congr 1
      omega
    · rw [if_neg hq]
      by_cases hp : k = p + n
      · rw [if_pos hp, hih, if_neg (by omega), if_neg (by omega), if_pos (by omega)]
        congr 1
        omega
      · rw [if_neg hp, hih]
        by_cases hlow : p ≤ k ∧ k < p + n
        · rw [if_pos hlow, if_pos (by omega)]
        · rw [if_neg hlow, if_neg (show ¬(p ≤ k ∧ k < p + (n + 1)) by omega)]
          by_cases hhigh : q ≤ k ∧ k < q + n
          · rw [if_pos hhigh, if_pos (by omega)]
          · rw [if_neg hhigh, if_neg (by omega)]

/-- The blocks from `bottom` and from `middle` on, up to `top`. -/
def loop (f : Nat → α) (bottom middle top : Nat) : Nat → α :=
  if _h : middle < top ∧ bottom < middle then
    if top - middle > middle - bottom then
      -- the bottom block goes to the top
      loop (swapBlocks f bottom (top - (middle - bottom)) (middle - bottom)) bottom middle (top - (middle - bottom))
    else
      -- the top block goes to the bottom
      loop (swapBlocks f bottom middle (top - middle)) (bottom + (top - middle)) middle top
  else f
termination_by top - bottom

theorem loop_apply (f : Nat → α) {bottom middle top : Nat} (hb : bottom ≤ middle) (ht : middle ≤ top) (k : Nat) :
    loop f bottom middle top k =
      if bottom ≤ k ∧ k < bottom + (top - middle) then f (middle + (k - bottom))
      else if bottom + (top - middle) ≤ k ∧ k < top then f (k - (top - middle)) else f k := by
  fun_induction loop f bottom middle top with
  | case1 f bottom top h hlong ih =>
    have hswap := swapBlocks_apply f (show bottom + (middle - bottom) ≤ top - (middle - bottom) by omega)
    rw [ih hb (by omega)]
    simp only [hswap]
    split_ifs <;> first | omega | exact congrArg f (by omega)
  | case2 f bottom top h hshort ih =>
    have hswap := swapBlocks_apply f (show bottom + (top - middle) ≤ middle by omega)
    rw [ih (by omega) ht]
    simp only [hswap]
    split_ifs <;> first | omega | exact congrArg f (by omega)
  | case3 f bottom top h =>
    split_ifs <;> first | omega | exact congrArg f (by omega)

/-! ## Parts of the array -/

/-- The elements from `a` on, up to `b`. -/
def slice (f : Nat → α) (a b : Nat) : List α := (List.range' a (b - a)).map f

theorem length_slice (f : Nat → α) (a b : Nat) : (slice f a b).length = b - a := by
  rw [slice, List.length_map, List.length_range']

@[simp] theorem slice_self (f : Nat → α) (a : Nat) : slice f a a = [] := by
  rw [slice, Nat.sub_self]
  rfl

theorem slice_cons (f : Nat → α) {a b : Nat} (h : a < b) : slice f a b = f a :: slice f (a + 1) b := by
  rw [slice, slice, show b - a = (b - (a + 1)) + 1 by omega, List.range'_succ]
  rfl

theorem slice_append (f : Nat → α) {a b c : Nat} (hab : a ≤ b) (hbc : b ≤ c) :
    slice f a c = slice f a b ++ slice f b c := by
  have hrange := @List.range'_append_1 a (b - a) (c - b)
  rw [show a + (b - a) = b by omega, show b - a + (c - b) = c - a by omega] at hrange
  rw [slice, slice, slice, ← List.map_append, hrange]

/-- The same elements, here and there. -/
theorem slice_shift {f g : Nat → α} {a b c d : Nat} (hlen : b - a = d - c)
    (h : ∀ i < b - a, f (a + i) = g (c + i)) : slice f a b = slice g c d := by
  apply List.ext_getElem
  · rw [length_slice, length_slice, hlen]
  · intro i hi hi'
    rw [length_slice] at hi
    simp only [slice, List.getElem_map, List.getElem_range', Nat.one_mul]
    exact h i hi

theorem slice_congr {f g : Nat → α} {a b : Nat} (h : ∀ k, a ≤ k → k < b → f k = g k) : slice f a b = slice g a b :=
  slice_shift rfl fun i hi => h (a + i) (by omega) (by omega)

section
variable (f : Nat → α) {bottom middle top : Nat} (hb : bottom ≤ middle) (ht : middle ≤ top)
include hb ht

/-- The block from `middle` on comes first. -/
theorem slice_loop_first : slice (loop f bottom middle top) bottom (bottom + (top - middle)) = slice f middle top := by
  apply slice_shift
  · omega
  · intro i hi
    rw [loop_apply f hb ht, if_pos (by omega)]
    congr 1
    omega

/-- The block from `bottom` on comes last. -/
theorem slice_loop_last : slice (loop f bottom middle top) (bottom + (top - middle)) top = slice f bottom middle := by
  apply slice_shift
  · omega
  · intro i hi
    rw [loop_apply f hb ht, if_neg (by omega), if_pos (by omega)]
    congr 1
    omega

theorem loop_of_lt {k : Nat} (hk : k < bottom) : loop f bottom middle top k = f k := by
  rw [loop_apply f hb ht, if_neg (by omega), if_neg (by omega)]

theorem loop_of_le {k : Nat} (hk : top ≤ k) : loop f bottom middle top k = f k := by
  rw [loop_apply f hb ht, if_neg (by omega), if_neg (by omega)]

end

end Exchange
