import Mathlib.Data.List.Induction
import Mathlib.Data.List.Nodup
import Mathlib.Logic.Function.Basic

/-!
# Singly linked lists in memory

`next` is the link of every cell, a chain starts at a pointer.

* `Path next a l b` : the links lead from `a` over the cells `l` to `b`;
* `Slot` : the place of a link, the head of a chain or the link of a cell, as an indirect pointer has it; `Slot.after`,
  the place behind the cells that a walk has passed.
-/

namespace Chain

variable {P : Type*}

/-- The links from `a` over the cells of a list to `b`. -/
def Path (next : P → Option P) : Option P → List P → Option P → Prop
  | a, [], b => a = b
  | a, p :: l, b => a = some p ∧ Path next (next p) l b

section
variable {next next' : P → Option P} {a b c : Option P} {l l' : List P} {p : P}

@[simp] theorem path_nil : Path next a [] b ↔ a = b := Iff.rfl

@[simp] theorem path_cons : Path next a (p :: l) b ↔ a = some p ∧ Path next (next p) l b := Iff.rfl

theorem path_append : Path next a (l ++ l') c ↔ ∃ b, Path next a l b ∧ Path next b l' c := by
  induction l generalizing a with
  | nil => simp
  | cons p l ih =>
    rw [List.cons_append, path_cons, ih]
    constructor
    · rintro ⟨ha, b, hl, hl'⟩
      exact ⟨b, ⟨ha, hl⟩, hl'⟩
    · rintro ⟨b, ⟨ha, hl⟩, hl'⟩
      exact ⟨ha, b, hl, hl'⟩

/-- The last cell of a path has the link to its end. -/
theorem path_concat : Path next a (l ++ [p]) b ↔ Path next a l (some p) ∧ next p = b := by
  rw [path_append]
  constructor
  · rintro ⟨c, hl, hc, hb⟩
    exact ⟨hc ▸ hl, hb⟩
  · rintro ⟨hl, hb⟩
    exact ⟨some p, hl, rfl, hb⟩

/-- A path depends on the links of its cells. -/
theorem Path.congr (h : Path next a l b) (hlinks : ∀ p ∈ l, next' p = next p) : Path next' a l b := by
  induction l generalizing a with
  | nil => exact h
  | cons p l ih =>
    refine ⟨h.1, ?_⟩
    rw [hlinks p List.mem_cons_self]
    exact ih h.2 fun q hq => hlinks q (List.mem_cons_of_mem p hq)

theorem Path.start (h : Path next a (p :: l) b) : a = some p := h.1

/-- The cells up to the end are determined. -/
theorem Path.unique (h : Path next a l none) (h' : Path next a l' none) : l = l' := by
  induction l generalizing a l' with
  | nil =>
    cases l' with
    | nil => rfl
    | cons p l' => exact absurd (h.symm.trans h'.1) (by simp)
  | cons p l ih =>
    cases l' with
    | nil => exact absurd (h'.symm.trans h.1) (by simp)
    | cons q l' =>
      obtain rfl : p = q := Option.some.inj (h.1.symm.trans h'.1)
      rw [ih h.2 h'.2]

variable [DecidableEq P] {v : Option P}

/-- A link outside of a path is not part of it. -/
theorem Path.update (h : Path next a l b) (hp : p ∉ l) : Path (Function.update next p v) a l b := by
  apply h.congr
  intro q hq
  apply Function.update_of_ne
  rintro rfl
  exact hp hq

/-- A path whose last cell gets another link. -/
theorem Path.relink (h : Path next a (l ++ [p]) b) (hp : p ∉ l) :
    Path (Function.update next p v) a (l ++ [p]) v := by
  rw [path_concat] at h ⊢
  exact ⟨h.1.update hp, Function.update_self p v next⟩

end

/-! ## The place of a link -/

/-- Where a link is stored. -/
inductive Slot (P : Type*)
  | head
  | next (p : P)
  deriving DecidableEq

namespace Slot

def load (head : Option P) (next : P → Option P) : Slot P → Option P
  | .head => head
  | .next p => next p

/-- The head of the chain after a store. -/
def storeHead (head v : Option P) : Slot P → Option P
  | .head => v
  | .next _ => head

/-- The links after a store. -/
def storeNext [DecidableEq P] (next : P → Option P) (v : Option P) : Slot P → P → Option P
  | .head => next
  | .next p => Function.update next p v

/-- The place behind these cells. -/
def after (l : List P) : Slot P :=
  match l.getLast? with
  | none => .head
  | some p => .next p

@[simp] theorem after_nil : after ([] : List P) = .head := rfl

@[simp] theorem after_concat (l : List P) (p : P) : after (l ++ [p]) = .next p := by
  simp [after]

theorem after_cons {l : List P} (p : P) (hne : l ≠ []) : after (p :: l) = after l := by
  simp [after, List.getLast?_cons, List.getLast?_eq_some_getLast hne]

theorem after_eq_head {l : List P} : after l = .head ↔ l = [] := by
  induction l using List.reverseRecOn with
  | nil => simp
  | append_singleton l p _ => simp

theorem mem_of_after {l : List P} {p : P} (h : after l = .next p) : p ∈ l := by
  induction l using List.reverseRecOn with
  | nil => cases h
  | append_singleton l q _ =>
    rw [after_concat] at h
    cases h
    exact List.mem_append_right l (List.mem_singleton_self _)

section
variable {head : Option P} {next : P → Option P} {l rest : List P} {b v : Option P} {p : P}

/-- What stands behind the cells of a path is its end. -/
theorem load_after (h : Path next head l b) : (after l).load head next = b := by
  induction l using List.reverseRecOn with
  | nil => exact h
  | append_singleton l p _ =>
    rw [after_concat]
    exact (path_concat.mp h).2

/-- The cells before a place are determined. -/
theorem after_unique {b' : Option P} {l' : List P} (h : Path next head l b) (h' : Path next head l' b')
    (hnodup : l.Nodup) (hnodup' : l'.Nodup) (hafter : after l = after l') : l = l' := by
  induction l generalizing head l' with
  | nil => exact (after_eq_head.mp hafter.symm).symm
  | cons p l ih =>
    cases l' with
    | nil => exact absurd (after_eq_head.mp hafter) (List.cons_ne_nil p l)
    | cons q l' =>
      obtain rfl : p = q := Option.some.inj (h.1.symm.trans h'.1)
      rw [List.nodup_cons] at hnodup hnodup'
      by_cases hl : l = []
      · -- a list that ends in its first cell has no other
        subst hl
        by_cases hl' : l' = []
        · rw [hl']
        · rw [after_cons p hl'] at hafter
          exact absurd (mem_of_after hafter.symm) hnodup'.1
      · by_cases hl' : l' = []
        · subst hl'
          rw [after_cons p hl] at hafter
          exact absurd (mem_of_after hafter) hnodup.1
        · rw [after_cons p hl, after_cons p hl'] at hafter
          rw [ih h.2 h'.2 hnodup.2 hnodup'.2 hafter]

variable [DecidableEq P]

/-- A store behind the cells of a path is its new end. -/
theorem path_store (h : Path next head l b) (hnodup : l.Nodup) :
    Path ((after l).storeNext next v) ((after l).storeHead head v) l v := by
  induction l using List.reverseRecOn with
  | nil => rfl
  | append_singleton l p _ =>
    rw [after_concat]
    apply Path.relink h
    rw [List.nodup_append] at hnodup
    exact fun hp => hnodup.2.2 p hp p (List.mem_singleton_self p) rfl

/-- Other paths are not touched by it. -/
theorem path_store_other {a : Option P} (h : Path next a rest b) (hdisjoint : ∀ p ∈ l, p ∉ rest) :
    Path ((after l).storeNext next v) a rest b := by
  induction l using List.reverseRecOn with
  | nil => exact h
  | append_singleton l p _ =>
    rw [after_concat]
    exact h.update (hdisjoint p (List.mem_append_right l (List.mem_singleton_self p)))

end

end Slot

end Chain
