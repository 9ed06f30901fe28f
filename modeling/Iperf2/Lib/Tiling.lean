import Mathlib.Order.Lattice

/-!
# Ranges one after the other

A list of ranges, each of which starts where the one before it ended. When none of them runs backwards they cover
everything from the first start to the last end, every point once.

* `Tiles.covers` : the points of such ranges;
* `not_covers_of_lt` : a last range that runs backwards takes points twice.
-/

namespace Tiling

variable {α : Type*}

/-- The ranges go from `a` to `b`, each from where the one before it ended. -/
def Linked : α → List (α × α) → α → Prop
  | a, [], b => a = b
  | a, p :: rest, b => p.1 = a ∧ Linked p.2 rest b

theorem linked_single (a b : α) : Linked a [(a, b)] b := ⟨rfl, rfl⟩

theorem Linked.append {a b c : α} {l l' : List (α × α)} (h : Linked a l b) (h' : Linked b l' c) :
    Linked a (l ++ l') c := by
  induction l generalizing a with
  | nil =>
    obtain rfl : a = b := h
    exact h'
  | cons p l ih => exact ⟨h.1, ih h.2⟩

variable [LinearOrder α]

/-- The point is in the range, which is open at its end. -/
def has (x : α) (p : α × α) : Bool := p.1 ≤ x ∧ x < p.2

/-- The ranges have every point from `a` to `b` once, and no other. -/
def Covers (a : α) (l : List (α × α)) (b : α) : Prop := ∀ x, l.countP (has x) = if has x (a, b) then 1 else 0

/-- Linked ranges, none of them backwards. -/
structure Tiles (a : α) (l : List (α × α)) (b : α) : Prop where
  linked : Linked a l b
  forward : ∀ p ∈ l, p.1 ≤ p.2

theorem Tiles.append {a b c : α} {l l' : List (α × α)} (h : Tiles a l b) (h' : Tiles b l' c) :
    Tiles a (l ++ l') c where
  linked := h.linked.append h'.linked
  forward p hp := (List.mem_append.mp hp).elim (h.forward p) (h'.forward p)

theorem Tiles.tail {a b : α} {p : α × α} {l : List (α × α)} (h : Tiles a (p :: l) b) : Tiles p.2 l b where
  linked := h.linked.2
  forward p' hp' := h.forward p' (List.mem_cons_of_mem p hp')

theorem Tiles.le {a b : α} {l : List (α × α)} (h : Tiles a l b) : a ≤ b := by
  induction l generalizing a with
  | nil => exact h.linked.le
  | cons p l ih =>
    have hstart : p.1 = a := h.linked.1
    have hforward := h.forward p List.mem_cons_self
    exact hstart ▸ hforward.trans (ih h.tail)

/-- Two ranges that meet have the points of both. -/
theorem has_join {a c b : α} (hac : a ≤ c) (hcb : c ≤ b) (x : α) :
    (if has x (c, b) then 1 else 0) + (if has x (a, c) then 1 else 0) = if has x (a, b) then 1 else 0 := by
  simp only [has, decide_eq_true_eq]
  rcases lt_or_ge x c with hlt | hge
  · have hnot : ¬ (c ≤ x ∧ x < b) := fun h => absurd hlt (not_lt.mpr h.1)
    have hboth : (a ≤ x ∧ x < c) ↔ (a ≤ x ∧ x < b) :=
      ⟨fun h => ⟨h.1, h.2.trans_le hcb⟩, fun h => ⟨h.1, hlt⟩⟩
    rw [if_neg hnot, Nat.zero_add]
    exact if_congr hboth rfl rfl
  · have hnot : ¬ (a ≤ x ∧ x < c) := fun h => absurd h.2 (not_lt.mpr hge)
    have hboth : (c ≤ x ∧ x < b) ↔ (a ≤ x ∧ x < b) :=
      ⟨fun h => ⟨hac.trans h.1, h.2⟩, fun h => ⟨hge, h.2⟩⟩
    rw [if_neg hnot, Nat.add_zero]
    exact if_congr hboth rfl rfl

/-- **Ranges that tile** have every point between their ends exactly once. -/
theorem Tiles.covers {a b : α} {l : List (α × α)} (h : Tiles a l b) : Covers a l b := by
  intro x
  induction l generalizing a with
  | nil =>
    obtain rfl : a = b := h.linked
    have hnone : ¬ has x (a, a) = true := by
      simp only [has, decide_eq_true_eq]
      exact fun hx => absurd hx.2 (not_lt.mpr hx.1)
    rw [if_neg hnone]
    rfl
  | cons p l ih =>
    have hstart : p.1 = a := h.linked.1
    have hforward := h.forward p List.mem_cons_self
    rw [List.countP_cons, ih h.tail, ← hstart]
    exact has_join hforward h.tail.le x

/-- A range that runs backwards into ranges that tile: the points between are taken, though they are behind the end. -/
theorem not_covers_of_lt {a b c : α} {l : List (α × α)} (h : Tiles a l b) (hac : a ≤ c) (hlt : c < b) :
    ¬ Covers a (l ++ [(b, c)]) c := by
  intro hcovers
  have hin : has c (a, b) = true := by
    simp only [has, decide_eq_true_eq]
    exact ⟨hac, hlt⟩
  have hout : ¬ has c (a, c) = true := by
    simp only [has, decide_eq_true_eq]
    exact fun hx => lt_irrefl c hx.2
  have htaken := h.covers c
  rw [if_pos hin] at htaken
  have hnone := hcovers c
  rw [if_neg hout, List.countP_append, htaken] at hnone
  exact absurd hnone (by omega)

end Tiling
