import Mathlib.Algebra.Order.BigOperators.Group.List
import Mathlib.Tactic.Abel

/-!
# Meters: readings that telescope

A system of states and events shows a report at some events. A quantity of the state is metered by a running `total`
and by what accumulated `since` the last report: events without a report move both alike, a report reads `since` and
starts it again.

* `readings` : what the reports of a run show, in order;
* `Telescopes.sum` : the readings of a run and what accumulated after the last one are what the total grew by;
* `Telescopes.le_sum` : with readings clamped by a subadditive function, at least the clamped growth.
-/

namespace Meter

variable {S E R A : Type*}

/-- What the reports among the events show, in order. -/
def readings (step : S → E → S) (read : S → E → Option R) : S → List E → List R
  | _, [] => []
  | s, e :: es => (read s e).toList ++ readings step read (step s e) es

theorem readings_append (step : S → E → S) (read : S → E → Option R) (s : S) (es es' : List E) :
    readings step read s (es ++ es') = readings step read s es ++ readings step read (es.foldl step s) es' := by
  induction es generalizing s with
  | nil => rfl
  | cons e es ih => simp only [List.cons_append, readings, ih, List.foldl_cons, List.append_assoc]

theorem mem_readings {step : S → E → S} {read : S → E → Option R} {s : S} {es : List E} {r : R}
    (hr : r ∈ readings step read s es) : ∃ s e, read s e = some r := by
  induction es generalizing s with
  | nil => cases hr
  | cons e es ih =>
    rcases List.mem_append.mp hr with hr | hr
    · exact ⟨s, e, Option.mem_toList.mp hr⟩
    · exact ih hr

/-- The total and what accumulated since the last report move as a meter does, in the states with `I`. -/
structure Telescopes [AddCommGroup A] (step : S → E → S) (read : S → E → Option R) (value : R → A)
    (total since : S → A) (I : S → Prop) : Prop where
  inv : ∀ s e, I s → I (step s e)
  item : ∀ s e, I s → read s e = none → total (step s e) - since (step s e) = total s - since s
  report : ∀ s e r, I s → read s e = some r →
    value r = since s ∧ total (step s e) = total s ∧ since (step s e) = 0

section
variable [AddCommGroup A] {step : S → E → S} {read : S → E → Option R} {value : R → A} {total since : S → A}
  {I : S → Prop}

theorem Telescopes.holds (h : Telescopes step read value total since I) (es : List E) {s : S} (hs : I s) :
    I (es.foldl step s) := by
  induction es generalizing s with
  | nil => exact hs
  | cons e es ih => exact ih (h.inv s e hs)

/-- A meter under a stronger invariant. -/
theorem Telescopes.strengthen (h : Telescopes step read value total since I) {J : S → Prop} (hJ : ∀ s, J s → I s)
    (inv : ∀ s e, J s → J (step s e)) : Telescopes step read value total since J where
  inv := inv
  item s e hs := h.item s e (hJ s hs)
  report s e r hs := h.report s e r (hJ s hs)

/-- The readings and what accumulated after the last one are what the total grew by. -/
theorem Telescopes.sum (h : Telescopes step read value total since I) (es : List E) {s : S} (hs : I s) :
    ((readings step read s es).map value).sum + since (es.foldl step s) =
      total (es.foldl step s) - (total s - since s) := by
  induction es generalizing s with
  | nil =>
    simp only [readings, List.map_nil, List.sum_nil, List.foldl_nil]
    abel
  | cons e es ih =>
    have hrest := ih (h.inv s e hs)
    simp only [readings, List.map_append, List.sum_append, List.foldl_cons]
    cases hread : read s e with
    | none =>
      rw [h.item s e hs hread] at hrest
      simpa using hrest
    | some r =>
      obtain ⟨hvalue, htotal, hsince⟩ := h.report s e r hs hread
      rw [htotal, hsince, sub_zero] at hrest
      simp only [Option.toList_some, List.map_cons, List.map_nil, List.sum_cons, List.sum_nil, add_zero, hvalue]
      rw [add_assoc, hrest]
      abel

end

/-- Clamped readings sum up to at least the clamped growth. -/
theorem Telescopes.le_sum [AddCommGroup A] [PartialOrder A] [IsOrderedAddMonoid A] {step : S → E → S}
    {read : S → E → Option R} {value : R → A} {total since : S → A} {I : S → Prop}
    (h : Telescopes step read value total since I) (clamp : A → A) (hzero : clamp 0 = 0)
    (hadd : ∀ a b, clamp (a + b) ≤ clamp a + clamp b) (es : List E) {s : S} (hs : I s) :
    clamp (total (es.foldl step s) - (total s - since s)) ≤
      ((readings step read s es).map fun r => clamp (value r)).sum + clamp (since (es.foldl step s)) := by
  have hlist := List.le_sum_of_subadditive clamp hzero.le hadd ((readings step read s es).map value)
  rw [List.map_map] at hlist
  calc
    clamp (total (es.foldl step s) - (total s - since s))
      = clamp (((readings step read s es).map value).sum + since (es.foldl step s)) := by rw [h.sum es hs]
    _ ≤ clamp ((readings step read s es).map value).sum + clamp (since (es.foldl step s)) := hadd _ _
    _ ≤ _ := by gcongr; exact hlist

end Meter
