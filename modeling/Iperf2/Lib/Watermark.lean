import Mathlib.Order.Bounds.Basic
import Mathlib.Order.MinMax

/-!
# Marks that are written and lowered

A mark takes every value that is written to it, and a value that comes to lower it only if the mark is above it. It is
the least of what was written last and what came to lower it since.

* `run_isLeast` : the mark after any events;
* `run_isGreatest_iff` : when the mark is the greatest of the values that came to lower it.
-/

namespace Watermark

inductive Event (α : Type*)
  | write (value : α)
  | lower (value : α)

variable {α : Type*}

/-- The values that the mark comes from: the one that was written last, and those that came to lower it since. -/
def sources (values : List α) : Event α → List α
  | .write value => [value]
  | .lower value => values ++ [value]

/-- The values that came to lower the mark. -/
def lowered (events : List (Event α)) : Set α := {value | Event.lower value ∈ events}

/-- What came to lower the mark last is one of its sources. -/
theorem mem_sources_lower (values : List α) (events : List (Event α)) (value : α) :
    value ∈ (events ++ [Event.lower value]).foldl sources values := by
  rw [List.foldl_append]
  exact List.mem_append_right _ (List.mem_singleton_self value)

variable [LinearOrder α]

def step (mark : α) : Event α → α
  | .write value => value
  | .lower value => min mark value

/-- One event. -/
theorem step_isLeast {values : List α} {mark : α} (h : IsLeast {value | value ∈ values} mark) (e : Event α) :
    IsLeast {value | value ∈ sources values e} (step mark e) := by
  cases e with
  | write value =>
    refine ⟨List.mem_singleton_self value, fun other hother => ?_⟩
    rw [List.mem_singleton.mp hother]
    exact le_refl value
  | lower value =>
    constructor
    · apply List.mem_append.mpr
      rcases min_choice mark value with hmark | hvalue
      · left
        rw [step, hmark]
        exact h.1
      · right
        rw [step, hvalue]
        exact List.mem_singleton_self value
    · intro other hother
      rcases List.mem_append.mp hother with hold | hnew
      · exact (min_le_left mark value).trans (h.2 hold)
      · rw [List.mem_singleton.mp hnew]
        exact min_le_right mark value

/-- **The mark of a run** is the least of its sources. -/
theorem run_isLeast (events : List (Event α)) (mark : α) :
    IsLeast {value | value ∈ events.foldl sources [mark]} (events.foldl step mark) := by
  have hall : ∀ (values : List α) (mark : α), IsLeast {value | value ∈ values} mark →
      IsLeast {value | value ∈ events.foldl sources values} (events.foldl step mark) := by
    induction events with
    | nil => exact fun _ _ h => h
    | cons e events ih => exact fun values mark h => ih _ _ (step_isLeast h e)
  apply hall
  exact ⟨List.mem_singleton_self mark, fun other hother => (List.mem_singleton.mp hother).ge⟩

/-- After a value that came to lower it the mark is the greatest of all such values just if none of its sources is below
one of them. -/
theorem run_isGreatest_iff (events : List (Event α)) (mark last : α) :
    let all := events ++ [.lower last]
    IsGreatest (lowered all) (all.foldl step mark) ↔
      ∀ value ∈ lowered all, ∀ source ∈ all.foldl sources [mark], value ≤ source := by
  intro all
  have hleast : IsLeast {value | value ∈ all.foldl sources [mark]} (all.foldl step mark) := run_isLeast all mark
  constructor
  · intro hgreatest value hvalue source hsource
    exact (hgreatest.2 hvalue).trans (hleast.2 hsource)
  · intro hall
    have hlast : last ∈ lowered all := List.mem_append_right _ (List.mem_singleton_self _)
    have hmark : all.foldl step mark = last := by
      apply le_antisymm
      · exact hleast.2 (mem_sources_lower [mark] events last)
      · exact hall last hlast _ hleast.1
    rw [hmark]
    refine ⟨hlast, fun value hvalue => ?_⟩
    exact hall value hvalue last (mem_sources_lower [mark] events last)

end Watermark
