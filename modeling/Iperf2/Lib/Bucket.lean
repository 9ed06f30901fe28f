import Mathlib.Algebra.Order.Field.Basic
import Mathlib.Tactic.Linarith
import Mathlib.Tactic.Ring

/-!
# Token buckets

An account is credited with tokens at a rate while the time goes on, and what is used is paid with tokens. A sender that
is held to a rate keeps such an account, whatever else it does: it may lose tokens, and it may owe some.

* `Within` : between two states of an account, what was used and what is left did not grow by more than the credit of the
  time between them; `Within.credit`, `Within.use`, `Within.forfeit` and `Within.trans`;
* `Within.used_le` : so the use is bounded by the time and by what may be owed.
-/

namespace Bucket

variable {K : Type*} [Field K] [LinearOrder K] [IsStrictOrderedRing K]

/-- The tokens of an account at a time, and what it has used so far. -/
structure Account (K : Type*) where
  time : K
  tokens : K
  used : K

/-- The account uses and keeps no more than it had, and the credit since then. -/
def Within (rate : K) (a a' : Account K) : Prop :=
  a'.used + a'.tokens ≤ a.used + a.tokens + rate * (a'.time - a.time)

section
variable {rate : K} {a a' a'' : Account K}

omit [IsStrictOrderedRing K] in
theorem Within.refl (rate : K) (a : Account K) : Within rate a a := by
  simp only [Within, sub_self, mul_zero, add_zero, le_refl]

theorem Within.trans (h : Within rate a a') (h' : Within rate a' a'') : Within rate a a'' := by
  unfold Within at *
  calc
    a''.used + a''.tokens ≤ a'.used + a'.tokens + rate * (a''.time - a'.time) := h'
    _ ≤ a.used + a.tokens + rate * (a'.time - a.time) + rate * (a''.time - a'.time) := by gcongr
    _ = a.used + a.tokens + rate * (a''.time - a.time) := by ring

/-- The time goes on, and its credit comes in. -/
theorem Within.credit (h : Within rate a a') (time : K) :
    Within rate a { a' with
      time
      tokens := a'.tokens + rate * (time - a'.time) } := by
  refine h.trans ?_
  simp only [Within]
  linarith

/-- Something is used, and paid. -/
theorem Within.use (h : Within rate a a') (n : K) :
    Within rate a { a' with
      tokens := a'.tokens - n
      used := a'.used + n } := by
  refine h.trans ?_
  simp only [Within, sub_self, mul_zero]
  linarith

/-- Tokens are lost. -/
theorem Within.forfeit (h : Within rate a a') {tokens : K} (hle : tokens ≤ a'.tokens) :
    Within rate a { a' with tokens } := by
  refine h.trans ?_
  simp only [Within, sub_self, mul_zero]
  linarith

/-- What was used since the start, with the tokens that are left. -/
theorem Within.used_le (h : Within rate a a') {owed : K} (howed : -owed ≤ a'.tokens) :
    a'.used ≤ a.used + a.tokens + rate * (a'.time - a.time) + owed := by
  unfold Within at h
  linarith

end

end Bucket
