/-
  KEEPING TO A RATE by pausing when ahead of schedule.

  At `rate` units per unit of time, `rate * elapsed` is due after `elapsed`; a sender that has sent
  more has a `lead` and pauses until the schedule has caught up.

  1. `lead_after_pause` — exactly then it has; `pause_eq` — the end of the pause does not depend on
     when it starts.
  2. `lead_send`, `lead_le_of_le` — a sender that only sends without a lead never has one of more
     than a single sending; `pause_le` — hence it never pauses longer than that sending is worth.
  3. `lag_send`, `lag_after_pause` — a sender that is no slower than the rate, and pauses only when
     ahead, never falls behind by more than what its delays are worth.
-/
import Mathlib.Algebra.Order.Field.Basic
import Mathlib.Tactic.FieldSimp
import Mathlib.Tactic.Linarith
import Mathlib.Tactic.Ring

namespace RateMeter

section Schedule

variable {K : Type} [Field K]

/-- How far the amount sent is ahead of the schedule. -/
def lead (rate sent elapsed : K) : K := sent - rate * elapsed

/-- How long the schedule takes to catch up. -/
def pause (rate sent elapsed : K) : K := lead rate sent elapsed / rate

variable {rate : K} (sent elapsed : K)

theorem pause_eq (hrate : rate ≠ 0) : pause rate sent elapsed = sent / rate - elapsed := by
  unfold pause lead
  field_simp

theorem lead_after_pause (hrate : rate ≠ 0) :
    lead rate sent (elapsed + pause rate sent elapsed) = 0 := by
  rw [pause_eq sent elapsed hrate]
  unfold lead
  field_simp
  ring

end Schedule

variable {K : Type} [Field K] [LinearOrder K] [IsStrictOrderedRing K]
  {rate sent elapsed n bound : K}

theorem pause_pos (hrate : 0 < rate) (h : 0 < lead rate sent elapsed) :
    0 < pause rate sent elapsed := div_pos h hrate

/-- A lead shrinks with time. -/
theorem lead_le_of_le (hrate : 0 ≤ rate) {elapsed' : K} (h : elapsed ≤ elapsed') :
    lead rate sent elapsed' ≤ lead rate sent elapsed :=
  sub_le_sub_left (mul_le_mul_of_nonneg_left h hrate) sent

/-- Sending without a lead leaves a lead of at most what was sent. -/
theorem lead_send (h : lead rate sent elapsed ≤ 0) (hn : n ≤ bound) :
    lead rate (sent + n) elapsed ≤ bound := by
  unfold lead at h ⊢
  linarith

theorem pause_le (hrate : 0 < rate) (h : lead rate sent elapsed ≤ bound) :
    pause rate sent elapsed ≤ bound / rate :=
  div_le_div_of_nonneg_right h (le_of_lt hrate)

/-- A sending that takes no longer than it is worth does not add to the lag. -/
theorem lag_send {d : K} (h : -bound ≤ lead rate sent elapsed) (hn : rate * d ≤ n) :
    -bound ≤ lead rate (sent + n) (elapsed + d) := by
  unfold lead at h ⊢
  linarith

/-- A pause that ends late leaves a lag of what the delay is worth. -/
theorem lag_after_pause {d : K} (hrate : 0 < rate) {elapsed' : K}
    (h : elapsed' ≤ elapsed + pause rate sent elapsed + d) :
    -(rate * d) ≤ lead rate sent elapsed' := by
  have hcaught := lead_after_pause sent elapsed hrate.ne'
  have hle := mul_le_mul_of_nonneg_left h hrate.le
  unfold lead at hcaught ⊢
  linarith

end RateMeter
