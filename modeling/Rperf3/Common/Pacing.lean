/-
  `common/pacing.rs`: the token bucket that paces the UDP senders.

  All arithmetic is over exact rationals; instants and durations are seconds.  A bucket compares the
  bytes recorded so far with what its rate allows since its start, and asks for a pause when it is
  ahead; a rate of zero asks for none.
-/
import Mathlib.Algebra.Order.Ring.Rat
import Mathlib.Tactic.Positivity
import Rperf3.Lib.RateMeter
import Rperf3.Common.UdpSession

namespace Rperf3

open RateMeter

/-- `Duration::as_secs_f64` of a nanosecond count. -/
def secs (n : Nat) : ℚ := (n : ℚ) / nanos

theorem secs_le_secs {m n : Nat} (h : m ≤ n) : secs m ≤ secs n :=
  div_le_div_of_nonneg_right (Nat.cast_le.mpr h) (Nat.cast_nonneg _)

theorem secs_add (m n : Nat) : secs (m + n) = secs m + secs n := by
  unfold secs
  rw [Nat.cast_add, add_div]

structure TokenBucket where
  rateBps : Nat
  bytesSent : Nat
  start : ℚ
  deriving DecidableEq

namespace TokenBucket

/-- `TokenBucket::new`. -/
def new (rateBps : Nat) (start : ℚ) : TokenBucket := ⟨rateBps, 0, start⟩

/-- `TokenBucket::record`. -/
def record (n : Nat) (b : TokenBucket) : TokenBucket :=
  { b with bytesSent := saturatingAdd64 b.bytesSent n }

/-- `now.duration_since(self.start)`, zero for an instant before the start. -/
def elapsed (b : TokenBucket) (now : ℚ) : ℚ := max 0 (now - b.start)

/-- `TokenBucket::wait`. -/
def wait (b : TokenBucket) (now : ℚ) : Option ℚ :=
  if b.rateBps = 0 then none
  else
    let expectedBytes := (b.rateBps : ℚ) / 8 * b.elapsed now
    let ahead := (b.bytesSent : ℚ) - expectedBytes
    if ahead ≤ 0 then none else some (ahead / ((b.rateBps : ℚ) / 8))

variable {b : TokenBucket} {now d : ℚ}

/-- The bucket's rate in bytes per second. -/
def byteRate (b : TokenBucket) : ℚ := (b.rateBps : ℚ) / 8

theorem byteRate_pos (h : 0 < b.rateBps) : 0 < b.byteRate :=
  div_pos (Nat.cast_pos.mpr h) (by norm_num)

theorem wait_eq (h : 0 < b.rateBps) (now : ℚ) :
    b.wait now =
      if lead b.byteRate b.bytesSent (b.elapsed now) ≤ 0 then none
      else some (pause b.byteRate b.bytesSent (b.elapsed now)) := by
  rw [wait, if_neg (Nat.ne_of_gt h)]
  rfl

/-- **No pause is asked for exactly on or behind schedule.** -/
theorem wait_eq_none_iff (h : 0 < b.rateBps) :
    b.wait now = none ↔ (b.bytesSent : ℚ) ≤ b.byteRate * b.elapsed now := by
  have hlead : lead b.byteRate b.bytesSent (b.elapsed now) ≤ 0 ↔
      (b.bytesSent : ℚ) ≤ b.byteRate * b.elapsed now := sub_nonpos
  rw [wait_eq h, ← hlead]
  split
  · rename_i hle
    exact iff_of_true rfl hle
  · rename_i hlt
    exact iff_of_false (Option.some_ne_none _) hlt

/-- A pause that is asked for. -/
theorem wait_eq_some (h : 0 < b.rateBps) (hd : b.wait now = some d) :
    0 < lead b.byteRate b.bytesSent (b.elapsed now) ∧
      d = pause b.byteRate b.bytesSent (b.elapsed now) := by
  rw [wait_eq h] at hd
  split at hd
  · cases hd
  · rename_i hlt
    exact ⟨not_le.mp hlt, (Option.some.inj hd).symm⟩

theorem rateBps_pos_of_wait (hd : b.wait now = some d) : 0 < b.rateBps := by
  rw [wait] at hd
  split at hd
  · cases hd
  · rename_i hne
    exact Nat.pos_of_ne_zero hne

theorem elapsed_of_le (h : b.start ≤ now) : b.elapsed now = now - b.start :=
  max_eq_right (sub_nonneg.mpr h)

/-- The pause ends when the bytes recorded are due, whenever it starts. -/
theorem wait_end (hnow : b.start ≤ now) (hd : b.wait now = some d) :
    now + d = b.start + b.bytesSent / b.byteRate := by
  have hrate := rateBps_pos_of_wait hd
  obtain ⟨-, rfl⟩ := wait_eq_some hrate hd
  rw [pause_eq _ _ (byteRate_pos hrate).ne', elapsed_of_le hnow]
  ring

/-- **After the pause there is no pause.** -/
theorem wait_after_sleep (hnow : b.start ≤ now) (hd : b.wait now = some d) :
    b.wait (now + d) = none := by
  have hrate := rateBps_pos_of_wait hd
  obtain ⟨hlead, rfl⟩ := wait_eq_some hrate hd
  have hpos := pause_pos (byteRate_pos hrate) hlead
  have hcaught := lead_after_pause (b.bytesSent : ℚ) (b.elapsed now) (byteRate_pos hrate).ne'
  have helapsed : b.elapsed (now + pause b.byteRate b.bytesSent (b.elapsed now)) =
      b.elapsed now + pause b.byteRate b.bytesSent (b.elapsed now) := by
    rw [elapsed_of_le (le_trans hnow (le_add_of_nonneg_right hpos.le)), add_sub_right_comm,
      ← elapsed_of_le hnow]
  rw [wait_eq_none_iff hrate, helapsed]
  exact (sub_eq_zero.mp hcaught).le

/-- Right after its first record a bucket asks for what that is worth. -/
theorem wait_first {rate n : Nat} (hrate : 0 < rate) (hn : 0 < n) (hmax : n < 2 ^ 64) (now : ℚ) :
    ((new rate now).record n).wait now = some ((8 * n : ℚ) / rate) := by
  have hsent : ((new rate now).record n).bytesSent = n := by
    show min (0 + n) (2 ^ 64 - 1) = n
    omega
  have helapsed : ((new rate now).record n).elapsed now = 0 := by
    show max 0 (now - now) = 0
    rw [sub_self, max_self]
  have hlead : ¬ lead ((new rate now).record n).byteRate (n : ℚ) 0 ≤ 0 := by
    rw [lead, mul_zero, sub_zero, not_le]
    exact Nat.cast_pos.mpr hn
  rw [wait_eq hrate, hsent, helapsed, if_neg hlead, pause_eq _ _ (byteRate_pos hrate).ne', sub_zero]
  show some ((n : ℚ) / (rate / 8)) = _
  rw [div_div_eq_mul_div, mul_comm]

theorem bytesSent_record_le (b : TokenBucket) (n : Nat) :
    (b.record n).bytesSent ≤ b.bytesSent + n := Nat.min_le_left _ _

end TokenBucket

end Rperf3
