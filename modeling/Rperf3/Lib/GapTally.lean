/-
  ONE-PASS loss accounting over a sequence-number stream.

  A receiver that keeps only the next expected number charges a whole gap to `lost` when a number
  jumps ahead and counts a number below the expected one as `late`.  Nothing is ever refunded, so:

  1. **Balance** (`lost_add_length`) — after any stream, `lost + length = next + late`.
  2. **The specification** — `missing l`, the numbers up to the largest seen that never occurred.
     Without duplicates `missing + length = next` (`missing_add_length`).
  3. **The defect of the method** (`lost_eq_missing_add_late`) — hence `lost = missing + late`: the
     count is exact precisely when nothing arrives late, i.e. when the stream is increasing
     (`overtaken_eq_zero_iff`).
-/
import Mathlib.Data.List.Nodup
import Mathlib.Data.List.Range
import Mathlib.Data.Finset.Card
import Mathlib.Data.Finset.Range

namespace GapTally

/-- Next expected number, numbers charged as lost, arrivals below the expected number. -/
structure Tally where
  next : Nat
  lost : Nat
  late : Nat
  deriving DecidableEq

def Tally.start : Tally := ⟨0, 0, 0⟩

/-- One arrival. -/
def Tally.see (t : Tally) (q : Nat) : Tally :=
  if q < t.next then { t with late := t.late + 1 }
  else { t with next := q + 1, lost := t.lost + (q - t.next) }

/-- The whole stream. -/
def tally (l : List Nat) : Tally := l.foldl Tally.see Tally.start

/-! ## The specification -/

/-- One more than the largest number of the stream, `0` when it is empty. -/
def bound : List Nat → Nat
  | [] => 0
  | q :: l => max (q + 1) (bound l)

/-- How many numbers up to the largest one never occur. -/
def missing (l : List Nat) : Nat := ((List.range (bound l)).filter (· ∉ l)).length

/-- Arrivals that an equal or larger number preceded; `seen` is what came before. -/
def overtakenAfter (seen : List Nat) : List Nat → Nat
  | [] => 0
  | q :: l => (if ∃ p ∈ seen, q ≤ p then 1 else 0) + overtakenAfter (seen ++ [q]) l

/-- Arrivals of the stream that an equal or larger number preceded. -/
def overtaken (l : List Nat) : Nat := overtakenAfter [] l

/-! ## Counting what is missing -/

theorem lt_bound_of_mem {q : Nat} {l : List Nat} (h : q ∈ l) : q < bound l := by
  induction l with
  | nil => exact absurd h List.not_mem_nil
  | cons p l ih =>
    rw [bound]
    rcases List.mem_cons.mp h with rfl | h
    · omega
    · have := ih h
      omega

/-- The bound of a non-empty list is one above one of its members. -/
theorem exists_mem_bound {l : List Nat} (h : l ≠ []) : ∃ q ∈ l, q + 1 = bound l := by
  induction l with
  | nil => exact absurd rfl h
  | cons p l ih =>
    rw [bound]
    by_cases hp : bound l ≤ p + 1
    · exact ⟨p, List.mem_cons_self, by omega⟩
    · obtain ⟨q, hq, hbound⟩ := ih (fun hl => hp (by rw [hl]; exact Nat.zero_le _))
      exact ⟨q, List.mem_cons_of_mem p hq, by omega⟩

theorem bound_concat (l : List Nat) (q : Nat) : bound (l ++ [q]) = max (bound l) (q + 1) := by
  induction l with
  | nil => simp [bound]
  | cons p l ih => rw [List.cons_append, bound, bound, ih, Nat.max_assoc]

/-- Without duplicates, present and missing numbers fill the range. -/
theorem missing_add_length {l : List Nat} (h : l.Nodup) : missing l + l.length = bound l := by
  -- the present numbers, listed in range order, are a permutation of `l`
  have hperm : ((List.range (bound l)).filter (· ∈ l)).Perm l := by
    rw [List.perm_ext_iff_of_nodup (List.nodup_range.filter _) h]
    intro q
    simp only [List.mem_filter, List.mem_range, decide_eq_true_eq]
    exact ⟨fun hq => hq.2, fun hq => ⟨lt_bound_of_mem hq, hq⟩⟩
  have hsplit := List.length_eq_length_filter_add (l := List.range (bound l)) (· ∈ l)
  rw [List.length_range, hperm.length_eq] at hsplit
  have hneg : (List.range (bound l)).filter (fun q => !decide (q ∈ l)) =
      (List.range (bound l)).filter (· ∉ l) := by
    simp only [decide_not]
  rw [hneg] at hsplit
  unfold missing
  omega

/-! ## What the pass computes -/

/-- The balance kept by every arrival. -/
theorem see_balance (t : Tally) (q : Nat) :
    (t.see q).lost + 1 + t.next + t.late = (t.see q).next + (t.see q).late + t.lost := by
  unfold Tally.see
  split
  · simp only
    omega
  · simp only
    omega

theorem foldl_balance (l : List Nat) : ∀ t : Tally,
    (l.foldl Tally.see t).lost + l.length + t.next + t.late =
      (l.foldl Tally.see t).next + (l.foldl Tally.see t).late + t.lost := by
  induction l with
  | nil =>
    intro t
    simp only [List.foldl_nil, List.length_nil]
    omega
  | cons q l ih =>
    intro t
    have hstep := see_balance t q
    have hrest := ih (t.see q)
    simp only [List.foldl_cons, List.length_cons]
    omega

theorem lost_add_length (l : List Nat) :
    (tally l).lost + l.length = (tally l).next + (tally l).late := by
  have h := foldl_balance l Tally.start
  simp only [Tally.start] at h
  exact h

theorem see_next (t : Tally) (q : Nat) : (t.see q).next = max t.next (q + 1) := by
  unfold Tally.see
  split
  · simp only
    omega
  · simp only
    omega

theorem foldl_next (l : List Nat) : ∀ t : Tally,
    (l.foldl Tally.see t).next = max t.next (bound l) := by
  induction l with
  | nil =>
    intro t
    simp [bound]
  | cons q l ih =>
    intro t
    rw [List.foldl_cons, ih, see_next, bound, max_assoc]

theorem tally_next (l : List Nat) : (tally l).next = bound l := by
  rw [tally, foldl_next]
  exact Nat.zero_max _

/-- **The method over-counts by exactly the late arrivals.** -/
theorem lost_eq_missing_add_late {l : List Nat} (h : l.Nodup) :
    (tally l).lost = missing l + (tally l).late := by
  have hbal := lost_add_length l
  have hmiss := missing_add_length h
  rw [tally_next] at hbal
  omega

/-- The late counter is the number of overtaken arrivals. -/
theorem foldl_late (l : List Nat) : ∀ (seen : List Nat) (t : Tally),
    (∀ q, q < t.next ↔ ∃ p ∈ seen, q ≤ p) →
    (l.foldl Tally.see t).late = t.late + overtakenAfter seen l := by
  induction l with
  | nil => intro seen t _; rfl
  | cons q l ih =>
    intro seen t ht
    have hnext : ∀ r, r < (t.see q).next ↔ ∃ p ∈ seen ++ [q], r ≤ p := by
      intro r
      rw [see_next, lt_max_iff, ht r, Nat.lt_succ_iff]
      simp only [List.mem_append, List.mem_singleton, or_and_right, exists_or, exists_eq_left]
    rw [List.foldl_cons, ih _ _ hnext, overtakenAfter]
    unfold Tally.see
    by_cases hq : q < t.next
    · rw [if_pos hq, if_pos ((ht q).mp hq), Nat.add_assoc]
    · rw [if_neg hq, if_neg (fun hp => hq ((ht q).mpr hp)), Nat.zero_add]

theorem tally_late (l : List Nat) : (tally l).late = overtaken l := by
  have h := foldl_late l [] Tally.start (fun q => by simp [Tally.start])
  rw [tally, h]
  exact Nat.zero_add _

theorem overtakenAfter_eq_zero_iff (l : List Nat) : ∀ seen : List Nat,
    overtakenAfter seen l = 0 ↔ (∀ q ∈ l, ∀ p ∈ seen, p < q) ∧ l.Pairwise (· < ·) := by
  induction l with
  | nil => intro seen; simp [overtakenAfter]
  | cons q l ih =>
    intro seen
    rw [overtakenAfter, Nat.add_eq_zero_iff, ih, List.pairwise_cons]
    simp only [ite_eq_right_iff, one_ne_zero, imp_false, not_exists, not_and, Nat.not_le,
      List.mem_append, List.mem_singleton, List.forall_mem_cons]
    constructor
    · rintro ⟨hq, hl, hpw⟩
      exact ⟨⟨hq, fun r hr p hp => hl r hr p (Or.inl hp)⟩, fun r hr => hl r hr q (Or.inr rfl), hpw⟩
    · rintro ⟨⟨hq, hl⟩, hqr, hpw⟩
      refine ⟨hq, fun r hr p hp => ?_, hpw⟩
      rcases hp with hp | rfl
      · exact hl r hr p hp
      · exact hqr r hr

/-- Nothing is late exactly in an increasing stream. -/
theorem overtaken_eq_zero_iff (l : List Nat) : overtaken l = 0 ↔ l.Pairwise (· < ·) := by
  rw [overtaken, overtakenAfter_eq_zero_iff]
  simp

/-- What is missing does not depend on the order of arrival. -/
theorem missing_perm {l l' : List Nat} (h : l.Nodup) (hp : l.Perm l') : missing l = missing l' := by
  have hb : bound l = bound l' := by
    clear h
    induction hp with
    | nil => rfl
    | cons q _ ih => rw [bound, bound, ih]
    | swap p q l => simp only [bound]; omega
    | trans _ _ ih₁ ih₂ => rw [ih₁, ih₂]
  have h₁ := missing_add_length h
  have h₂ := missing_add_length (hp.nodup_iff.mp h)
  have hlen := hp.length_eq
  omega

end GapTally
