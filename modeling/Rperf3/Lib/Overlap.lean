/-
  How many STAYS of a minimal length fit into a window, when only so many overlap.

  Each item of a list stays from `start` up to (not including) `stop`.  If every stay lasts at least
  `d` and at no instant more than `W` items are there, then a window of `m * d` sees at most
  `m * W` arrivals (`countP_recent_le`), and at most `(m + 1) * W` items of which some instant of
  their stay, whichever, falls into it (`countP_marked_le`).
-/
import Mathlib.Algebra.Order.Ring.Nat
import Mathlib.Data.List.Count

namespace Overlap

variable {α : Type} (start stop : α → Nat)

/-- Is the item there at this instant? -/
def during (t : Nat) (x : α) : Bool := decide (start x ≤ t ∧ t < stop x)

/-- At no instant are more than `W` items there. -/
def Within (W : Nat) (xs : List α) : Prop := ∀ t, xs.countP (during start stop t) ≤ W

variable {start stop} {W d : Nat} {xs : List α}

/-- Two tests that cover a third one. -/
theorem countP_le_add {p q r : α → Bool} (h : ∀ x ∈ xs, p x = true → q x = true ∨ r x = true) :
    xs.countP p ≤ xs.countP q + xs.countP r := by
  induction xs with
  | nil => exact Nat.zero_le _
  | cons x xs ih =>
    have hrest := ih fun y hy => h y (List.mem_cons_of_mem x hy)
    simp only [List.countP_cons]
    cases hp : p x with
    | false =>
      simp only [Bool.false_eq_true, if_false]
      omega
    | true =>
      rcases h x List.mem_cons_self hp with hq | hr
      · simp only [hq, if_true]
        omega
      · simp only [hr, if_true]
        omega

/-- Items that are all there at one instant. -/
theorem Within.countP_le (hW : Within start stop W xs) {p : α → Bool} (t : Nat)
    (h : ∀ x ∈ xs, p x = true → start x ≤ t ∧ t < stop x) : xs.countP p ≤ W := by
  refine Nat.le_trans (List.countP_mono_left fun x hx hp => ?_) (hW t)
  exact decide_eq_true (h x hx hp)

/-- **Arrivals in a window**: the last `m * d` before `now` see at most `m * W`. -/
theorem countP_recent_le (hW : Within start stop W xs) (hd : ∀ x ∈ xs, start x + d ≤ stop x)
    (now m : Nat) :
    xs.countP (fun x => decide (start x ≤ now ∧ now < start x + m * d)) ≤ m * W := by
  induction m with
  | zero =>
    refine Nat.le_of_eq (Eq.trans (List.countP_eq_zero.mpr fun x _ hx => ?_) (Nat.zero_mul W).symm)
    obtain ⟨hle, hlt⟩ := of_decide_eq_true hx
    omega
  | succ m ih =>
    -- those that came before the last `m * d` were all there when it began
    have hstep : xs.countP (fun x => decide (start x ≤ now ∧ now < start x + (m + 1) * d)) ≤
        xs.countP (fun x => decide (start x ≤ now ∧ now < start x + m * d)) +
          xs.countP (fun x => decide (start x + m * d ≤ now ∧ now < start x + (m + 1) * d)) := by
      refine countP_le_add fun x _ hx => ?_
      obtain ⟨hle, hlt⟩ := of_decide_eq_true hx
      rcases Nat.lt_or_ge now (start x + m * d) with hrecent | hold
      · exact Or.inl (decide_eq_true ⟨hle, hrecent⟩)
      · exact Or.inr (decide_eq_true ⟨hold, hlt⟩)
    have hold : xs.countP (fun x => decide (start x + m * d ≤ now ∧ now < start x + (m + 1) * d)) ≤
        W := by
      refine hW.countP_le (now - m * d) fun x hx hp => ?_
      obtain ⟨hle, hlt⟩ := of_decide_eq_true hp
      have hlen := hd x hx
      rw [Nat.succ_mul] at hlt
      omega
    have hsum : (m + 1) * W = m * W + W := Nat.succ_mul m W
    omega

/-- **Stays that reach into a window.**  Each item is marked at some instant of its stay; at most
    `(m + 1) * W` of the marks fall into the last `m * d` before `now`. -/
theorem countP_marked_le (hW : Within start stop W xs) (hd : ∀ x ∈ xs, start x + d ≤ stop x)
    (mark : α → Nat) (hmark : ∀ x ∈ xs, start x ≤ mark x ∧ mark x ≤ stop x) (now m : Nat) :
    xs.countP (fun x => decide (mark x ≤ now ∧ now < mark x + m * d)) ≤ (m + 1) * W := by
  have hsplit : xs.countP (fun x => decide (mark x ≤ now ∧ now < mark x + m * d)) ≤
      xs.countP (fun x => decide (start x ≤ now ∧ now < start x + m * d)) +
        xs.countP (fun x => decide (start x + m * d ≤ now ∧ now < mark x + m * d)) := by
    refine countP_le_add fun x hx hp => ?_
    obtain ⟨hle, hlt⟩ := of_decide_eq_true hp
    have hfrom := (hmark x hx).1
    rcases Nat.lt_or_ge now (start x + m * d) with hrecent | hold
    · exact Or.inl (decide_eq_true ⟨by omega, hrecent⟩)
    · exact Or.inr (decide_eq_true ⟨hold, hlt⟩)
  have hold : xs.countP (fun x => decide (start x + m * d ≤ now ∧ now < mark x + m * d)) ≤ W := by
    refine hW.countP_le (now - m * d) fun x hx hp => ?_
    obtain ⟨hle, hlt⟩ := of_decide_eq_true hp
    have hto := (hmark x hx).2
    omega
  have hrecent := countP_recent_le hW hd now m
  have hsum : (m + 1) * W = m * W + W := Nat.succ_mul m W
  omega

end Overlap
