/-
  THE MOVING AVERAGE OF A VARIATION.

  A meter is shown a sequence of values and keeps a moving average of how far each one is from the
  one before, moving `1 / n` of the way at every value; the first value only sets the reference.

  1. `meter_map_add` — the average is blind to a constant added to all values.
  2. `meter_mem_Icc` — it stays between zero and the largest variation (`maxVariation`), because
     every step is a convex combination.
  3. `meter_eq_zero` — so it is zero for a constant sequence.
-/
import Mathlib.Algebra.Order.Field.Basic
import Mathlib.Tactic.Linarith

namespace VariationMeter

variable {K : Type*} [Field K] [LinearOrder K]

/-- The average so far and the last value. -/
structure Meter (K : Type*) where
  avg : K
  last : Option K

def Meter.start : Meter K := ⟨0, none⟩

/-- One value. -/
def Meter.see (n : K) (m : Meter K) (x : K) : Meter K where
  avg :=
    match m.last with
    | some p => m.avg + (|x - p| - m.avg) / n
    | none => m.avg
  last := some x

/-- The whole sequence. -/
def meter (n : K) (xs : List K) : Meter K := xs.foldl (Meter.see n) .start

/-- The distances of neighbours. -/
def variations : List K → List K
  | x :: y :: l => |y - x| :: variations (y :: l)
  | _ => []

/-- The largest distance of neighbours, `0` if there are none. -/
def maxVariation (xs : List K) : K := (variations xs).foldr max 0

theorem le_maxVariation {xs : List K} {v : K} (h : v ∈ variations xs) : v ≤ maxVariation xs := by
  unfold maxVariation
  generalize variations xs = l at h ⊢
  induction l with
  | nil => exact absurd h List.not_mem_nil
  | cons u l ih =>
    rcases List.mem_cons.mp h with rfl | h
    · exact le_max_left _ _
    · exact le_trans (ih h) (le_max_right _ _)

theorem maxVariation_nonneg (xs : List K) : 0 ≤ maxVariation xs := by
  unfold maxVariation
  induction variations xs with
  | nil => exact le_refl 0
  | cons u l ih => exact le_trans ih (le_max_right _ _)

/-! ## Shifts -/

theorem see_add (n c : K) (m : Meter K) (x : K) :
    Meter.see n ⟨m.avg, m.last.map (· + c)⟩ (x + c) =
      ⟨(m.see n x).avg, (m.see n x).last.map (· + c)⟩ := by
  unfold Meter.see
  cases m.last with
  | none => rfl
  | some p => simp only [Option.map_some, add_sub_add_right_eq_sub]

/-- **A constant added to all values does not show.** -/
theorem meter_map_add (n c : K) (xs : List K) :
    (meter n (xs.map (· + c))).avg = (meter n xs).avg := by
  have hfold : ∀ (xs : List K) (m : Meter K),
      (xs.map (· + c)).foldl (Meter.see n) ⟨m.avg, m.last.map (· + c)⟩ =
        ⟨(xs.foldl (Meter.see n) m).avg, (xs.foldl (Meter.see n) m).last.map (· + c)⟩ := by
    intro xs
    induction xs with
    | nil =>
      intro m
      rfl
    | cons x xs ih =>
      intro m
      rw [List.map_cons, List.foldl_cons, List.foldl_cons, see_add, ih]
  have havg := congrArg Meter.avg (hfold xs .start)
  exact havg

/-! ## Bounds -/

variable [IsStrictOrderedRing K]

/-- One value: between the average and the new distance. -/
theorem see_mem_Icc {n M : K} (hn : 1 ≤ n) {m : Meter K} (hlo : 0 ≤ m.avg) (hhi : m.avg ≤ M) {x : K}
    (hx : ∀ p ∈ m.last, |x - p| ≤ M) : 0 ≤ (m.see n x).avg ∧ (m.see n x).avg ≤ M := by
  unfold Meter.see
  cases hlast : m.last with
  | none => exact ⟨hlo, hhi⟩
  | some p =>
    dsimp only
    have hle : |x - p| ≤ M := hx p hlast
    have hpos : 0 < n := lt_of_lt_of_le one_pos hn
    have habs : 0 ≤ |x - p| := abs_nonneg _
    constructor
    · -- the average loses at most itself
      have hloss : -m.avg ≤ (|x - p| - m.avg) / n := by
        rw [le_div_iff₀ hpos]
        nlinarith
      linarith
    · have hgain : (|x - p| - m.avg) / n ≤ M - m.avg := by
        rw [div_le_iff₀ hpos]
        nlinarith
      linarith

/-- The whole sequence: below every bound on the distances. -/
theorem meter_le {n M : K} (hn : 1 ≤ n) (hM : 0 ≤ M) {xs : List K}
    (h : ∀ v ∈ variations xs, v ≤ M) : 0 ≤ (meter n xs).avg ∧ (meter n xs).avg ≤ M := by
  -- the value before `xs` counts as their neighbour
  have hfold : ∀ (xs : List K) (m : Meter K), 0 ≤ m.avg → m.avg ≤ M →
      (∀ v ∈ variations (m.last.toList ++ xs), v ≤ M) →
      0 ≤ (xs.foldl (Meter.see n) m).avg ∧ (xs.foldl (Meter.see n) m).avg ≤ M := by
    intro xs
    induction xs with
    | nil =>
      intro m hlo hhi _
      exact ⟨hlo, hhi⟩
    | cons x xs ih =>
      intro m hlo hhi hvar
      have hx : ∀ p ∈ m.last, |x - p| ≤ M := by
        intro p hp
        rw [Option.mem_def.mp hp] at hvar
        exact hvar _ List.mem_cons_self
      have hrest : ∀ v ∈ variations (x :: xs), v ≤ M := by
        intro v hv
        cases hlast : m.last with
        | none =>
          rw [hlast] at hvar
          exact hvar v hv
        | some p =>
          rw [hlast] at hvar
          exact hvar v (List.mem_cons_of_mem _ hv)
      obtain ⟨hlo', hhi'⟩ := see_mem_Icc hn hlo hhi hx
      exact ih (m.see n x) hlo' hhi' hrest
  exact hfold xs .start (le_refl 0) hM h

/-- **The average stays between zero and the largest variation.** -/
theorem meter_mem_Icc {n : K} (hn : 1 ≤ n) (xs : List K) :
    0 ≤ (meter n xs).avg ∧ (meter n xs).avg ≤ maxVariation xs :=
  meter_le hn (maxVariation_nonneg xs) fun _ hv => le_maxVariation hv

theorem variations_eq_zero {xs : List K} (h : ∀ x ∈ xs, ∀ y ∈ xs, x = y) :
    ∀ v ∈ variations xs, v = 0 := by
  induction xs with
  | nil =>
    intro v hv
    exact absurd hv List.not_mem_nil
  | cons x xs ih =>
    cases xs with
    | nil =>
      intro v hv
      exact absurd hv List.not_mem_nil
    | cons y l =>
      intro v hv
      rcases List.mem_cons.mp hv with rfl | hv
      · have hyx : y = x := h y (List.mem_cons_of_mem x List.mem_cons_self) x List.mem_cons_self
        rw [hyx, sub_self, abs_zero]
      · refine ih (fun a ha b hb => ?_) v hv
        exact h a (List.mem_cons_of_mem x ha) b (List.mem_cons_of_mem x hb)

/-- **A constant sequence has average zero.** -/
theorem meter_eq_zero {n : K} (hn : 1 ≤ n) {xs : List K} (h : ∀ x ∈ xs, ∀ y ∈ xs, x = y) :
    (meter n xs).avg = 0 := by
  obtain ⟨hlo, hhi⟩ := meter_le hn (le_refl 0) fun v hv => (variations_eq_zero h v hv).le
  exact le_antisymm hhi hlo

end VariationMeter
