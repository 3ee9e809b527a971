/-
  A POOL of processes: a list of local states, the position being the process id.

  Processes are only ever started (appended) and stepped (replaced in place), so all an invariant
  needs is where a lookup and a count go under these two updates.
-/
import Mathlib.Data.List.Basic

namespace Pool

variable {α : Type}

/-- Lookup after process `i` has stepped. -/
theorem getElem?_step {l : List α} {i : Nat} {a : α} (h : l[i]? = some a) (b : α) (j : Nat) :
    (l.set i b)[j]? = if j = i then some b else l[j]? := by
  have hi : i < l.length := (List.getElem?_eq_some_iff.mp h).1
  rw [List.getElem?_set]
  by_cases hij : i = j
  · rw [if_pos hij, if_pos hi, if_pos hij.symm]
  · rw [if_neg hij, if_neg (Ne.symm hij)]

/-- Lookup after a process has been started. -/
theorem getElem?_start (l : List α) (b : α) (j : Nat) :
    (l ++ [b])[j]? = if j = l.length then some b else l[j]? := by
  rcases Nat.lt_trichotomy j l.length with hlt | rfl | hgt
  · rw [List.getElem?_append_left hlt, if_neg (Nat.ne_of_lt hlt)]
  · rw [List.getElem?_concat_length, if_pos rfl]
  · rw [if_neg (Nat.ne_of_gt hgt), List.getElem?_eq_none (by rw [List.length_append]; exact hgt),
      List.getElem?_eq_none (Nat.le_of_lt hgt)]

/-- How many processes satisfy `p`, after process `i` has stepped from `a` to `b`. -/
theorem countP_step {l : List α} {i : Nat} {a : α} (h : l[i]? = some a) (b : α) (p : α → Bool) :
    (l.set i b).countP p + (if p a then 1 else 0) = l.countP p + (if p b then 1 else 0) := by
  induction l generalizing i with
  | nil => cases h
  | cons c l ih =>
    cases i with
    | zero =>
      cases h
      rw [List.set_cons_zero, List.countP_cons, List.countP_cons]
      omega
    | succ i =>
      have := ih (i := i) h
      rw [List.set_cons_succ, List.countP_cons, List.countP_cons]
      omega

/-- Reading `f` off every process does not see a step that keeps it. -/
theorem map_step {β : Type} {f : α → β} {l : List α} {i : Nat} {a b : α} (h : l[i]? = some a)
    (hf : f b = f a) : (l.set i b).map f = l.map f := by
  induction l generalizing i with
  | nil => rfl
  | cons c l ih =>
    cases i with
    | zero =>
      cases h
      rw [List.set_cons_zero, List.map_cons, List.map_cons, hf]
    | succ i =>
      rw [List.set_cons_succ, List.map_cons, List.map_cons, ih h]

/-- What the processes have produced so far, when a step produces nothing. -/
theorem filterMap_step_same {β : Type} {f : α → Option β} {l : List α} {i : Nat} {a b : α}
    (h : l[i]? = some a) (hf : f b = f a) : (l.set i b).filterMap f = l.filterMap f := by
  have hmap : ∀ l : List α, l.filterMap f = (l.map f).filterMap id := by
    intro l
    rw [List.filterMap_map]
    rfl
  rw [hmap, hmap, map_step h hf]

/-- What the processes have produced so far, after process `i` has produced its first `r`. -/
theorem filterMap_step {β : Type} {f : α → Option β} {l : List α} {i : Nat} {a b : α} {r : β}
    (h : l[i]? = some a) (ha : f a = none) (hb : f b = some r) :
    ((l.set i b).filterMap f).Perm (l.filterMap f ++ [r]) := by
  induction l generalizing i with
  | nil => cases h
  | cons c l ih =>
    cases i with
    | zero =>
      cases h
      rw [List.set_cons_zero, List.filterMap_cons_some hb, List.filterMap_cons_none ha]
      exact (List.perm_append_singleton r _).symm
    | succ i =>
      rw [List.set_cons_succ, List.filterMap_cons, List.filterMap_cons]
      cases f c with
      | none => exact ih h
      | some s => exact (ih h).cons s

end Pool
