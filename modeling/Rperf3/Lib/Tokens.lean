/-
  The tokens of a list: its maximal stretches without a separator.

  Separators are given by a predicate, so several of them in a row, in front or behind separate
  nothing more.  `tokens_intercalate` — a list of tokens survives being joined and taken apart.
-/
import Mathlib.Data.List.TakeWhile

namespace Tokens

variable {α : Type*} {p : α → Bool}

/-- The non-empty pieces between separators. -/
def tokens (p : α → Bool) (l : List α) : List (List α) :=
  (l.splitOnP p).filter fun piece => !piece.isEmpty

/-- What can stand between two separators. -/
def IsToken (p : α → Bool) (piece : List α) : Prop :=
  piece ≠ [] ∧ ∀ c ∈ piece, p c = false

instance [DecidableEq α] (piece : List α) : Decidable (IsToken p piece) :=
  inferInstanceAs (Decidable (_ ∧ _))

/-- A separator ends a token. -/
theorem tokens_append_cons {sep : α} (hsep : p sep = true) (l m : List α) :
    tokens p (l ++ sep :: m) = tokens p l ++ tokens p m := by
  rw [tokens, List.splitOnP_append_cons l m hsep, List.filter_append]
  rfl

@[simp] theorem tokens_nil : tokens p [] = [] := by
  rw [tokens, List.splitOnP_nil]
  rfl

theorem tokens_cons {sep : α} (hsep : p sep = true) (l : List α) :
    tokens p (sep :: l) = tokens p l := by
  have h := tokens_append_cons hsep [] l
  rwa [tokens_nil] at h

/-- Separators in front do not matter. -/
theorem tokens_dropWhile (l : List α) : tokens p (l.dropWhile p) = tokens p l := by
  induction l with
  | nil => rfl
  | cons c l ih =>
    cases hc : p c with
    | false => rw [List.dropWhile_cons_of_neg (by rw [hc]; decide)]
    | true => rw [List.dropWhile_cons_of_pos hc, ih, tokens_cons hc]

/-- Separators behind do not matter. -/
theorem tokens_append_of_all {l m : List α} (h : ∀ c ∈ m, p c = true) :
    tokens p (l ++ m) = tokens p l := by
  cases m with
  | nil => rw [List.append_nil]
  | cons c m =>
    obtain ⟨hc, hm⟩ := List.forall_mem_cons.mp h
    rw [tokens_append_cons hc, ← tokens_dropWhile m, List.dropWhile_eq_nil_iff.mpr hm, tokens_nil,
      List.append_nil]

theorem tokens_of_isToken {piece : List α} (h : IsToken p piece) : tokens p piece = [piece] := by
  obtain ⟨hne, hfree⟩ := h
  rw [tokens, List.splitOnP_eq_singleton hfree, List.filter_cons_of_pos]
  · rfl
  · rw [Bool.not_eq_true', List.isEmpty_eq_false_iff]
    exact hne

/-- Joining, then splitting. -/
theorem tokens_intercalate {sep : α} (hsep : p sep = true) {ts : List (List α)}
    (h : ∀ t ∈ ts, IsToken p t) : tokens p ([sep].intercalate ts) = ts := by
  induction ts with
  | nil => exact tokens_nil
  | cons t ts ih =>
    have ht := tokens_of_isToken (h t List.mem_cons_self)
    have hrest := ih fun t' ht' => h t' (List.mem_cons_of_mem t ht')
    cases ts with
    | nil => rw [List.intercalate_singleton, ht]
    | cons t' ts =>
      rw [List.intercalate_cons_cons, List.append_assoc, List.singleton_append,
        tokens_append_cons hsep, ht, hrest]
      rfl

/-- Joining brings in nothing but the separator. -/
theorem mem_of_mem_intercalate {sep c : α} {ts : List (List α)} (hc : c ∈ [sep].intercalate ts) :
    c = sep ∨ ∃ t ∈ ts, c ∈ t := by
  induction ts with
  | nil => exact absurd hc List.not_mem_nil
  | cons t ts ih =>
    cases ts with
    | nil =>
      rw [List.intercalate_singleton] at hc
      exact .inr ⟨t, List.mem_cons_self, hc⟩
    | cons t' ts =>
      rw [List.intercalate_cons_cons, List.mem_append, List.mem_append, List.mem_singleton] at hc
      rcases hc with (hc | hc) | hc
      · exact .inr ⟨t, List.mem_cons_self, hc⟩
      · exact .inl hc
      · rcases ih hc with hsep | ⟨u, hu, hcu⟩
        · exact .inl hsep
        · exact .inr ⟨u, List.mem_cons_of_mem t hu, hcu⟩

end Tokens
