/-
  NUMERALS in positional notation, and the loop that reads them with an upper limit.

  1. `Denotes` — a sequence of symbols is digits, and these denote the number.
  2. `read_iff` — the rule for readers: a loop that multiplies, adds and stops at the limit accepts
     exactly the numerals of numbers below the limit.  The limit is tested at every digit, the rule
     says it is enough to test the number: prefixes denote no more than the whole.
  3. `signed_iff` — the same for a reader that first passes over a plus sign.
-/
import Mathlib.Data.List.Forall2
import Mathlib.Data.Nat.Digits.Defs
import Mathlib.Tactic.Ring

namespace Numeral

variable {α : Type*} {digit : α → Option Nat} {radix : Nat}

/-- The symbols are digits that denote `n`, the most significant first. -/
def Denotes (digit : α → Option Nat) (radix : Nat) (s : List α) (n : Nat) : Prop :=
  ∃ ds, List.Forall₂ (fun c d => digit c = some d) s ds ∧ n = Nat.ofDigits radix ds.reverse

/-- The value of `acc` with further digits behind it. -/
def push (radix acc : Nat) (ds : List Nat) : Nat := ds.foldl (fun v d => v * radix + d) acc

theorem push_eq (radix : Nat) (ds : List Nat) : ∀ acc,
    push radix acc ds = acc * radix ^ ds.length + Nat.ofDigits radix ds.reverse := by
  induction ds with
  | nil =>
    intro acc
    simp [push]
  | cons d ds ih =>
    intro acc
    have hstep : push radix acc (d :: ds) = push radix (acc * radix + d) ds := rfl
    rw [hstep, ih, List.reverse_cons, Nat.ofDigits_append, List.length_reverse, List.length_cons,
      Nat.ofDigits_singleton]
    ring

theorem le_push (hradix : 0 < radix) (ds : List Nat) : ∀ acc, acc ≤ push radix acc ds := by
  induction ds with
  | nil =>
    intro acc
    exact Nat.le_refl acc
  | cons d ds ih =>
    intro acc
    calc acc ≤ acc * radix := Nat.le_mul_of_pos_right acc hradix
      _ ≤ acc * radix + d := Nat.le_add_right _ _
      _ ≤ push radix acc (d :: ds) := ih _

section Reader

variable {ε : Type*} {read : Nat → List α → Except ε Nat} {limit : Nat} (hradix : 0 < radix)
  (hnil : ∀ acc, read acc [] = .ok acc)
  (hcons : ∀ acc c cs n, read acc (c :: cs) = .ok n ↔
    ∃ d, digit c = some d ∧ acc * radix + d < limit ∧ read (acc * radix + d) cs = .ok n)
include hradix hnil hcons

theorem read_push_iff (s : List α) : ∀ acc n, acc < limit →
    (read acc s = .ok n ↔
      ∃ ds, List.Forall₂ (fun c d => digit c = some d) s ds ∧ n = push radix acc ds ∧
        n < limit) := by
  induction s with
  | nil =>
    intro acc n hacc
    rw [hnil]
    constructor
    · intro h
      cases h
      exact ⟨[], .nil, rfl, hacc⟩
    · rintro ⟨ds, hds, rfl, -⟩
      cases hds
      rfl
  | cons c cs ih =>
    intro acc n hacc
    rw [hcons]
    constructor
    · rintro ⟨d, hd, hlt, hrest⟩
      obtain ⟨ds, hds, hn, hlimit⟩ := (ih _ _ hlt).mp hrest
      exact ⟨d :: ds, .cons hd hds, hn, hlimit⟩
    · rintro ⟨ds, hds, hn, hlimit⟩
      cases hds with
      | cons hd hds =>
        rename_i d ds
        have hle : acc * radix + d ≤ n := hn ▸ le_push hradix ds (acc * radix + d)
        have hlt := Nat.lt_of_le_of_lt hle hlimit
        exact ⟨d, hd, hlt, (ih _ _ hlt).mpr ⟨ds, hds, hn, hlimit⟩⟩

/-- **The reader's rule.** -/
theorem read_iff (hlimit : 0 < limit) (s : List α) (n : Nat) :
    read 0 s = .ok n ↔ Denotes digit radix s n ∧ n < limit := by
  rw [read_push_iff hradix hnil hcons s 0 n hlimit]
  constructor
  · rintro ⟨ds, hds, rfl, hlt⟩
    exact ⟨⟨ds, hds, by rw [push_eq, Nat.zero_mul, Nat.zero_add]⟩, hlt⟩
  · rintro ⟨⟨ds, hds, hn⟩, hlt⟩
    exact ⟨ds, hds, by rw [push_eq, Nat.zero_mul, Nat.zero_add, hn], hlt⟩

end Reader

theorem Denotes.digit_of_mem {s : List α} {n : Nat} (h : Denotes digit radix s n) {c : α}
    (hc : c ∈ s) : ∃ d, digit c = some d := by
  obtain ⟨ds, hds, -⟩ := h
  induction hds with
  | nil => exact absurd hc List.not_mem_nil
  | cons hd _ ih =>
    rcases List.mem_cons.mp hc with rfl | hc
    · exact ⟨_, hd⟩
    · exact ih hc

/-- One more digit. -/
theorem Denotes.concat {s : List α} {m : Nat} (h : Denotes digit radix s m) {c : α} {d : Nat}
    (hd : digit c = some d) : Denotes digit radix (s ++ [c]) (m * radix + d) := by
  obtain ⟨ds, hds, rfl⟩ := h
  refine ⟨ds ++ [d], List.rel_append hds (.cons hd .nil), ?_⟩
  rw [List.reverse_append, List.reverse_singleton, List.singleton_append, Nat.ofDigits_cons]
  ring

/-! ## Signs -/

/-- At least one digit, with or without a sign before them. -/
def Signed (plus : α) (digit : α → Option Nat) (radix : Nat) (s : List α) (n : Nat) : Prop :=
  ∃ body, (s = body ∨ s = plus :: body) ∧ body ≠ [] ∧ Denotes digit radix body n

theorem not_denotes_cons {c : α} (hc : digit c = none) (cs : List α) (n : Nat) :
    ¬ Denotes digit radix (c :: cs) n := by
  rintro ⟨ds, hds, -⟩
  cases hds with
  | cons hd _ =>
    rw [hc] at hd
    cases hd

/-- **The rule for signs.** -/
theorem signed_iff {plus : α} (hplus : digit plus = none) {ε : Type*}
    {read readSigned : List α → Except ε Nat} {limit : Nat}
    (hread : ∀ s n, read s = .ok n ↔ Denotes digit radix s n ∧ n < limit)
    (hnil : ∀ n, readSigned [] ≠ .ok n) (hbare : ∀ n, readSigned [plus] ≠ .ok n)
    (hsigned : ∀ c cs, readSigned (plus :: c :: cs) = read (c :: cs))
    (hplain : ∀ c cs, c ≠ plus → readSigned (c :: cs) = read (c :: cs)) (s : List α) (n : Nat) :
    readSigned s = .ok n ↔ Signed plus digit radix s n ∧ n < limit := by
  cases s with
  | nil =>
    refine ⟨fun h => absurd h (hnil n), ?_⟩
    rintro ⟨⟨body, hbody | hbody, hne, -⟩, -⟩
    · exact absurd hbody.symm hne
    · cases hbody
  | cons c cs =>
    by_cases hc : c = plus
    · subst hc
      cases cs with
      | nil =>
        refine ⟨fun h => absurd h (hbare n), ?_⟩
        rintro ⟨⟨body, hbody | hbody, hne, hden⟩, -⟩
        · subst hbody
          exact absurd hden (not_denotes_cons hplus _ _)
        · cases hbody
          exact absurd rfl hne
      | cons c' cs =>
        rw [hsigned, hread]
        constructor
        · rintro ⟨hden, hlt⟩
          exact ⟨⟨c' :: cs, .inr rfl, List.cons_ne_nil _ _, hden⟩, hlt⟩
        · rintro ⟨⟨body, hbody | hbody, -, hden⟩, hlt⟩
          · subst hbody
            exact absurd hden (not_denotes_cons hplus _ _)
          · cases hbody
            exact ⟨hden, hlt⟩
    · rw [hplain c cs hc, hread]
      constructor
      · rintro ⟨hden, hlt⟩
        exact ⟨⟨c :: cs, .inl rfl, List.cons_ne_nil _ _, hden⟩, hlt⟩
      · rintro ⟨⟨body, hbody | hbody, -, hden⟩, hlt⟩
        · subst hbody
          exact ⟨hden, hlt⟩
        · cases hbody
          exact absurd rfl hc

end Numeral
