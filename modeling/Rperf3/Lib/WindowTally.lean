/-
  ONE-PASS accounts of timed amounts with an INITIAL WINDOW.

  Amounts are counted one after the other, each at an instant.  A tally keeps the total, the part
  of it that fell into a window opened by the first amount (`early first now` says that `now` still
  lies in it), and three instants: of the first amount, of the first amount after the window, of the
  last amount.

  1. **Closed form** (`tally_eq`) — what the five fields are in terms of the whole sequence.
  2. **Order** (`first_le_firstLate`, `early_le_total`) — for amounts counted in the order of time.
-/
import Mathlib.Algebra.Order.BigOperators.Group.List
import Mathlib.Algebra.Order.Group.Nat
import Mathlib.Algebra.Ring.Nat
import Mathlib.Order.Defs.LinearOrder

namespace WindowTally

/-- An amount and the instant at which it was counted. -/
structure Timed (T : Type) where
  amount : Nat
  time : T
  deriving DecidableEq

@[ext]
structure Tally (T : Type) where
  total : Nat
  early : Nat
  first : Option T
  firstLate : Option T
  last : Option T
  deriving DecidableEq

variable {T : Type} (early : T → T → Bool)

def Tally.empty : Tally T := ⟨0, 0, none, none, none⟩

/-- One more amount. -/
def Tally.add (n : Nat) (now : T) (a : Tally T) : Tally T :=
  let first := a.first.getD now
  let inWindow := early first now
  { total := a.total + n
    early := if inWindow then a.early + n else a.early
    first := some first
    firstLate := if inWindow then a.firstLate else some (a.firstLate.getD now)
    last := some now }

/-- The whole sequence. -/
def tally (l : List (Timed T)) : Tally T :=
  l.foldl (fun a x => a.add early x.amount x.time) .empty

theorem tally_concat (l : List (Timed T)) (x : Timed T) :
    tally early (l ++ [x]) = (tally early l).add early x.amount x.time := by
  rw [tally, List.foldl_append]
  rfl

/-! ## Closed form -/

/-- The sum of the amounts. -/
def sum (l : List (Timed T)) : Nat := (l.map Timed.amount).sum

/-- Does `x` lie in the window that the first element of `l` opens? -/
def isEarly (l : List (Timed T)) (x : Timed T) : Bool :=
  l.head?.any fun x₀ => early x₀.time x.time

variable {early}

theorem sum_cons (x : Timed T) (l : List (Timed T)) : sum (x :: l) = x.amount + sum l := rfl

theorem sum_append (l l' : List (Timed T)) : sum (l ++ l') = sum l + sum l' := by
  rw [sum, List.map_append, List.sum_append]
  rfl

/-- The last instant of a longer sequence. -/
theorem last_cons (x : Timed T) (l : List (Timed T)) (o : Option T) :
    (l.getLast?.map Timed.time).or (some x.time) =
      ((x :: l).getLast?.map Timed.time).or o := by
  rw [List.getLast?_cons]
  cases l.getLast? with
  | none => rfl
  | some y => rfl

/-- Once the window is open, everything but the instant that opened it accumulates. -/
theorem foldl_add {t₀ : T} (l : List (Timed T)) : ∀ a : Tally T, a.first = some t₀ →
    l.foldl (fun a x => a.add early x.amount x.time) a =
      { total := a.total + sum l
        early := a.early + sum (l.filter fun x => early t₀ x.time)
        first := some t₀
        firstLate := a.firstLate.or ((l.find? fun x => !early t₀ x.time).map Timed.time)
        last := (l.getLast?.map Timed.time).or a.last } := by
  induction l with
  | nil =>
    intro a ha
    rw [List.foldl_nil, ← ha]
    simp [sum]
  | cons x l ih =>
    intro a ha
    rw [List.foldl_cons, ih (a.add early x.amount x.time) (by simp [Tally.add, ha])]
    have hlast := last_cons x l a.last
    cases hx : early t₀ x.time with
    | true =>
      simp only [Tally.add, ha, Option.getD_some, hx, if_true, hlast, List.filter_cons,
        List.find?_cons, Bool.not_true, sum_cons, Nat.add_assoc]
    | false =>
      simp only [Tally.add, ha, Option.getD_some, hx, hlast, List.filter_cons, List.find?_cons,
        Bool.not_false, sum_cons, Nat.add_assoc, Bool.false_eq_true, if_false]
      cases a.firstLate with
      | none => rfl
      | some f => rfl

/-- **The closed form of a tally.** -/
theorem tally_eq (l : List (Timed T)) :
    tally early l =
      { total := sum l
        early := sum (l.filter (isEarly early l))
        first := l.head?.map Timed.time
        firstLate := (l.find? fun x => !isEarly early l x).map Timed.time
        last := l.getLast?.map Timed.time } := by
  cases l with
  | nil => rfl
  | cons x l =>
    rw [tally, List.foldl_cons, foldl_add l _ rfl]
    have hearly : isEarly early (x :: l) = fun y => early x.time y.time := rfl
    rw [hearly]
    have hlast := last_cons x l none
    rw [Option.or_none] at hlast
    cases hx : early x.time x.time with
    | true =>
      simp [Tally.add, Tally.empty, hx, hlast, sum_cons]
    | false =>
      simp [Tally.add, Tally.empty, hx, hlast, sum_cons]

theorem first_eq_none_iff {l : List (Timed T)} : (tally early l).first = none ↔ l = [] := by
  rw [tally_eq]
  cases l with
  | nil => simp
  | cons x l => simp

theorem early_le_total (l : List (Timed T)) : (tally early l).early ≤ (tally early l).total := by
  rw [tally_eq]
  exact List.Sublist.sum_le_sum (List.filter_sublist.map _) fun _ _ => Nat.zero_le _

/-- The first late amount is one of the amounts. -/
theorem exists_firstLate {l : List (Timed T)} {g : T} (hg : (tally early l).firstLate = some g) :
    ∃ x ∈ l, x.time = g ∧ isEarly early l x = false := by
  rw [tally_eq] at hg
  obtain ⟨x, hx, rfl⟩ := Option.map_eq_some_iff.mp hg
  have hlate := List.find?_some hx
  exact ⟨x, List.mem_of_find?_eq_some hx, rfl, Bool.not_eq_true' _ ▸ hlate⟩

/-! ## Order -/

section Order

variable [LinearOrder T]

/-- Counted in the order of time. -/
def InOrder (l : List (Timed T)) : Prop := l.Pairwise fun x y => x.time ≤ y.time

variable {l : List (Timed T)} {f g : T}

theorem first_le_of_mem (h : InOrder l) (hf : (tally early l).first = some f) {x : Timed T}
    (hx : x ∈ l) : f ≤ x.time := by
  rw [tally_eq] at hf
  cases l with
  | nil => cases hx
  | cons y l =>
    cases hf
    rcases List.mem_cons.mp hx with rfl | hx
    · exact le_refl _
    · exact (List.pairwise_cons.mp h).1 x hx

theorem le_last_of_mem (h : InOrder l) (hg : (tally early l).last = some g) {x : Timed T}
    (hx : x ∈ l) : x.time ≤ g := by
  rw [tally_eq] at hg
  obtain ⟨y, hy, rfl⟩ := Option.map_eq_some_iff.mp hg
  obtain ⟨l', rfl⟩ := List.getLast?_eq_some_iff.mp hy
  rcases List.mem_append.mp hx with hx | hx
  · exact (List.pairwise_append.mp h).2.2 x hx y List.mem_cons_self
  · rw [List.mem_singleton.mp hx]

theorem first_le_firstLate (h : InOrder l) (hf : (tally early l).first = some f)
    (hg : (tally early l).firstLate = some g) : f ≤ g := by
  obtain ⟨x, hx, rfl, -⟩ := exists_firstLate hg
  exact first_le_of_mem h hf hx

end Order

end WindowTally
