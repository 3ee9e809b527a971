/-
  A FIFO CHANNEL that remembers what has passed through it, and what it means for its two ends to
  follow the same SCRIPT.

  1. `Fifo` — what has been read (`taken`) and what is still in flight (`pending`); their
     concatenation `sent` is everything ever written, which reading does not change.

  2. `Between S q r w` — a script is a transition system over the units of the channel; the reader
     has got to `r`, the writer to `w`, and the units in flight lead from `r` to `w`.  Writing moves
     `w` (`between_push`), reading moves `r` (`between_pop`), and on an empty channel both ends are
     at the same place (`between_empty`).  This is all a proof about two communicating parties needs
     to know about the channel between them.  A unit the script does not tell apart from the one
     written may be read in its place (`between_mapFront`).
-/
import Rperf3.Lib.Transition

/-- A FIFO channel: the units read so far and the units in flight, oldest first. -/
structure Fifo (α : Type) where
  taken : List α
  pending : List α
  deriving DecidableEq

namespace Fifo

variable {α : Type}

/-- The unused channel. -/
def empty : Fifo α := ⟨[], []⟩

/-- Everything ever written. -/
def sent (q : Fifo α) : List α := q.taken ++ q.pending

/-- Write one unit. -/
def push (q : Fifo α) (a : α) : Fifo α := ⟨q.taken, q.pending ++ [a]⟩

/-- Read one unit; `none` when nothing is in flight. -/
def pop (q : Fifo α) : Option (α × Fifo α) :=
  match q.pending with
  | [] => none
  | a :: rest => some (a, ⟨q.taken ++ [a], rest⟩)

/-- The channel as a reader sees it that gets `f a` when the next unit is `a`. -/
def mapFront (f : α → α) (q : Fifo α) : Fifo α := ⟨q.taken, q.pending.modifyHead f⟩

@[simp] theorem sent_push (q : Fifo α) (a : α) : (q.push a).sent = q.sent ++ [a] :=
  (List.append_assoc _ _ _).symm

theorem mem_sent_push {q : Fifo α} {a b : α} : b ∈ (q.push a).sent ↔ b ∈ q.sent ∨ b = a := by
  rw [sent_push, List.mem_append, List.mem_singleton]

theorem count_sent_push_of_ne [DecidableEq α] {q : Fifo α} {a b : α} (h : a ≠ b) :
    (q.push a).sent.count b = q.sent.count b := by
  rw [sent_push, List.count_append, List.count_singleton, if_neg (by simpa using h)]
  rfl

theorem pop_eq_none {q : Fifo α} : q.pop = none ↔ q.pending = [] := by
  unfold pop
  split
  · rename_i h
    exact ⟨fun _ => h, fun _ => rfl⟩
  · rename_i a rest h
    rw [h]
    exact ⟨fun hpop => absurd hpop (Option.some_ne_none _),
      fun hnil => absurd hnil (List.cons_ne_nil a rest)⟩

theorem pop_eq_some {q q' : Fifo α} {a : α} :
    q.pop = some (a, q') ↔ q.pending = a :: q'.pending ∧ q'.taken = q.taken ++ [a] := by
  unfold pop
  split
  · rename_i h
    rw [h]
    exact ⟨fun hpop => absurd hpop.symm (Option.some_ne_none _),
      fun hq => absurd hq.1.symm (List.cons_ne_nil a q'.pending)⟩
  · rename_i b rest h
    rw [h]
    constructor
    · intro hpop
      cases hpop
      exact ⟨rfl, rfl⟩
    · rintro ⟨hpending, htaken⟩
      cases hpending
      show some (a, Fifo.mk (q.taken ++ [a]) q'.pending) = _
      rw [← htaken]

theorem pop_push_of_empty {q : Fifo α} (h : q.pending = []) (a : α) :
    (q.push a).pop = some (a, ⟨q.taken ++ [a], []⟩) := by
  refine pop_eq_some.mpr ⟨?_, rfl⟩
  show q.pending ++ [a] = [a]
  rw [h]
  rfl

/-- Reading does not change what has been written. -/
theorem sent_of_pop {q q' : Fifo α} {a : α} (h : q.pop = some (a, q')) : q'.sent = q.sent := by
  obtain ⟨hpending, htaken⟩ := pop_eq_some.mp h
  unfold sent
  rw [hpending, htaken, List.append_assoc]
  rfl

theorem taken_of_pop {q q' : Fifo α} {a : α} (h : q.pop = some (a, q')) :
    q'.taken = q.taken ++ [a] :=
  (pop_eq_some.mp h).2

theorem mem_sent_of_mem_taken {q : Fifo α} {a : α} (h : a ∈ q.taken) : a ∈ q.sent :=
  List.mem_append_left _ h

/-! ## Two ends, one script -/

section Script

variable {σ : Type} {S : Transition.System σ α}

/-- The units in flight lead from the reader's place in the script to the writer's. -/
def Between (S : Transition.System σ α) (q : Fifo α) (reader writer : σ) : Prop :=
  S.run q.pending reader = some writer

theorem between_push {q : Fifo α} {r w w' : σ} {a : α} (h : Between S q r w)
    (hstep : S.step a w = some w') : Between S (q.push a) r w' := by
  show S.run (q.pending ++ [a]) r = some w'
  rw [S.run_append, show S.run q.pending r = some w from h]
  show (S.step a w).bind (S.run []) = some w'
  rw [hstep]
  rfl

theorem between_pop {q q' : Fifo α} {r w : σ} {a : α} (h : Between S q r w)
    (hpop : q.pop = some (a, q')) : ∃ r', S.step a r = some r' ∧ Between S q' r' w := by
  unfold Between at h
  rw [(pop_eq_some.mp hpop).1] at h
  exact (S.run_cons_eq_some).mp h

theorem between_empty {q : Fifo α} {r w : σ} (h : Between S q r w) (hempty : q.pending = []) :
    r = w := by
  unfold Between at h
  rw [hempty] at h
  exact Option.some.inj h

theorem between_mapFront {f : α → α} (hf : ∀ a s, S.step (f a) s = S.step a s) {q : Fifo α}
    {r w : σ} (h : Between S q r w) : Between S (q.mapFront f) r w := by
  unfold Between mapFront at *
  cases hq : q.pending with
  | nil =>
    rw [hq] at h
    exact h
  | cons a rest =>
    rw [hq] at h
    show (S.step (f a) r).bind (S.run rest) = some w
    rw [hf]
    exact h

/-- What the script only ever gains, the writer has if the reader has. -/
theorem between_keeps {P : σ → Prop} (hstep : ∀ a s t, S.step a s = some t → P s → P t)
    {q : Fifo α} {r w : σ} (h : Between S q r w) (hr : P r) : P w :=
  S.run_keeps hstep h hr

end Script

end Fifo
