/-
  LOOPS FED ONE TURN AT A TIME.

  A loop that polls the outside world finds, in every pass through its body, some clock readings and
  the result of a call.  What one pass finds is a TURN `τ`; the body turns it and the loop's local
  state `σ` into a `Flow`: go on, leave the loop, or die of a panic.

  1. `loop` — the run over a list of turns, `none` while the loop would still go on.
  2. `Reaches` — the states in which the loop can stand at the top of its body.
     `Reaches.invariant` is the induction every safety fact goes through, `loop_left` and
     `loop_panicked` say where a finished run comes from.
  3. `through` — the state after given turns, for facts that depend on what the turns are.
  4. `simulates` — a loop written by its own recursion over coarser turns computes the same, when
     it does so turn by turn.
-/
import Mathlib.Logic.Basic

namespace Turns

variable {τ υ σ ρ β : Type}

/-- What one pass through a loop body does. -/
inductive Flow (σ : Type)
  | next (s : σ)
  | leave (s : σ)
  | panic

/-- How a loop is over. -/
inductive Ending (σ : Type)
  | left (s : σ)
  | panicked

/-- Run the body turn by turn. -/
def loop (body : τ → σ → Flow σ) : List τ → σ → Option (Ending σ)
  | [], _ => none
  | t :: ts, s =>
    match body t s with
    | .next s' => loop body ts s'
    | .leave s' => some (.left s')
    | .panic => some .panicked

/-- From `s`, the loop can come to the top of its body in the second state. -/
inductive Reaches (body : τ → σ → Flow σ) (s : σ) : σ → Prop
  | refl : Reaches body s s
  | next {u v : σ} {t : τ} : Reaches body s u → body t u = .next v → Reaches body s v

variable {body : τ → σ → Flow σ}

/-- **The invariant rule.**  What every pass keeps holds wherever the loop gets. -/
theorem Reaches.invariant {P : σ → Prop} (hstep : ∀ t u v, P u → body t u = .next v → P v)
    {s u : σ} (h : Reaches body s u) (hs : P s) : P u := by
  induction h with
  | refl => exact hs
  | next _ hnext ih => exact hstep _ _ _ ih hnext

theorem Reaches.trans {s u v : σ} (h : Reaches body s u) (h' : Reaches body u v) :
    Reaches body s v := by
  induction h' with
  | refl => exact h
  | next _ hnext ih => exact ih.next hnext

theorem Reaches.one {t : τ} {s u : σ} (h : body t s = .next u) : Reaches body s u :=
  Reaches.refl.next h

/-- A finished run ends with a pass that leaves, from a state the loop has reached. -/
theorem loop_left : ∀ {ts : List τ} {s v : σ}, loop body ts s = some (.left v) →
    ∃ u t, Reaches body s u ∧ body t u = .leave v
  | [], s, v, h => by cases h
  | t :: ts, s, v, h => by
    rw [loop] at h
    split at h
    · rename_i s' hnext
      obtain ⟨u, t', hu, hleave⟩ := loop_left h
      exact ⟨u, t', (Reaches.one hnext).trans hu, hleave⟩
    · rename_i s' hleave
      cases h
      exact ⟨s, t, .refl, hleave⟩
    · cases h

theorem loop_panicked : ∀ {ts : List τ} {s : σ}, loop body ts s = some .panicked →
    ∃ u t, Reaches body s u ∧ body t u = .panic
  | [], s, h => by cases h
  | t :: ts, s, h => by
    rw [loop] at h
    split at h
    · rename_i s' hnext
      obtain ⟨u, t', hu, hpanic⟩ := loop_panicked h
      exact ⟨u, t', (Reaches.one hnext).trans hu, hpanic⟩
    · cases h
    · rename_i hpanic
      exact ⟨s, t, .refl, hpanic⟩

/-- Bodies that agree wherever the loop gets make the same runs. -/
theorem loop_congr {body' : τ → σ → Flow σ} : ∀ (ts : List τ) (s : σ),
    (∀ u, Reaches body s u → ∀ t, body' t u = body t u) → loop body' ts s = loop body ts s
  | [], _, _ => rfl
  | t :: ts, s, h => by
    rw [loop, loop, h s .refl t]
    cases hbody : body t s with
    | next s' => exact loop_congr ts s' fun u hu => h u ((Reaches.one hbody).trans hu)
    | leave s' => rfl
    | panic => rfl

/-! ## Given turns -/

/-- The state after the given turns, if none of them leaves the loop. -/
def through (body : τ → σ → Flow σ) : List τ → σ → Option σ
  | [], s => some s
  | t :: ts, s =>
    match body t s with
    | .next s' => through body ts s'
    | _ => none

/-- What each of the given turns keeps holds after all of them. -/
theorem through_invariant {P : σ → Prop} {ts : List τ}
    (hstep : ∀ t ∈ ts, ∀ u v, P u → body t u = .next v → P v) {s u : σ}
    (h : through body ts s = some u) (hs : P s) : P u := by
  induction ts generalizing s with
  | nil =>
    obtain rfl := Option.some.inj h
    exact hs
  | cons t ts ih =>
    rw [through] at h
    cases hbody : body t s with
    | next s' =>
      rw [hbody] at h
      have hs' := hstep t List.mem_cons_self s s' hs hbody
      exact ih (fun t' ht' => hstep t' (List.mem_cons_of_mem t ht')) h hs'
    | leave s' =>
      rw [hbody] at h
      cases h
    | panic =>
      rw [hbody] at h
      cases h

/-- A run goes on from where its first turns lead. -/
theorem loop_append {pre post : List τ} {s u : σ} (h : through body pre s = some u) :
    loop body (pre ++ post) s = loop body post u := by
  induction pre generalizing s with
  | nil =>
    obtain rfl := Option.some.inj h
    rfl
  | cons t ts ih =>
    rw [through] at h
    rw [List.cons_append, loop]
    cases hbody : body t s with
    | next s' =>
      rw [hbody] at h
      exact ih h
    | leave s' =>
      rw [hbody] at h
      cases h
    | panic =>
      rw [hbody] at h
      cases h

/-- A finished run is some turns that go on and one that leaves. -/
theorem loop_left_through {ts : List τ} {s v : σ} (h : loop body ts s = some (.left v)) :
    ∃ pre t post u, ts = pre ++ t :: post ∧ through body pre s = some u ∧ body t u = .leave v := by
  induction ts generalizing s with
  | nil => cases h
  | cons t ts ih =>
    rw [loop] at h
    cases hbody : body t s with
    | next s' =>
      rw [hbody] at h
      obtain ⟨pre, t', post, u, rfl, hthrough, hleave⟩ := ih h
      refine ⟨t :: pre, t', post, u, rfl, ?_, hleave⟩
      rw [through, hbody]
      exact hthrough
    | leave s' =>
      rw [hbody] at h
      cases h
      exact ⟨[], t, ts, s, rfl, rfl, hbody⟩
    | panic =>
      rw [hbody] at h
      cases h

/-! ## Coarser turns -/

/-- The turns of a run, each as seen from the state it is taken in. -/
def seen (body : τ → σ → Flow σ) (view : τ → σ → υ) : List τ → σ → List υ
  | [], _ => []
  | t :: ts, s =>
    view t s ::
      match body t s with
      | .next s' => seen body view ts s'
      | _ => []

/-- **The simulation rule.**  `g` is a loop over the coarser turns; if it follows the body pass by
    pass, from states with an invariant of the body, it follows the whole run. -/
theorem simulates {g : List υ → ρ → Option β} {view : τ → σ → υ} {a : σ → ρ}
    {out : Ending σ → β} {P : σ → Prop} (hkeep : ∀ t u v, P u → body t u = .next v → P v)
    (hnil : ∀ r, g [] r = none)
    (hnext : ∀ t s s' us, P s → body t s = .next s' →
      g (view t s :: us) (a s) = g us (a s'))
    (hleave : ∀ t s s' us, P s → body t s = .leave s' →
      g (view t s :: us) (a s) = some (out (.left s')))
    (hpanic : ∀ t s us, P s → body t s = .panic →
      g (view t s :: us) (a s) = some (out .panicked)) :
    ∀ (ts : List τ) (s : σ), P s →
      g (seen body view ts s) (a s) = (loop body ts s).map out := by
  intro ts
  induction ts with
  | nil =>
    intro s _
    exact hnil _
  | cons t ts ih =>
    intro s hs
    rw [seen, loop]
    cases hbody : body t s with
    | next s' =>
      rw [hnext t s s' _ hs hbody]
      exact ih s' (hkeep t s s' hs hbody)
    | leave s' => exact hleave t s s' _ hs hbody
    | panic => exact hpanic t s _ hs hbody

end Turns
