/-
  Labelled transition systems given by a PARTIAL STEP FUNCTION.

  A concurrent program is a state type `σ`, an alphabet `α` of atomic actions (one per scheduling
  choice) and `step : α → σ → Option σ`, where `none` says that the action is not enabled.  An
  interleaving is then just a list of actions, and `run` executes it: concrete schedules evaluate,
  and "every reachable state" is an induction with one case per action.

  1. `run` — fold a schedule; `run_append` splits it.
  2. `Reachable` — the states of all schedules; `reachable_iff_run` links the two readings.
  3. `run_history` — the induction rule over the actions so far; `Leads` — some schedule gets from
     one state to another.
  4. `Reachable.invariant` — the induction rule every safety theorem goes through: what holds
     initially and is kept by each single action holds in every reachable state.
-/
import Mathlib.Data.Option.Basic

namespace Transition

/-- A transition system: where runs may start, and what each action does (`none` = not enabled). -/
structure System (σ α : Type) where
  /-- The states a run may start from. -/
  init : σ → Prop
  /-- The effect of one atomic action. -/
  step : α → σ → Option σ

namespace System

variable {σ α : Type} (S : System σ α)

/-- Execute a schedule; `none` as soon as an action of it is not enabled. -/
def run : List α → σ → Option σ
  | [], s => some s
  | a :: as, s => (S.step a s).bind (run as)

theorem run_cons_eq_some {a : α} {as : List α} {s t : σ} :
    S.run (a :: as) s = some t ↔ ∃ u, S.step a s = some u ∧ S.run as u = some t :=
  Option.bind_eq_some_iff

theorem run_append (as bs : List α) (s : σ) :
    S.run (as ++ bs) s = (S.run as s).bind (S.run bs) := by
  induction as generalizing s with
  | nil => rfl
  | cons a as ih =>
    show (S.step a s).bind (S.run (as ++ bs)) = ((S.step a s).bind (S.run as)).bind (S.run bs)
    rw [Option.bind_assoc]
    exact congrArg _ (funext ih)

/-- What every action keeps, every schedule keeps. -/
theorem run_keeps {P : σ → Prop} (hstep : ∀ a s t, S.step a s = some t → P s → P t) {as : List α} :
    ∀ {s t : σ}, S.run as s = some t → P s → P t := by
  induction as with
  | nil =>
    intro s t h hs
    obtain rfl : s = t := Option.some.inj h
    exact hs
  | cons a as ih =>
    intro s t h hs
    obtain ⟨u, hu, hut⟩ := (S.run_cons_eq_some).mp h
    exact ih hut (hstep a s u hu hs)

/-- What a schedule does, by its last action: a property of the schedule so far and the state it
    has reached. -/
theorem run_history {P : List α → σ → Prop} {s₀ : σ} (h0 : P [] s₀)
    (hstep : ∀ as a s t, P as s → S.step a s = some t → P (as ++ [a]) t) :
    ∀ {as : List α} {t : σ}, S.run as s₀ = some t → P as t := by
  have hgo : ∀ (as : List α) {pre : List α} {s t : σ}, P pre s → S.run as s = some t →
      P (pre ++ as) t := by
    intro as
    induction as with
    | nil =>
      intro pre s t hs h
      obtain rfl : s = t := Option.some.inj h
      rw [List.append_nil]
      exact hs
    | cons a as ih =>
      intro pre s t hs h
      obtain ⟨u, hu, hut⟩ := (S.run_cons_eq_some).mp h
      have hrest := ih (hstep pre a s u hs hu) hut
      rw [List.append_assoc] at hrest
      exact hrest
  intro as t h
  exact hgo as h0 h

/-- The states some schedule leads to. -/
inductive Reachable : σ → Prop
  | init {s : σ} : S.init s → Reachable s
  | step {s t : σ} (a : α) : Reachable s → S.step a s = some t → Reachable t

variable {S}

/-- A schedule executed from a reachable state stays reachable. -/
theorem Reachable.run {as : List α} : ∀ {s t : σ}, S.Reachable s → S.run as s = some t →
    S.Reachable t := by
  induction as with
  | nil =>
    intro s t hs ht
    obtain rfl : s = t := Option.some.inj ht
    exact hs
  | cons a as ih =>
    intro s t hs ht
    obtain ⟨u, hu, hut⟩ := (S.run_cons_eq_some).mp ht
    exact ih (hs.step a hu) hut

/-- Reachability is exactly "some schedule gets there". -/
theorem reachable_iff_run {t : σ} :
    S.Reachable t ↔ ∃ s as, S.init s ∧ S.run as s = some t := by
  constructor
  · intro h
    induction h with
    | init h0 => exact ⟨_, [], h0, rfl⟩
    | step a _ hst ih =>
      obtain ⟨s₀, as, h0, hrun⟩ := ih
      refine ⟨s₀, as ++ [a], h0, ?_⟩
      rw [S.run_append, hrun]
      show (S.step a _).bind (S.run []) = some _
      rw [hst]
      rfl
  · rintro ⟨s, as, h0, hrun⟩
    exact (Reachable.init h0).run hrun

/-- Some schedule leads from one state to the other. -/
def Leads (S : System σ α) (s t : σ) : Prop := ∃ as, S.run as s = some t

theorem Leads.refl (s : σ) : S.Leads s s := ⟨[], rfl⟩

theorem Leads.head {s u t : σ} (a : α) (h : S.step a s = some u) (hut : S.Leads u t) :
    S.Leads s t := by
  obtain ⟨as, has⟩ := hut
  exact ⟨a :: as, (S.run_cons_eq_some).mpr ⟨u, h, has⟩⟩

theorem Leads.trans {s u t : σ} (h : S.Leads s u) (hut : S.Leads u t) : S.Leads s t := by
  obtain ⟨as, has⟩ := h
  obtain ⟨bs, hbs⟩ := hut
  exact ⟨as ++ bs, by rw [S.run_append, has]; exact hbs⟩

/-- **The invariant rule.**  A predicate that holds initially and is kept by every single action
    holds in every reachable state. -/
theorem Reachable.invariant {I : σ → Prop} (h0 : ∀ s, S.init s → I s)
    (hstep : ∀ a s t, I s → S.step a s = some t → I t) {s : σ} (h : S.Reachable s) : I s := by
  induction h with
  | init hs => exact h0 _ hs
  | step a _ hst ih => exact hstep a _ _ ih hst

end System

end Transition
