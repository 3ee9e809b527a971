/-
  Effectful programs as TREES OF OPERATIONS, with two readings.

  A driver that talks to the outside world is a value of `Prog Op Ok ε α`: either it has stopped
  with a result, or it asks for an operation `o : Op` and continues with whatever the world answers
  (`Except ε (Ok o)`).  `Prog` is a monad whose `bind` short-circuits on errors (the `?` operator),
  so a source function is transcribed line by line in `do` notation, ONCE, and then read in three
  ways:

  1. **Executions** (`Exec`) — the finite transcripts of operations and answers a program can
     produce, under no assumption on the world.  `exec_bind` splits the transcript of a sequence;
     `Steps` are the executions that are not finished yet.

  2. **Worlds** (`runIn`) — the run against a concrete world state that answers each operation or
     blocks it for ever.

  3. **Disciplines** (`wp`) — a protocol is a set of phases, the operations each phase allows, the
     answers the world may give there, and the phase each answer leads to.  `D.wp p Q ph` says that
     from phase `ph` the program `p` only ever performs allowed operations and stops in a phase and
     with a result satisfying `Q`.  `wp_bind` is the sequencing rule; `wp_of_neutral` handles whole
     subprograms the protocol does not look at.
-/
import Mathlib.Logic.Basic

namespace Effect

/-- A program over operations `Op` (an operation `o` answers with an `Ok o` or an error). -/
inductive Prog (Op : Type) (Ok : Op → Type) (ε α : Type) : Type
  | ret (r : Except ε α) : Prog Op Ok ε α
  | op (o : Op) (k : Except ε (Ok o) → Prog Op Ok ε α) : Prog Op Ok ε α

namespace Prog

variable {Op : Type} {Ok : Op → Type} {ε α β : Type}

/-- Continue with the full result of `p`, error included. -/
def onResult : Prog Op Ok ε α → (Except ε α → Prog Op Ok ε β) → Prog Op Ok ε β
  | ret r, f => f r
  | op o k, f => op o fun r => (k r).onResult f

/-- How `bind` continues: with the value, or with the error untouched. -/
def onOk (f : α → Prog Op Ok ε β) : Except ε α → Prog Op Ok ε β
  | .ok a => f a
  | .error e => ret (.error e)

/-- Sequencing; an error of `p` ends the whole program. -/
def bind (p : Prog Op Ok ε α) (f : α → Prog Op Ok ε β) : Prog Op Ok ε β :=
  p.onResult (onOk f)

instance : Monad (Prog Op Ok ε) where
  pure a := ret (.ok a)
  bind := bind

/-- Perform one operation and hand its answer on. -/
def perform (o : Op) : Prog Op Ok ε (Ok o) := op o ret

/-- Stop with an error. -/
def fail (e : ε) : Prog Op Ok ε α := ret (.error e)

theorem bind_eq (p : Prog Op Ok ε α) (f : α → Prog Op Ok ε β) :
    (p >>= f) = p.onResult (onOk f) := rfl

instance : LawfulMonad (Prog Op Ok ε) :=
  LawfulMonad.mk' _
    (fun p => by
      show p.onResult (onOk fun a => ret (.ok (id a))) = p
      induction p with
      | ret r =>
        cases r with
        | ok a => rfl
        | error e => rfl
      | op o k ih => exact congrArg (op o) (funext ih))
    (fun _ _ => rfl)
    (fun p f g => by
      show (p.onResult (onOk f)).onResult (onOk g) = p.onResult (onOk fun a => f a >>= g)
      induction p with
      | ret r =>
        cases r with
        | ok a => rfl
        | error e => rfl
      | op o k ih => exact congrArg (op o) (funext ih))

/-- The result in a world that has one answer per operation. -/
def evalWith (answer : (o : Op) → Except ε (Ok o)) : Prog Op Ok ε α → Except ε α
  | ret r => r
  | op o k => (k (answer o)).evalWith answer

theorem evalWith_onResult {answer : (o : Op) → Except ε (Ok o)} (p : Prog Op Ok ε α)
    (f : Except ε α → Prog Op Ok ε β) :
    (p.onResult f).evalWith answer = (f (p.evalWith answer)).evalWith answer := by
  induction p with
  | ret r => rfl
  | op o k ih => exact ih (answer o)

theorem evalWith_bind {answer : (o : Op) → Except ε (Ok o)} {p : Prog Op Ok ε α} {a : α}
    (hp : p.evalWith answer = .ok a) (f : α → Prog Op Ok ε β) :
    (p >>= f).evalWith answer = (f a).evalWith answer := by
  rw [bind_eq, evalWith_onResult, hp]
  rfl

/-! ## Executions -/

/-- One performed operation together with the world's answer. -/
abbrev Event (Op : Type) (Ok : Op → Type) (ε : Type) := (o : Op) × Except ε (Ok o)

/-- `Exec p tr r` — the program `p` can run to its end with transcript `tr` and result `r`. -/
inductive Exec : Prog Op Ok ε α → List (Event Op Ok ε) → Except ε α → Prop
  | ret (r : Except ε α) : Exec (ret r) [] r
  | op {o : Op} {k : Except ε (Ok o) → Prog Op Ok ε α} (a : Except ε (Ok o))
      {tr : List (Event Op Ok ε)} {r : Except ε α} :
      Exec (k a) tr r → Exec (op o k) (⟨o, a⟩ :: tr) r

theorem exec_ret {r r' : Except ε α} {tr : List (Event Op Ok ε)} :
    Exec (ret r) tr r' ↔ tr = [] ∧ r' = r := by
  constructor
  · intro h
    cases h
    exact ⟨rfl, rfl⟩
  · rintro ⟨rfl, rfl⟩
    exact Exec.ret _

theorem exec_op {o : Op} {k : Except ε (Ok o) → Prog Op Ok ε α} {tr : List (Event Op Ok ε)}
    {r : Except ε α} :
    Exec (op o k) tr r ↔ ∃ a tr', tr = ⟨o, a⟩ :: tr' ∧ Exec (k a) tr' r := by
  constructor
  · intro h
    cases h with
    | op a h => exact ⟨a, _, rfl, h⟩
  · rintro ⟨a, tr', rfl, h⟩
    exact Exec.op a h

/-- The transcript of a sequence is the transcript of its first part followed by that of the
    continuation, chosen by the first part's result. -/
theorem exec_onResult {p : Prog Op Ok ε α} {f : Except ε α → Prog Op Ok ε β}
    {tr : List (Event Op Ok ε)} {r : Except ε β} :
    Exec (p.onResult f) tr r ↔
      ∃ tr₁ tr₂ r₁, tr = tr₁ ++ tr₂ ∧ Exec p tr₁ r₁ ∧ Exec (f r₁) tr₂ r := by
  induction p generalizing tr with
  | ret r₀ =>
    constructor
    · intro h
      exact ⟨[], tr, r₀, rfl, Exec.ret r₀, h⟩
    · rintro ⟨tr₁, tr₂, r₁, rfl, h₁, h₂⟩
      obtain ⟨rfl, rfl⟩ := exec_ret.mp h₁
      exact h₂
  | op o k ih =>
    show Exec (op o fun a => (k a).onResult f) tr r ↔ _
    rw [exec_op]
    constructor
    · rintro ⟨a, tr', rfl, h⟩
      obtain ⟨tr₁, tr₂, r₁, rfl, h₁, h₂⟩ := (ih a).mp h
      exact ⟨⟨o, a⟩ :: tr₁, tr₂, r₁, rfl, Exec.op a h₁, h₂⟩
    · rintro ⟨tr₁, tr₂, r₁, rfl, h₁, h₂⟩
      obtain ⟨a, tr', rfl, h₁'⟩ := exec_op.mp h₁
      exact ⟨a, tr' ++ tr₂, rfl, (ih a).mpr ⟨tr', tr₂, r₁, rfl, h₁', h₂⟩⟩

/-- Executions of a `bind`: the first part fails and ends the run, or it succeeds and the rest
    follows. -/
theorem exec_bind {p : Prog Op Ok ε α} {f : α → Prog Op Ok ε β} {tr : List (Event Op Ok ε)}
    {r : Except ε β} :
    Exec (p >>= f) tr r ↔
      (∃ e, Exec p tr (.error e) ∧ r = .error e) ∨
      (∃ tr₁ tr₂ a, tr = tr₁ ++ tr₂ ∧ Exec p tr₁ (.ok a) ∧ Exec (f a) tr₂ r) := by
  rw [bind_eq, exec_onResult]
  constructor
  · rintro ⟨tr₁, tr₂, r₁, rfl, h₁, h₂⟩
    cases r₁ with
    | error e =>
      obtain ⟨rfl, rfl⟩ := exec_ret.mp (h₂ : Exec (ret (.error e)) tr₂ r)
      refine Or.inl ⟨e, ?_, rfl⟩
      rw [List.append_nil]
      exact h₁
    | ok a => exact Or.inr ⟨tr₁, tr₂, a, rfl, h₁, h₂⟩
  · rintro (⟨e, h₁, rfl⟩ | ⟨tr₁, tr₂, a, rfl, h₁, h₂⟩)
    · exact ⟨tr, [], .error e, (List.append_nil tr).symm, h₁, Exec.ret _⟩
    · exact ⟨tr₁, tr₂, .ok a, rfl, h₁, h₂⟩

theorem exec_perform {o : Op} {tr : List (Event Op Ok ε)} {r : Except ε (Ok o)} :
    Exec (perform o) tr r ↔ tr = [⟨o, r⟩] := by
  unfold perform
  rw [exec_op]
  constructor
  · rintro ⟨a, tr', rfl, h⟩
    obtain ⟨rfl, rfl⟩ := exec_ret.mp h
    rfl
  · rintro rfl
    exact ⟨r, [], rfl, Exec.ret r⟩

/-! ### Unfinished executions -/

/-- `Steps p tr q` — with transcript `tr`, the program `p` has come as far as `q`. -/
inductive Steps : Prog Op Ok ε α → List (Event Op Ok ε) → Prog Op Ok ε α → Prop
  | refl (p : Prog Op Ok ε α) : Steps p [] p
  | op {o : Op} {k : Except ε (Ok o) → Prog Op Ok ε α} (a : Except ε (Ok o))
      {tr : List (Event Op Ok ε)} {q : Prog Op Ok ε α} :
      Steps (k a) tr q → Steps (op o k) (⟨o, a⟩ :: tr) q

/-- A finished execution. -/
theorem steps_of_exec {p : Prog Op Ok ε α} {tr : List (Event Op Ok ε)} {r : Except ε α}
    (h : Exec p tr r) : Steps p tr (ret r) := by
  induction h with
  | ret r => exact .refl _
  | op a _ ih => exact .op a ih

/-- One more operation. -/
theorem steps_concat {p : Prog Op Ok ε α} {tr : List (Event Op Ok ε)} {o : Op}
    {k : Except ε (Ok o) → Prog Op Ok ε α} (a : Except ε (Ok o)) (h : Steps p tr (op o k)) :
    Steps p (tr ++ [⟨o, a⟩]) (k a) := by
  generalize hq : op o k = q at h
  induction h with
  | refl p =>
    subst hq
    exact .op a (.refl _)
  | op b _ ih => exact .op b (ih hq)

/-- The first `n` operations of a program in a world that has one answer per operation. -/
def follow (answer : (o : Op) → Except ε (Ok o)) :
    Nat → Prog Op Ok ε α → List (Event Op Ok ε) × Prog Op Ok ε α
  | n + 1, op o k =>
    (⟨o, answer o⟩ :: (follow answer n (k (answer o))).1, (follow answer n (k (answer o))).2)
  | _, p => ([], p)

theorem steps_follow (answer : (o : Op) → Except ε (Ok o)) : ∀ (n : Nat) (p : Prog Op Ok ε α),
    Steps p (p.follow answer n).1 (p.follow answer n).2
  | 0, p => by
    cases p with
    | ret r => exact .refl _
    | op o k => exact .refl _
  | n + 1, ret r => .refl _
  | n + 1, op o k => .op (answer o) (steps_follow answer n (k (answer o)))

/-! ## Worlds -/

/-- Run against a world that answers an operation and moves on, or blocks it (`none`). -/
def runIn {W : Type} (answer : (o : Op) → W → Option (Except ε (Ok o) × W)) :
    Prog Op Ok ε α → W → Option (Except ε α × W)
  | ret r, w => some (r, w)
  | op o k, w => (answer o w).bind fun aw => (k aw.1).runIn answer aw.2

theorem runIn_onResult {W : Type} {answer : (o : Op) → W → Option (Except ε (Ok o) × W)}
    (p : Prog Op Ok ε α) (f : Except ε α → Prog Op Ok ε β) (w : W) :
    (p.onResult f).runIn answer w =
      (p.runIn answer w).bind fun rw => (f rw.1).runIn answer rw.2 := by
  induction p generalizing w with
  | ret r => rfl
  | op o k ih =>
    show ((answer o w).bind fun aw => ((k aw.1).onResult f).runIn answer aw.2) =
      ((answer o w).bind fun aw => (k aw.1).runIn answer aw.2).bind _
    rw [Option.bind_assoc]
    exact congrArg _ (funext fun aw => ih aw.1 aw.2)

theorem runIn_bind_ok {W : Type} {answer : (o : Op) → W → Option (Except ε (Ok o) × W)}
    {p : Prog Op Ok ε α} {w w' : W} {a : α} (h : p.runIn answer w = some (.ok a, w'))
    (f : α → Prog Op Ok ε β) : (p >>= f).runIn answer w = (f a).runIn answer w' := by
  rw [bind_eq, runIn_onResult, h]
  rfl

/-- A successful run of a sequence is a successful run of each part. -/
theorem runIn_bind_eq_ok {W : Type} {answer : (o : Op) → W → Option (Except ε (Ok o) × W)}
    {p : Prog Op Ok ε α} {f : α → Prog Op Ok ε β} {w w' : W} {b : β}
    (h : (p >>= f).runIn answer w = some (.ok b, w')) :
    ∃ a w₁, p.runIn answer w = some (.ok a, w₁) ∧ (f a).runIn answer w₁ = some (.ok b, w') := by
  rw [bind_eq, runIn_onResult] at h
  obtain ⟨⟨r, w₁⟩, hp, hf⟩ := Option.bind_eq_some_iff.mp h
  cases r with
  | error e => cases hf
  | ok a => exact ⟨a, w₁, hp, hf⟩

theorem runIn_perform {W : Type} {answer : (o : Op) → W → Option (Except ε (Ok o) × W)} (o : Op)
    (w : W) : (perform o : Prog Op Ok ε (Ok o)).runIn answer w = answer o w := by
  exact Option.bind_fun_some (answer o w)

/-- A run against a world is an execution. -/
theorem exec_of_runIn {W : Type} {answer : (o : Op) → W → Option (Except ε (Ok o) × W)}
    {p : Prog Op Ok ε α} : ∀ {w w' : W} {r : Except ε α}, p.runIn answer w = some (r, w') →
      ∃ tr, Exec p tr r := by
  induction p with
  | ret r₀ =>
    intro w w' r h
    cases h
    exact ⟨[], Exec.ret r₀⟩
  | op o k ih =>
    intro w w' r h
    obtain ⟨aw, -, hrest⟩ := Option.bind_eq_some_iff.mp h
    obtain ⟨tr, htr⟩ := ih aw.1 hrest
    exact ⟨⟨o, aw.1⟩ :: tr, Exec.op aw.1 htr⟩

end Prog

/-! ## Protocol disciplines -/

open Prog

/-- A protocol over phases `P`: what may be asked where, what the world may answer there, and
    where each answer leads. -/
structure Discipline (Op : Type) (Ok : Op → Type) (ε P : Type) where
  /-- The operations allowed in a phase. -/
  may : P → Op → Prop
  /-- The answers the world can give in a phase. -/
  answers : P → (o : Op) → Except ε (Ok o) → Prop
  /-- The phase after an answered operation. -/
  next : P → (o : Op) → Except ε (Ok o) → P

namespace Discipline

variable {Op : Type} {Ok : Op → Type} {ε P α β : Type} (D : Discipline Op Ok ε P)

/-- From `ph`, the program performs only allowed operations, whatever the world answers, and
    stops with `Q`. -/
def wp : Prog Op Ok ε α → (P → Except ε α → Prop) → P → Prop
  | .ret r, Q, ph => Q ph r
  | .op o k, Q, ph => D.may ph o ∧ ∀ r, D.answers ph o r → wp (k r) Q (D.next ph o r)

variable {D}

theorem wp_mono {p : Prog Op Ok ε α} {Q Q' : P → Except ε α → Prop}
    (hQ : ∀ ph r, Q ph r → Q' ph r) : ∀ {ph : P}, D.wp p Q ph → D.wp p Q' ph := by
  induction p with
  | ret r => exact fun h => hQ _ _ h
  | op o k ih => exact fun h => ⟨h.1, fun r hr => ih r (h.2 r hr)⟩

theorem wp_onResult {p : Prog Op Ok ε α} {f : Except ε α → Prog Op Ok ε β}
    {Q : P → Except ε β → Prop} : ∀ {ph : P},
    D.wp (p.onResult f) Q ph ↔ D.wp p (fun ph r => D.wp (f r) Q ph) ph := by
  induction p with
  | ret r => exact Iff.rfl
  | op o k ih =>
    intro ph
    show (D.may ph o ∧ ∀ r, D.answers ph o r → D.wp ((k r).onResult f) Q (D.next ph o r)) ↔
      (D.may ph o ∧ ∀ r, D.answers ph o r → D.wp (k r) _ (D.next ph o r))
    exact and_congr_right fun _ => forall_congr' fun r => imp_congr_right fun _ => ih r

/-- **The sequencing rule.**  Errors skip the continuation. -/
theorem wp_bind {p : Prog Op Ok ε α} {f : α → Prog Op Ok ε β} {Q : P → Except ε β → Prop}
    {R : P → α → Prop} {ph : P}
    (hp : D.wp p (fun ph r => match r with | .ok a => R ph a | .error e => Q ph (.error e)) ph)
    (hf : ∀ ph a, R ph a → D.wp (f a) Q ph) : D.wp (p >>= f) Q ph := by
  rw [bind_eq, wp_onResult]
  refine wp_mono (fun ph r h => ?_) hp
  cases r with
  | ok a => exact hf ph a h
  | error e => exact h

/-- Sequencing when only the phases matter. -/
theorem wp_bind_phase {p : Prog Op Ok ε α} {f : α → Prog Op Ok ε β} {R Q : P → Prop} {ph : P}
    (hp : D.wp p (fun ph _ => R ph) ph) (hRQ : ∀ ph, R ph → Q ph)
    (hf : ∀ ph a, R ph → D.wp (f a) (fun ph _ => Q ph) ph) :
    D.wp (p >>= f) (fun ph _ => Q ph) ph := by
  refine wp_bind (R := fun ph _ => R ph) (wp_mono (fun ph r h => ?_) hp) hf
  cases r with
  | ok a => exact h
  | error e => exact hRQ ph h

theorem wp_perform {o : Op} {Q : P → Except ε (Ok o) → Prop} {ph : P} (hmay : D.may ph o)
    (hQ : ∀ r, D.answers ph o r → Q (D.next ph o r) r) : D.wp (perform o) Q ph :=
  ⟨hmay, hQ⟩

/-- The operations of a transcript are allowed where they happen. -/
def Allows (D : Discipline Op Ok ε P) : P → List (Event Op Ok ε) → Prop
  | _, [] => True
  | ph, ⟨o, a⟩ :: tr => D.may ph o ∧ Allows D (D.next ph o a) tr

/-- A program that keeps the discipline keeps it in every unfinished execution. -/
theorem wp_steps {p q : Prog Op Ok ε α} {Q : P → Except ε α → Prop}
    (hanswers : ∀ ph o r, D.answers ph o r) {tr : List (Event Op Ok ε)} (h : Steps p tr q) :
    ∀ {ph : P}, D.wp p Q ph → D.Allows ph tr := by
  induction h with
  | refl p => exact fun _ => trivial
  | op a _ ih => exact fun hp => ⟨hp.1, ih (hp.2 a (hanswers _ _ a))⟩

/-- The phase a transcript leads to. -/
def after (D : Discipline Op Ok ε P) (ph : P) (tr : List (Event Op Ok ε)) : P :=
  tr.foldl (fun ph ev => D.next ph ev.1 ev.2) ph

/-- Every operation of an allowed transcript is one that the transcript before it allows. -/
theorem Allows.of_split {ph : P} {before rest : List (Event Op Ok ε)} {ev : Event Op Ok ε}
    (h : D.Allows ph (before ++ ev :: rest)) : D.may (D.after ph before) ev.1 := by
  induction before generalizing ph with
  | nil => exact h.1
  | cons e before ih => exact ih h.2

/-- Every answer of a transcript is one that the world may give, in whatever phase. -/
def Answered (D : Discipline Op Ok ε P) (tr : List (Event Op Ok ε)) : Prop :=
  ∀ ev ∈ tr, ∀ ph, D.answers ph ev.1 ev.2

/-- What every allowed and answered operation keeps holds at the end of the transcript. -/
theorem Allows.invariant {I : P → Prop}
    (hstep : ∀ ph o r, I ph → D.may ph o → D.answers ph o r → I (D.next ph o r))
    {tr : List (Event Op Ok ε)} : ∀ {ph : P}, D.Allows ph tr → D.Answered tr → I ph →
      I (D.after ph tr) := by
  induction tr with
  | nil => exact fun _ _ h => h
  | cons ev tr ih =>
    intro ph hallows hanswered h
    obtain ⟨hhead, htail⟩ := List.forall_mem_cons.mp hanswered
    exact ih hallows.2 htail (hstep ph ev.1 ev.2 h hallows.1 (hhead ph))

/-- A program that keeps the discipline keeps it as long as the world answers as it may. -/
theorem wp_steps_answered {p q : Prog Op Ok ε α} {Q : P → Except ε α → Prop}
    {tr : List (Event Op Ok ε)} (h : Steps p tr q) :
    ∀ {ph : P}, D.wp p Q ph → D.Answered tr → D.Allows ph tr := by
  induction h with
  | refl p => exact fun _ _ => trivial
  | op a _ ih =>
    intro ph hp hanswered
    obtain ⟨hhead, htail⟩ := List.forall_mem_cons.mp hanswered
    exact ⟨hp.1, ih (hp.2 a (hhead ph)) htail⟩

/-- And it ends as promised. -/
theorem wp_exec {p : Prog Op Ok ε α} {Q : P → Except ε α → Prop} {tr : List (Event Op Ok ε)}
    {r : Except ε α} (h : Exec p tr r) :
    ∀ {ph : P}, D.wp p Q ph → D.Answered tr → Q (D.after ph tr) r := by
  induction h with
  | ret r => exact fun hp _ => hp
  | op a _ ih =>
    intro ph hp hanswered
    obtain ⟨hhead, htail⟩ := List.forall_mem_cons.mp hanswered
    exact ih (hp.2 a (hhead ph)) htail

/-- An operation the protocol does not look at: always allowed, and the phase stays. -/
def Neutral (D : Discipline Op Ok ε P) (o : Op) : Prop :=
  ∀ ph, D.may ph o ∧ ∀ r, D.next ph o r = ph

/-- Every operation of the program satisfies `N`, whatever the world answers. -/
def Uses (N : Op → Prop) : Prog Op Ok ε α → Prop
  | .ret _ => True
  | .op o k => N o ∧ ∀ r, Uses N (k r)

theorem uses_onResult {N : Op → Prop} {p : Prog Op Ok ε α} {f : Except ε α → Prog Op Ok ε β}
    (hp : Uses N p) (hf : ∀ r, Uses N (f r)) : Uses N (p.onResult f) := by
  induction p with
  | ret r => exact hf r
  | op o k ih => exact ⟨hp.1, fun r => ih r (hp.2 r)⟩

theorem uses_bind {N : Op → Prop} {p : Prog Op Ok ε α} {f : α → Prog Op Ok ε β}
    (hp : Uses N p) (hf : ∀ a, Uses N (f a)) : Uses N (p >>= f) := by
  refine uses_onResult hp fun r => ?_
  cases r with
  | ok a => exact hf a
  | error e => trivial

theorem uses_mono {N N' : Op → Prop} (hN : ∀ o, N o → N' o) {p : Prog Op Ok ε α} (hp : Uses N p) :
    Uses N' p := by
  induction p with
  | ret r => trivial
  | op o k ih => exact ⟨hN o hp.1, fun r => ih r (hp.2 r)⟩

/-- A transcript holds only operations that the program uses. -/
theorem uses_steps {N : Op → Prop} {p q : Prog Op Ok ε α} {tr : List (Event Op Ok ε)}
    (h : Steps p tr q) (hp : Uses N p) : ∀ ev ∈ tr, N ev.1 := by
  induction h with
  | refl p =>
    intro ev hev
    exact absurd hev List.not_mem_nil
  | op a _ ih =>
    intro ev hev
    rcases List.mem_cons.mp hev with rfl | hev
    · exact hp.1
    · exact ih (hp.2 a) ev hev

theorem uses_exec {N : Op → Prop} {p : Prog Op Ok ε α} (hp : Uses N p) {tr : List (Event Op Ok ε)}
    {r : Except ε α} (h : Exec p tr r) : ∀ ev ∈ tr, N ev.1 :=
  uses_steps (steps_of_exec h) hp

/-- Worlds that answer the program's operations alike give the same run. -/
theorem uses_runIn {N : Op → Prop} {p : Prog Op Ok ε α} (hp : Uses N p) {W : Type}
    {answer answer' : (o : Op) → W → Option (Except ε (Ok o) × W)}
    (h : ∀ o, N o → answer o = answer' o) (w : W) : p.runIn answer w = p.runIn answer' w := by
  induction p generalizing w with
  | ret r => rfl
  | op o k ih =>
    show (answer o w).bind _ = (answer' o w).bind _
    rw [h o hp.1]
    exact congrArg _ (funext fun aw => ih aw.1 (hp.2 aw.1) aw.2)

/-- A program of operations that the protocol allows in `ph` and that leave it there. -/
theorem wp_of_stays {ph : P} {p : Prog Op Ok ε α}
    (hp : Uses (fun o => D.may ph o ∧ ∀ r, D.next ph o r = ph) p) {Q : P → Except ε α → Prop}
    (hQ : ∀ r, Q ph r) : D.wp p Q ph := by
  induction p with
  | ret r => exact hQ r
  | op o k ih =>
    refine ⟨hp.1.1, fun r _ => ?_⟩
    rw [hp.1.2 r]
    exact ih r (hp.2 r)

/-- A program of neutral operations leaves the phase where it was. -/
theorem wp_of_neutral {p : Prog Op Ok ε α} (hp : Uses D.Neutral p)
    {Q : P → Except ε α → Prop} {ph : P} (hQ : ∀ r, Q ph r) : D.wp p Q ph :=
  wp_of_stays (uses_mono (fun _ ho => ho ph) hp) hQ

/-! ### Returning and failing -/

/-- From `ph`, the program keeps the discipline; it returns `v` only in a phase with `R`, and fails
    only in a phase with `E`. -/
def Ensures (D : Discipline Op Ok ε P) (p : Prog Op Ok ε α) (ph : P) (R : P → α → Prop)
    (E : P → Prop) : Prop :=
  D.wp p (fun ph' r => (∀ v, r = .ok v → R ph' v) ∧ ∀ e, r = .error e → E ph') ph

section Ensures

variable {ph : P} {R : P → α → Prop} {E : P → Prop}

theorem ensures_pure {v : α} (h : R ph v) : D.Ensures (pure v) ph R E := by
  constructor
  · intro w hw
    obtain rfl := Except.ok.inj hw
    exact h
  · intro e he
    cases he

theorem ensures_fail {e : ε} (h : E ph) : D.Ensures (fail e) ph R E := by
  constructor
  · intro w hw
    cases hw
  · intro _ _
    exact h

theorem Ensures.bind {p : Prog Op Ok ε α} {f : α → Prog Op Ok ε β} {S : P → β → Prop}
    (hp : D.Ensures p ph R E) (hf : ∀ ph' v, R ph' v → D.Ensures (f v) ph' S E) :
    D.Ensures (p >>= f) ph S E := by
  refine wp_bind (R := R) (wp_mono (fun ph' r h => ?_) hp) hf
  cases r with
  | ok v => exact h.1 v rfl
  | error e =>
    constructor
    · intro w hw
      cases hw
    · intro _ _
      exact h.2 e rfl

theorem Ensures.mono {p : Prog Op Ok ε α} {S : P → α → Prop} (hp : D.Ensures p ph R E)
    (hR : ∀ ph' v, R ph' v → S ph' v) : D.Ensures p ph S E :=
  wp_mono (fun ph' _ h => ⟨fun v hv => hR ph' v (h.1 v hv), h.2⟩) hp

theorem ensures_perform_bind {o : Op} {f : Ok o → Prog Op Ok ε α} (hmay : D.may ph o)
    (hE : ∀ e, D.answers ph o (.error e) → E (D.next ph o (.error e)))
    (hf : ∀ v, D.answers ph o (.ok v) → D.Ensures (f v) (D.next ph o (.ok v)) R E) :
    D.Ensures (perform o >>= f) ph R E := by
  refine ⟨hmay, fun r hr => ?_⟩
  cases r with
  | ok v => exact hf v hr
  | error e => exact ensures_fail (hE e hr)

/-- The operation is allowed in this phase and does not leave it. -/
def Overlooks (D : Discipline Op Ok ε P) (ph : P) (o : Op) : Prop :=
  D.may ph o ∧ ∀ r, D.next ph o r = ph

/-- A program of operations that the protocol overlooks. -/
theorem ensures_of_overlooks {p : Prog Op Ok ε α} (hp : Uses (D.Overlooks ph) p) (hE : E ph)
    (hR : ∀ v, R ph v) : D.Ensures p ph R E :=
  wp_of_stays hp fun _ => ⟨fun v _ => hR v, fun _ _ => hE⟩

theorem ensures_overlooked_bind {p : Prog Op Ok ε β} {f : β → Prog Op Ok ε α}
    (hp : Uses (D.Overlooks ph) p) (hE : E ph) (hf : ∀ v, D.Ensures (f v) ph R E) :
    D.Ensures (p >>= f) ph R E := by
  have hstays : D.Ensures p ph (fun ph' _ => ph' = ph) E := ensures_of_overlooks hp hE fun _ => rfl
  refine hstays.bind ?_
  rintro _ v rfl
  exact hf v

theorem Ensures.exec {p : Prog Op Ok ε α} {tr : List (Event Op Ok ε)} {r : Except ε α}
    (hp : D.Ensures p ph R E) (h : Exec p tr r) (hanswered : D.Answered tr) :
    (∀ v, r = .ok v → R (D.after ph tr) v) ∧ ∀ e, r = .error e → E (D.after ph tr) :=
  wp_exec h hp hanswered

end Ensures

end Discipline

end Effect
