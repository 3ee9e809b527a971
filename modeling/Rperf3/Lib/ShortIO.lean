/-
  EXACT READS and COMPLETE WRITES on a socket that does neither in one call.

  A socket is a state `σ`.  One `recv n` returns at most `n` elements (none at the end of the
  stream), one `send buf` takes some prefix of `buf` and says how much; both may fail.  On top of
  them stand the two loops every framed protocol uses:

  1. `readExact n` — receive until `n` elements have arrived.  `readExact_spec_on`: when `recv` is
     `Faithful` to a stream (whatever its chunking), the loop returns the first `n` elements and
     leaves exactly the others, or reports the end of the stream when there are fewer than `n`.

  2. `writeAll buf` — send until `buf` is gone.  `writes_writeAll`: whatever each `send` does, the
     socket ends up with a prefix of `buf`, and with all of it exactly when the loop reports
     success, which is when every call it makes takes something (`Writes`, closed under sequencing).
     Only the last call can be refused; if it is not the first, the write is cut in the middle.

  Three concrete sockets: `Chunks` delivers a stream in arbitrary non-empty pieces, `arrivedRecv`
  what has arrived on a connection that stays open, and `Sink` records what it has been given and
  answers each `send` after a schedule.
-/
import Mathlib.Data.List.Basic

namespace ShortIO

/-- A computation on a socket in state `σ`; an error leaves the socket where it had got to. -/
abbrev Sock (σ ε α : Type) := ExceptT ε (StateM σ) α

variable {σ ε α β : Type}

/-- The outcome of a computation on the socket `s`, and the socket afterwards. -/
def Sock.on (x : Sock σ ε α) (s : σ) : Except ε α × σ := StateT.run (ExceptT.run x) s

theorem on_pure (a : α) (s : σ) : Sock.on (pure a : Sock σ ε α) s = (.ok a, s) := rfl

/-- After a success the continuation runs on the socket as the first part left it. -/
theorem on_bind_ok {x : Sock σ ε α} {f : α → Sock σ ε β} {s s' : σ} {a : α}
    (h : x.on s = (.ok a, s')) : (x >>= f).on s = (f a).on s' := by
  show (ExceptT.bindCont f (x.on s).1) (x.on s).2 = _
  rw [h]
  rfl

/-- After an error nothing more happens. -/
theorem on_bind_error {x : Sock σ ε α} {f : α → Sock σ ε β} {s s' : σ} {e : ε}
    (h : x.on s = (.error e, s')) : (x >>= f).on s = (.error e, s') := by
  show (ExceptT.bindCont f (x.on s).1) (x.on s).2 = _
  rw [h]
  rfl

/-! ## Exact reads -/

/-- Receive until `n` elements have arrived; `eof` is the error of a stream that ends before. -/
def readExact (recv : Nat → Sock σ ε (List α)) (eof : ε) (n : Nat) : Sock σ ε (List α) :=
  if _h : n = 0 then pure []
  else do
    match ← recv n with
    | [] => throw eof
    | b :: bs =>
      let rest ← readExact recv eof (n - (bs.length + 1))
      pure (b :: bs ++ rest)
termination_by n
decreasing_by omega

/-! What the first `recv` of an exact read decides. -/

theorem readExact_recv_error {recv : Nat → Sock σ ε (List α)} {eof e : ε} {n : Nat} {s s' : σ}
    (hn : 0 < n) (h : (recv n).on s = (.error e, s')) :
    (readExact recv eof n).on s = (.error e, s') := by
  rw [readExact, dif_neg (Nat.ne_of_gt hn), on_bind_error h]

theorem readExact_recv_end {recv : Nat → Sock σ ε (List α)} {eof : ε} {n : Nat} {s s' : σ}
    (hn : 0 < n) (h : (recv n).on s = (.ok [], s')) :
    (readExact recv eof n).on s = (.error eof, s') := by
  rw [readExact, dif_neg (Nat.ne_of_gt hn), on_bind_ok h]
  rfl

theorem readExact_one {recv : Nat → Sock σ ε (List α)} {eof : ε} {a : α} {s s' : σ}
    (h : (recv 1).on s = (.ok [a], s')) : (readExact recv eof 1).on s = (.ok [a], s') := by
  rw [readExact, dif_neg Nat.one_ne_zero, on_bind_ok h]
  show Sock.on (readExact recv eof 0 >>= _) s' = _
  rw [readExact]
  rfl

/-- As long as `I` holds, `recv` hands out the elements of `stream`, in order, as many at a time as
    it likes, and nothing only when none is left; it keeps `I`. -/
def FaithfulOn (I : σ → Prop) (recv : Nat → Sock σ ε (List α)) (stream : σ → List α) : Prop :=
  ∀ (n : Nat) (s : σ), I s → 0 < n → ∃ xs s', (recv n).on s = (.ok xs, s') ∧ I s' ∧
    xs.length ≤ n ∧ stream s = xs ++ stream s' ∧ (xs = [] → stream s = [])

/-- **What an exact read does**, for every chunking: enough elements, and it returns the first `n`
    and leaves the others; too few, and it reports the end of the stream, having read it all. -/
theorem readExact_spec_on {I : σ → Prop} {recv : Nat → Sock σ ε (List α)} {stream : σ → List α}
    (hrecv : FaithfulOn I recv stream) (eof : ε) (n : Nat) (s : σ) (hI : I s) :
    (n ≤ (stream s).length → ∃ s', (readExact recv eof n).on s = (.ok ((stream s).take n), s') ∧
      I s' ∧ stream s' = (stream s).drop n) ∧
    ((stream s).length < n → ∃ s', (readExact recv eof n).on s = (.error eof, s') ∧
      I s' ∧ stream s' = []) := by
  induction n using Nat.strongRecOn generalizing s with
  | _ n ih =>
    rw [readExact]
    by_cases h0 : n = 0
    · subst h0
      exact ⟨fun _ => ⟨s, rfl, hI, rfl⟩, fun h => absurd h (by omega)⟩
    · obtain ⟨xs, s₁, hr, hI₁, hle, hs, hend⟩ := hrecv n s hI (by omega)
      rw [dif_neg h0, on_bind_ok hr]
      match xs, hle, hs, hend with
      | [], _, hs, hend =>
        have hnil : stream s = [] := hend rfl
        rw [hnil] at hs ⊢
        exact ⟨fun h => absurd h (by simp only [List.length_nil]; omega),
          fun _ => ⟨s₁, rfl, hI₁, hs.symm⟩⟩
      | b :: bs, hle, hs, _ =>
        have hlen : (b :: bs).length = bs.length + 1 := rfl
        -- what is still missing is asked of what the first `recv` left
        obtain ⟨hok, heof⟩ := ih (n - (bs.length + 1)) (by omega) s₁ hI₁
        rw [hs, List.length_append, hlen]
        refine ⟨fun h => ?_, fun h => ?_⟩
        · obtain ⟨s₂, hrest, hI₂, hs₂⟩ := hok (by omega)
          refine ⟨s₂, ?_, hI₂, ?_⟩
          · show Sock.on (_ >>= _) s₁ = _
            rw [on_bind_ok hrest, on_pure, List.take_append, List.take_of_length_le hle, hlen]
          · rw [hs₂, List.drop_append, List.drop_eq_nil_of_le hle, List.nil_append, hlen]
        · obtain ⟨s₂, hrest, hI₂, hs₂⟩ := heof (by omega)
          exact ⟨s₂, on_bind_error hrest, hI₂, hs₂⟩

/-- An exact read takes `n` elements, or all there are. -/
theorem readExact_stream {I : σ → Prop} {recv : Nat → Sock σ ε (List α)} {stream : σ → List α}
    (hrecv : FaithfulOn I recv stream) (eof : ε) (n : Nat) {s : σ} (hI : I s) :
    ∃ r s', (readExact recv eof n).on s = (r, s') ∧ I s' ∧ stream s' = (stream s).drop n ∧
      (r = .ok ((stream s).take n) ∧ n ≤ (stream s).length ∨
        r = .error eof ∧ (stream s).length < n) := by
  obtain ⟨hok, heof⟩ := readExact_spec_on hrecv eof n s hI
  rcases Nat.lt_or_ge (stream s).length n with hlt | hle
  · obtain ⟨s', hread, hI', hs'⟩ := heof hlt
    exact ⟨_, s', hread, hI', hs'.trans (List.drop_eq_nil_of_le (Nat.le_of_lt hlt)).symm,
      Or.inr ⟨rfl, hlt⟩⟩
  · obtain ⟨s', hread, hI', hs'⟩ := hok hle
    exact ⟨_, s', hread, hI', hs', Or.inl ⟨rfl, hle⟩⟩

/-- `recv` hands out the elements of `stream`, in order, as many at a time as it likes, and
    nothing only when none is left. -/
def Faithful (recv : Nat → Sock σ ε (List α)) (stream : σ → List α) : Prop :=
  ∀ (n : Nat) (s : σ), 0 < n → ∃ xs s', (recv n).on s = (.ok xs, s') ∧ xs.length ≤ n ∧
    stream s = xs ++ stream s' ∧ (xs = [] → stream s = [])

theorem Faithful.on {recv : Nat → Sock σ ε (List α)} {stream : σ → List α}
    (h : Faithful recv stream) : FaithfulOn (fun _ => True) recv stream := by
  intro n s _ hn
  obtain ⟨xs, s', hr, hrest⟩ := h n s hn
  exact ⟨xs, s', hr, trivial, hrest⟩

theorem readExact_ok {recv : Nat → Sock σ ε (List α)} {stream : σ → List α}
    (hrecv : Faithful recv stream) (eof : ε) {s : σ} {xs rest : List α}
    (hs : stream s = xs ++ rest) :
    ∃ s', (readExact recv eof xs.length).on s = (.ok xs, s') ∧ stream s' = rest := by
  obtain ⟨s', hread, -, hrest⟩ := (readExact_spec_on hrecv.on eof xs.length s trivial).1
    (by rw [hs, List.length_append]; omega)
  rw [hs, List.take_left] at hread
  rw [hs, List.drop_left] at hrest
  exact ⟨s', hread, hrest⟩

theorem readExact_eof {recv : Nat → Sock σ ε (List α)} {stream : σ → List α}
    (hrecv : Faithful recv stream) (eof : ε) {n : Nat} {s : σ} (hs : (stream s).length < n) :
    ∃ s', (readExact recv eof n).on s = (.error eof, s') := by
  obtain ⟨s', hread, -⟩ := (readExact_spec_on hrecv.on eof n s trivial).2 hs
  exact ⟨s', hread⟩

/-! ## A stream delivered in pieces -/

/-- A stream still to be received, in the non-empty pieces the network delivers it in; after the
    last piece comes the end of the stream. -/
structure Chunks (α : Type) where
  parts : List (List α)
  nonempty : ∀ p ∈ parts, p ≠ []

namespace Chunks

/-- All elements still to come. -/
def stream (c : Chunks α) : List α := c.parts.flatten

/-- Put a piece in front; an empty one is no piece. -/
def push : List α → Chunks α → Chunks α
  | [], c => c
  | b :: bs, c => ⟨(b :: bs) :: c.parts, by
      rintro p (_ | ⟨_, hp⟩)
      · exact List.cons_ne_nil b bs
      · exact c.nonempty p hp⟩

theorem stream_push (xs : List α) (c : Chunks α) : (push xs c).stream = xs ++ c.stream := by
  cases xs with
  | nil => rfl
  | cons b bs => rfl

/-- One `recv` with room for `n` elements: the next piece, or what fits of it. -/
def recv (n : Nat) : Sock (Chunks α) ε (List α) := fun
  | ⟨[], h⟩ => (.ok [], ⟨[], h⟩)
  | ⟨p :: ps, h⟩ =>
    (.ok (p.take n), push (p.drop n) ⟨ps, fun q hq => h q (List.mem_cons_of_mem p hq)⟩)

theorem faithful_recv : Faithful (recv : Nat → Sock (Chunks α) ε (List α)) stream := by
  rintro n ⟨parts, hne⟩ hn
  match parts, hne with
  | [], hne => exact ⟨[], ⟨[], hne⟩, rfl, Nat.zero_le n, rfl, fun _ => rfl⟩
  | p :: ps, hne =>
    refine ⟨p.take n, _, rfl, List.length_take_le n p, ?_, fun h => ?_⟩
    · rw [stream_push, ← List.append_assoc, List.take_append_drop]
      rfl
    · have hp : p ≠ [] := hne p List.mem_cons_self
      rcases List.take_eq_nil_iff.mp h with h | h
      · omega
      · exact absurd h hp

end Chunks

/-! ## What has arrived on an open connection -/

/-- One `recv` when this much has arrived and the connection is open: what fits of it, or `dry` when
    there is nothing yet. -/
def arrivedRecv (dry : ε) (n : Nat) : Sock (List α) ε (List α) := fun
  | [] => (.error dry, [])
  | b :: bs => (.ok ((b :: bs).take n), (b :: bs).drop n)

/-- An exact read on an open connection takes its elements, or runs dry. -/
theorem readExact_arrived (dry eof : ε) (n : Nat) (xs : List α) :
    (readExact (arrivedRecv dry) eof n).on xs =
      if n ≤ xs.length then (.ok (xs.take n), xs.drop n) else (.error dry, []) := by
  rcases Nat.eq_zero_or_pos n with rfl | hn
  · rw [readExact, dif_pos rfl, if_pos (Nat.zero_le _), List.take_zero, List.drop_zero]
    rfl
  cases xs with
  | nil =>
    rw [if_neg (by simp only [List.length_nil]; omega)]
    exact readExact_recv_error hn rfl
  | cons b bs =>
    obtain ⟨m, rfl⟩ := Nat.exists_eq_add_one.mpr hn
    have hrecv : (arrivedRecv dry (m + 1)).on (b :: bs) =
        ((.ok (b :: bs.take m), bs.drop m) : Except ε (List α) × List α) := rfl
    rw [readExact, dif_neg (Nat.succ_ne_zero m), on_bind_ok hrecv]
    show Sock.on (readExact (arrivedRecv dry) eof (m + 1 - ((bs.take m).length + 1)) >>= _) _ = _
    by_cases hle : m ≤ bs.length
    · -- everything was there: the second round asks for nothing
      have hlen : m + 1 - ((bs.take m).length + 1) = 0 := by
        rw [List.length_take]
        omega
      rw [hlen, readExact, if_pos (by simp only [List.length_cons]; omega)]
      show (Except.ok (b :: bs.take m ++ []), _) = _
      rw [List.append_nil]
      rfl
    · -- the first round took all there was
      have hall : bs.drop m = [] := List.drop_eq_nil_of_le (by omega)
      have hdry : (readExact (arrivedRecv dry) eof (m + 1 - ((bs.take m).length + 1))).on [] =
          ((.error dry, []) : Except ε (List α) × List α) := by
        refine readExact_recv_error ?_ rfl
        rw [List.length_take]
        omega
      rw [hall, on_bind_error hdry, if_neg (by simp only [List.length_cons]; omega)]

/-! ## Complete writes -/

/-- Send until `buf` is gone; `zero` is the error of a `send` that takes nothing. -/
def writeAll (send : List α → Sock σ ε Nat) (zero : ε) (buf : List α) : Sock σ ε Unit :=
  if _h : buf = [] then pure ()
  else do
    match ← send buf with
    | 0 => throw zero
    | n + 1 => writeAll send zero (buf.drop (n + 1))
termination_by buf.length
decreasing_by
  have := List.length_pos_of_ne_nil _h
  rw [List.length_drop]
  omega

/-- What one `send` does: it takes at most `n` elements, or fails. -/
inductive Answer (ε : Type)
  | accepts (n : Nat)
  | fails (e : ε)
  deriving Repr, DecidableEq

/-- The sending side of a socket: how often `send` has been called, and what it has taken. -/
structure Sink (α : Type) where
  calls : Nat
  written : List α
  deriving Repr, DecidableEq

namespace Sink

/-- A socket on which nothing has been sent. -/
def fresh : Sink α := ⟨0, []⟩

variable (answers : Nat → Answer ε)

/-- One `send`, answered after the schedule. -/
def send (buf : List α) : Sock (Sink α) ε Nat := fun s =>
  match answers s.calls with
  | .accepts n => (.ok (min n buf.length), ⟨s.calls + 1, s.written ++ buf.take n⟩)
  | .fails e => (.error e, ⟨s.calls + 1, s.written⟩)

end Sink

/-- The call takes something. -/
def Answer.takes : Answer ε → Bool
  | .accepts (_ + 1) => true
  | _ => false

/-- The calls made between `s` and `s'` all take something. -/
def AllTaken (answers : Nat → Answer ε) (s s' : Sink α) : Prop :=
  ∀ k, s.calls ≤ k → k < s'.calls → (answers k).takes = true

/-- What the calls between `s` and `s'` have written: something exactly if one of them takes
    something; and nothing is called after a refusal. -/
structure Wrote (answers : Nat → Answer ε) (s s' : Sink α) (p : List α) : Prop where
  written : s'.written = s.written ++ p
  calls : s.calls ≤ s'.calls
  taken : p ≠ [] ↔ ∃ k, s.calls ≤ k ∧ k < s'.calls ∧ (answers k).takes = true
  refused : ∀ k, s.calls ≤ k → k < s'.calls → (answers k).takes = false → k + 1 = s'.calls

namespace Wrote

variable {answers : Nat → Answer ε} {s s₁ s' : Sink α} {p q : List α}

theorem refl (s : Sink α) : Wrote answers s s [] where
  written := (List.append_nil _).symm
  calls := Nat.le_refl _
  taken := iff_of_false (fun h => h rfl) fun ⟨_, hle, hlt, _⟩ => absurd hlt (Nat.not_lt.mpr hle)
  refused _ hle hlt := absurd hlt (Nat.not_lt.mpr hle)

/-- One call that takes something. -/
theorem one_taken {n : Nat} {buf : List α} (h : answers s.calls = .accepts (n + 1))
    (hbuf : buf ≠ []) :
    Wrote answers s ⟨s.calls + 1, s.written ++ buf.take (n + 1)⟩ (buf.take (n + 1)) := by
  have htakes : (answers s.calls).takes = true := by rw [h]; rfl
  refine ⟨rfl, Nat.le_succ _, iff_of_true ?_ ⟨_, Nat.le_refl _, Nat.lt_succ_self _, htakes⟩, ?_⟩
  · exact fun hnil => (List.take_eq_nil_iff.mp hnil).elim (Nat.succ_ne_zero n) hbuf
  · intro k hle hlt _
    exact congrArg (· + 1) (Nat.le_antisymm (Nat.le_of_lt_succ hlt) hle)

/-- One call that is refused. -/
theorem one_refused (h : (answers s.calls).takes = false) :
    Wrote answers s ⟨s.calls + 1, s.written⟩ [] := by
  refine ⟨(List.append_nil _).symm, Nat.le_succ _, iff_of_false (fun hne => hne rfl) ?_, ?_⟩
  · rintro ⟨k, hle, hlt, htaken⟩
    obtain rfl : k = s.calls := Nat.le_antisymm (Nat.le_of_lt_succ hlt) hle
    rw [h] at htaken
    cases htaken
  · intro k hle hlt _
    exact congrArg (· + 1) (Nat.le_antisymm (Nat.le_of_lt_succ hlt) hle)

/-- One after the other, if the first was not refused. -/
theorem trans (h : Wrote answers s s₁ p) (hall : AllTaken answers s s₁)
    (h' : Wrote answers s₁ s' q) : Wrote answers s s' (p ++ q) where
  written := by rw [h'.written, h.written, List.append_assoc]
  calls := Nat.le_trans h.calls h'.calls
  taken := by
    have hne : p ++ q ≠ [] ↔ p ≠ [] ∨ q ≠ [] := by rw [Ne, List.append_eq_nil_iff, not_and_or]
    rw [hne, h.taken, h'.taken]
    constructor
    · rintro (⟨k, hle, hlt, htaken⟩ | ⟨k, hle, hlt, htaken⟩)
      · exact ⟨k, hle, Nat.lt_of_lt_of_le hlt h'.calls, htaken⟩
      · exact ⟨k, Nat.le_trans h.calls hle, hlt, htaken⟩
    · rintro ⟨k, hle, hlt, htaken⟩
      rcases Nat.lt_or_ge k s₁.calls with hbefore | hafter
      · exact .inl ⟨k, hle, hbefore, htaken⟩
      · exact .inr ⟨k, hafter, hlt, htaken⟩
  refused k hle hlt hrefused := by
    rcases Nat.lt_or_ge k s₁.calls with hbefore | hafter
    · rw [hall k hle hbefore] at hrefused
      cases hrefused
    · exact h'.refused k hafter hlt hrefused

end Wrote

theorem AllTaken.trans {answers : Nat → Answer ε} {s s₁ s' : Sink α}
    (h : AllTaken answers s s₁) (hle : s.calls ≤ s₁.calls) :
    AllTaken answers s s' ↔ AllTaken answers s₁ s' := by
  constructor
  · intro hall k hk
    exact hall k (Nat.le_trans hle hk)
  · intro hall k hk hlt
    rcases Nat.lt_or_ge k s₁.calls with hbefore | hafter
    · exact h k hk hbefore
    · exact hall k hafter hlt

/-- `f` writes a prefix of `unit`, and all of it exactly when it reports success, which is when
    every call takes something. -/
def Writes (answers : Nat → Answer ε) (f : Sock (Sink α) ε Unit) (unit : List α) : Prop :=
  ∀ s, ∃ p, p <+: unit ∧ Wrote answers s (f.on s).2 p ∧ ((f.on s).1 = .ok () ↔ p = unit) ∧
    ((f.on s).1 = .ok () ↔ AllTaken answers s (f.on s).2)

/-- `f` writes a prefix of `unit`, and all of it if it reports success (but an error may also mean
    that it never meant to write); the unit is cut in the middle exactly if a call other than the
    first is refused. -/
def WritesPart (answers : Nat → Answer ε) (f : Sock (Sink α) ε Unit) (unit : List α) : Prop :=
  ∀ s, ∃ p, p <+: unit ∧ Wrote answers s (f.on s).2 p ∧ ((f.on s).1 = .ok () → p = unit) ∧
    (p ≠ [] ∧ p ≠ unit ↔
      ∃ k, s.calls < k ∧ k < (f.on s).2.calls ∧ (answers k).takes = false)

variable {answers : Nat → Answer ε}

theorem Writes.part {f : Sock (Sink α) ε Unit} {unit : List α} (h : Writes answers f unit) :
    WritesPart answers f unit := by
  intro s
  obtain ⟨p, hp, hw, hok, hall⟩ := h s
  refine ⟨p, hp, hw, hok.mp, ?_⟩
  constructor
  · rintro ⟨hne, hshort⟩
    -- some call took something and some other did not, and that was the last
    obtain ⟨k, hk, hk', htaken⟩ := hw.taken.mp hne
    have hnot : ¬ AllTaken answers s (f.on s).2 := fun h => hshort (hok.mp (hall.mpr h))
    unfold AllTaken at hnot
    push Not at hnot
    obtain ⟨j, hj, hj', hrefused⟩ := hnot
    rw [ne_eq, Bool.not_eq_true] at hrefused
    have hlast := hw.refused j hj hj' hrefused
    have hkj : k ≠ j := fun heq => by rw [heq, hrefused] at htaken; cases htaken
    exact ⟨j, by omega, hj', hrefused⟩
  · rintro ⟨k, hk, hk', hrefused⟩
    have hlast := hw.refused k (Nat.le_of_lt hk) hk' hrefused
    constructor
    · -- the first call was not the last
      refine hw.taken.mpr ⟨s.calls, Nat.le_refl _, by omega, ?_⟩
      by_contra hfirst
      have := hw.refused s.calls (Nat.le_refl _) (by omega) (Bool.eq_false_iff.mpr hfirst)
      omega
    · intro heq
      have htaken := hall.mp (hok.mpr heq) k (Nat.le_of_lt hk) hk'
      rw [hrefused] at htaken
      cases htaken

/-- Something to write takes a call. -/
theorem Writes.calls_lt {f : Sock (Sink α) ε Unit} {unit : List α} (h : Writes answers f unit)
    (hne : unit ≠ []) (s : Sink α) : s.calls < (f.on s).2.calls := by
  obtain ⟨p, -, hw, hok, hall⟩ := h s
  by_contra hle
  -- no call is made, so none is refused and all is written; but nothing is
  have hp : p = unit := hok.mp (hall.mpr fun k hk hk' => absurd (Nat.lt_of_le_of_lt hk hk') hle)
  obtain ⟨k, hk, hk', -⟩ := hw.taken.mp (by rw [hp]; exact hne)
  exact hle (Nat.lt_of_le_of_lt hk hk')

theorem writesPart_throw (e : ε) (unit : List α) :
    WritesPart answers (throw e : Sock (Sink α) ε Unit) unit := by
  intro s
  refine ⟨[], List.nil_prefix, .refl s, nofun, iff_of_false (fun h => h.1 rfl) ?_⟩
  rintro ⟨k, hk, hk', -⟩
  exact absurd hk' (Nat.not_lt.mpr (Nat.le_of_lt hk))

theorem writes_pure : Writes answers (pure () : Sock (Sink α) ε Unit) [] := by
  intro s
  refine ⟨[], List.prefix_rfl, .refl s, iff_of_true rfl rfl, iff_of_true rfl ?_⟩
  intro k hk hk'
  exact absurd hk' (Nat.not_lt.mpr hk)

/-- One unit after another is the unit of both together. -/
theorem Writes.andThen {f g : Sock (Sink α) ε Unit} {u v : List α} (hf : Writes answers f u)
    (hg : Writes answers g v) : Writes answers (f >>= fun _ => g) (u ++ v) := by
  intro s
  obtain ⟨p, hp, hw, hok, hall⟩ := hf s
  rcases h : f.on s with ⟨⟨e⟩ | ⟨⟨⟩⟩, s'⟩
  · -- the first part stopped inside its own unit
    rw [h] at hw hok hall
    rw [on_bind_error h]
    refine ⟨p, hp.trans (List.prefix_append u v), hw, ?_, hall⟩
    have hpu : p ≠ u := fun hpu => nomatch hok.mpr hpu
    refine ⟨(fun h => nomatch h), fun h => absurd ?_ hpu⟩
    exact hp.eq_of_length_le (by rw [h, List.length_append]; omega)
  · rw [h] at hw hok hall
    obtain rfl : p = u := hok.mp rfl
    have htaken : AllTaken answers s s' := hall.mp rfl
    obtain ⟨q, hq, hw', hok', hall'⟩ := hg s'
    rw [on_bind_ok h]
    refine ⟨p ++ q, (List.prefix_append_right_inj p).mpr hq, hw.trans htaken hw', ?_, ?_⟩
    · rw [hok', List.append_right_inj]
    · rw [hall', htaken.trans hw.calls]

/-- **What a complete write does**, whatever each `send` answers. -/
theorem writes_writeAll (answers : Nat → Answer ε) (zero : ε) (buf : List α) :
    Writes answers (writeAll (Sink.send answers) zero buf) buf := by
  -- strong induction on what is left to send
  induction hn : buf.length using Nat.strongRecOn generalizing buf with
  | _ n ih =>
    intro s
    rw [writeAll]
    by_cases hbuf : buf = []
    · rw [dif_pos hbuf, hbuf]
      exact writes_pure s
    rw [dif_neg hbuf]
    have hpos := List.length_pos_of_ne_nil hbuf
    -- a refused call ends the write with nothing more on the socket
    have hstops : ∀ e : ε, (answers s.calls).takes = false → ∃ p, p <+: buf ∧
        Wrote answers s ⟨s.calls + 1, s.written⟩ p ∧
        ((.error e : Except ε Unit) = .ok () ↔ p = buf) ∧
        ((.error e : Except ε Unit) = .ok () ↔
          AllTaken answers s ⟨s.calls + 1, s.written⟩) := by
      intro e hrefused
      refine ⟨[], List.nil_prefix, .one_refused hrefused, iff_of_false nofun (Ne.symm hbuf),
        iff_of_false nofun fun hall => ?_⟩
      have htaken := hall s.calls (Nat.le_refl _) (Nat.lt_succ_self _)
      rw [hrefused] at htaken
      cases htaken
    rcases hans : answers s.calls with m | e
    · have hsend : (Sink.send answers buf).on s =
          (.ok (min m buf.length), ⟨s.calls + 1, s.written ++ buf.take m⟩) := by
        show Sink.send answers buf s = _
        rw [Sink.send, hans]
      rw [on_bind_ok hsend]
      cases m with
      | zero =>
        rw [Nat.zero_min, List.take_zero, List.append_nil]
        exact hstops zero (by rw [hans]; rfl)
      | succ m =>
        obtain ⟨k, hk⟩ : ∃ k, min (m + 1) buf.length = k + 1 := ⟨min m (buf.length - 1), by omega⟩
        have htake : buf.take (m + 1) = buf.take (k + 1) := by
          rw [← hk, ← List.take_take, List.take_length]
        have hone := Wrote.one_taken (s := s) hans hbuf
        have htaken : AllTaken answers s ⟨s.calls + 1, s.written ++ buf.take (m + 1)⟩ := by
          intro j hj hj'
          obtain rfl : j = s.calls := Nat.le_antisymm (Nat.le_of_lt_succ hj') hj
          rw [hans]
          rfl
        obtain ⟨p, hp, hw, hok, hall⟩ := ih (buf.drop (k + 1)).length
          (by rw [List.length_drop]; omega) _ rfl ⟨s.calls + 1, s.written ++ buf.take (m + 1)⟩
        rw [hk]
        refine ⟨buf.take (m + 1) ++ p, ?_, hone.trans htaken hw, ?_, ?_⟩
        · conv_rhs => rw [← List.take_append_drop (k + 1) buf]
          rw [htake]
          exact (List.prefix_append_right_inj _).mpr hp
        · refine hok.trans ?_
          conv_rhs => rhs; rw [← List.take_append_drop (k + 1) buf]
          rw [htake, List.append_right_inj]
        · exact hall.trans (htaken.trans hone.calls).symm
    · have hsend : (Sink.send answers buf).on s = (.error e, ⟨s.calls + 1, s.written⟩) := by
        show Sink.send answers buf s = _
        rw [Sink.send, hans]
      rw [on_bind_error hsend]
      exact hstops e (by rw [hans]; rfl)

/-! The first `send` of a complete write, when it takes everything or fails. -/

theorem writeAll_whole {answers : Nat → Answer ε} {zero : ε} {buf : List α} {s : Sink α} {n : Nat}
    (hbuf : buf ≠ []) (h : answers s.calls = .accepts n) (hn : buf.length ≤ n) :
    (writeAll (Sink.send answers) zero buf).on s =
      (.ok (), ⟨s.calls + 1, s.written ++ buf⟩) := by
  have hsend : (Sink.send answers buf).on s =
      (.ok buf.length, ⟨s.calls + 1, s.written ++ buf⟩) := by
    show Sink.send answers buf s = _
    simp only [Sink.send, h, Nat.min_eq_right hn, List.take_of_length_le hn]
  obtain ⟨k, hk⟩ := Nat.exists_eq_add_one.mpr (List.length_pos_of_ne_nil hbuf)
  rw [writeAll, dif_neg hbuf, on_bind_ok hsend, hk]
  show Sock.on (writeAll (Sink.send answers) zero (buf.drop (k + 1))) _ = _
  rw [← hk, List.drop_length, writeAll]
  rfl

theorem writeAll_fails {answers : Nat → Answer ε} {zero e : ε} {buf : List α} {s : Sink α}
    (hbuf : buf ≠ []) (h : answers s.calls = .fails e) :
    (writeAll (Sink.send answers) zero buf).on s = (.error e, ⟨s.calls + 1, s.written⟩) := by
  have hsend : (Sink.send answers buf).on s = (.error e, ⟨s.calls + 1, s.written⟩) := by
    show Sink.send answers buf s = _
    rw [Sink.send, h]
  rw [writeAll, dif_neg hbuf, on_bind_error hsend]

/-- A schedule under which every `send` makes some progress. -/
def Progresses (answers : Nat → Answer ε) : Prop := ∀ i, ∃ n, answers i = .accepts (n + 1)

/-- With progress at every `send`, the write completes. -/
theorem writeAll_ok {answers : Nat → Answer ε} (h : Progresses answers) (zero : ε) (buf : List α)
    (s : Sink α) : ((writeAll (Sink.send answers) zero buf).on s).1 = .ok () := by
  induction hn : buf.length using Nat.strongRecOn generalizing buf s with
  | _ n ih =>
    rw [writeAll]
    by_cases hbuf : buf = []
    · rw [dif_pos hbuf]
      rfl
    · have hpos := List.length_pos_of_ne_nil hbuf
      obtain ⟨m, hm⟩ := h s.calls
      have hsend : (Sink.send answers buf).on s = (.ok (min (m + 1) buf.length),
          ⟨s.calls + 1, s.written ++ buf.take (m + 1)⟩) := by
        show Sink.send answers buf s = _
        rw [Sink.send, hm]
      rw [dif_neg hbuf, on_bind_ok hsend]
      obtain ⟨k, hk⟩ : ∃ k, min (m + 1) buf.length = k + 1 := ⟨min m (buf.length - 1), by omega⟩
      rw [hk]
      exact ih _ (by rw [List.length_drop]; omega) _ _ rfl

end ShortIO
