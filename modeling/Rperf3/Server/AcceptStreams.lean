/-
  Collecting a session's data streams from a shared listener, and what FOREIGN connections do to it.

  1. `arrivalWorld` — the world of `accept_streams_via_listener` and `accept_streams_from_channel`:
     the connections waiting to be taken, oldest first.
  2. `acceptStreams_ok_iff` — the listener loop succeeds exactly when the first `n` arrivals all
     present the session's cookie, and then it has taken exactly those.
  3. So the outcome is the one without the foreign connections if and only if none of them is among
     the first `n` arrivals: the FIRST foreign connection that the loop meets ends the session (or,
     without a timeout, blocks it).
-/
import Rperf3.Server.Session

namespace Rperf3

open Effect Effect.Prog

/-! ## The world of arriving connections -/

/-- Answers over the connections waiting to be taken.  A listener waits for ever for a connection;
    the session's channel waits for the given time. -/
def arrivalWorld : (o : Op) → List Conn → Option (Except Stop o.Ok × List Conn)
  | .acceptControl, c :: cs => some (.ok c, cs)
  | .acceptData, c :: cs => some (.ok c, cs)
  | .recvDataStream _, c :: cs => some (.ok c, cs)
  | .recvDataStream (some _), [] =>
    some (.error (.io ⟨.timedOut, "timed out waiting for data stream"⟩), [])
  | .setTimeouts _ _, cs => some (.ok (), cs)
  | .recvCookie c timeout, cs =>
    match recvCookie timeout c.incoming with
    | .done cookie => some (.ok cookie, cs)
    | .failed e => some (.error (.io e), cs)
    | .blocked => none
  | .send _, cs => some (.ok (), cs)
  | _, _ => none

/-- Does the connection present this cookie? -/
def presentsCookie (cookie : Bytes) (timeout : Option Nat) (c : Conn) : Prop :=
  recvCookie timeout c.incoming = .done cookie

/-- A peer whose byte stream starts with the cookie presents it, whatever the timeout. -/
theorem presentsCookie_of_prefix {cookie : Bytes} (hlen : cookie.length = cookieLen)
    (timeout : Option Nat) {c : Conn} {rest : Bytes} (h : c.incoming.stream = cookie ++ rest) :
    presentsCookie cookie timeout c := by
  rw [presentsCookie, recvCookie_eq, h, if_pos (by rw [List.length_append]; omega),
    List.take_left' hlen]

/-! ## The listener loop -/

/-- One round of the loop, by what the connection presents. -/
theorem acceptStreamsLoop_round (cookie : Bytes) (timeout : Option Nat) (i n : Nat) (c : Conn)
    (cs : List Conn) :
    (acceptStreamsLoop cookie timeout i (n + 1)).runIn arrivalWorld (c :: cs) =
      match recvCookie timeout c.incoming with
      | .blocked => none
      | .failed e => some (.error (.io e), cs)
      | .done got =>
        if got ≠ cookie then
          some (.error (.io ⟨.invalidData, "stream " ++ toString i ++ " cookie mismatch"⟩), cs)
        else
          ((acceptStreamsLoop cookie timeout (i + 1) n).runIn arrivalWorld cs).map fun rw =>
            (rw.1.map (c :: ·), rw.2) := by
  -- accepting and setting the timeout always succeed; the answer to the cookie read decides
  show Option.bind (match recvCookie timeout c.incoming with
      | .done got => some (Except.ok got, cs)
      | .failed e => some (Except.error (Stop.io e), cs)
      | .blocked => none) _ = _
  cases recvCookie timeout c.incoming with
  | blocked => rfl
  | failed e => rfl
  | done got =>
    by_cases hne : got ≠ cookie
    · show Prog.runIn arrivalWorld (ite _ _ _) cs = ite _ _ _
      rw [if_pos hne, if_pos hne]
      rfl
    · show Prog.runIn arrivalWorld (ite _ _ _) cs = ite _ _ _
      rw [if_neg hne, if_neg hne]
      show Prog.runIn arrivalWorld
        (Prog.onResult (acceptStreamsLoop cookie timeout (i + 1) n) _) cs = _
      rw [runIn_onResult]
      rcases (acceptStreamsLoop cookie timeout (i + 1) n).runIn arrivalWorld cs with
        _ | ⟨e | rest, w⟩
      · rfl
      · rfl
      · rfl

/-- A connection that presents the cookie is taken. -/
theorem acceptStreamsLoop_taken {cookie : Bytes} {timeout : Option Nat} {c : Conn}
    (h : presentsCookie cookie timeout c) (i n : Nat) (cs : List Conn) :
    (acceptStreamsLoop cookie timeout i (n + 1)).runIn arrivalWorld (c :: cs) =
      ((acceptStreamsLoop cookie timeout (i + 1) n).runIn arrivalWorld cs).map fun rw =>
        (rw.1.map (c :: ·), rw.2) := by
  rw [acceptStreamsLoop_round, h]
  exact if_neg (fun hne => hne rfl)

/-- Any other connection ends the loop with an error, or blocks it. -/
theorem acceptStreamsLoop_refused {cookie : Bytes} {timeout : Option Nat} {c : Conn}
    (h : ¬ presentsCookie cookie timeout c) (i n : Nat) (cs ds w : List Conn) :
    (acceptStreamsLoop cookie timeout i (n + 1)).runIn arrivalWorld (c :: cs) ≠
      some (.ok ds, w) := by
  rw [acceptStreamsLoop_round]
  cases hread : recvCookie timeout c.incoming with
  | blocked => exact fun heq => by cases heq
  | failed e => exact fun heq => by cases heq
  | done got =>
    have hne : got ≠ cookie := fun heq => h (by rw [presentsCookie, hread, heq])
    show ite _ _ _ ≠ _
    rw [if_pos hne]
    exact fun heq => by cases heq

/-- **The listener loop** takes the first `n` arrivals if they all present the cookie, and succeeds
    in no other way. -/
theorem acceptStreamsLoop_ok_iff (cookie : Bytes) (timeout : Option Nat) (n : Nat) :
    ∀ (i : Nat) (cs ds w : List Conn),
      (acceptStreamsLoop cookie timeout i n).runIn arrivalWorld cs = some (.ok ds, w) ↔
        cs = ds ++ w ∧ ds.length = n ∧ ∀ c ∈ ds, presentsCookie cookie timeout c := by
  induction n with
  | zero =>
    intro i cs ds w
    show some (Except.ok [], cs) = some (.ok ds, w) ↔ _
    constructor
    · intro h
      cases h
      exact ⟨rfl, rfl, fun c hc => absurd hc List.not_mem_nil⟩
    · rintro ⟨rfl, hlen, -⟩
      rw [List.length_eq_zero_iff.mp hlen]
      rfl
  | succ n ih =>
    intro i cs ds w
    cases cs with
    | nil =>
      constructor
      · intro h
        cases h
      · rintro ⟨hnil, hlen, -⟩
        rw [(List.append_eq_nil_iff.mp hnil.symm).1] at hlen
        cases hlen
    | cons c cs =>
      by_cases hc : presentsCookie cookie timeout c
      · rw [acceptStreamsLoop_taken hc, Option.map_eq_some_iff]
        constructor
        · rintro ⟨⟨r, w'⟩, hrun, heq⟩
          cases r with
          | error e => cases heq
          | ok ds' =>
            cases heq
            obtain ⟨rfl, hlen, hall⟩ := (ih _ _ _ _).mp hrun
            exact ⟨rfl, congrArg (· + 1) hlen, List.forall_mem_cons.mpr ⟨hc, hall⟩⟩
        · rintro ⟨hsplit, hlen, hall⟩
          cases ds with
          | nil => cases hlen
          | cons d ds =>
            cases hsplit
            have hrest := (ih (i + 1) (ds ++ w) ds w).mpr
              ⟨rfl, Nat.succ.inj hlen, fun c hc => hall c (List.mem_cons_of_mem _ hc)⟩
            exact ⟨_, hrest, rfl⟩
      · constructor
        · intro h
          exact absurd h (acceptStreamsLoop_refused hc i n cs ds w)
        · rintro ⟨hsplit, hlen, hall⟩
          cases ds with
          | nil => cases hlen
          | cons d ds =>
            cases hsplit
            exact absurd (hall c List.mem_cons_self) hc

/-- The same for the whole function; `CreateStreams` is written first. -/
theorem acceptStreams_ok_iff (cookie : Bytes) (timeout : Option Nat) (n : Nat)
    (cs ds w : List Conn) :
    (acceptStreamsViaListener cookie n timeout).runIn arrivalWorld cs = some (.ok ds, w) ↔
      cs = ds ++ w ∧ ds.length = n ∧ ∀ c ∈ ds, presentsCookie cookie timeout c :=
  acceptStreamsLoop_ok_iff cookie timeout n 0 cs ds w

/-! ## Isolation -/

/-- What the session gets out of `accept_streams_via_listener`: its streams, an error, or nothing
    because the loop blocks. -/
def collectedStreams (cookie : Bytes) (n : Nat) (timeout : Option Nat) (arrivals : List Conn) :
    Option (Except Stop (List Conn)) :=
  ((acceptStreamsViaListener cookie n timeout).runIn arrivalWorld arrivals).map Prod.fst

theorem collectedStreams_ok_iff (cookie : Bytes) (n : Nat) (timeout : Option Nat)
    (arrivals ds : List Conn) :
    collectedStreams cookie n timeout arrivals = some (.ok ds) ↔
      n ≤ arrivals.length ∧ ds = arrivals.take n ∧ ∀ c ∈ ds, presentsCookie cookie timeout c := by
  rw [collectedStreams, Option.map_eq_some_iff]
  constructor
  · rintro ⟨⟨r, w⟩, hrun, rfl⟩
    obtain ⟨rfl, hlen, hall⟩ := (acceptStreams_ok_iff _ _ _ _ _ _).mp hrun
    exact ⟨by rw [List.length_append]; omega, (List.take_left' hlen).symm, hall⟩
  · rintro ⟨hlen, rfl, hall⟩
    refine ⟨(_, arrivals.drop n), (acceptStreams_ok_iff _ _ _ _ _ _).mpr ⟨?_, ?_, hall⟩, rfl⟩
    · exact (List.take_append_drop n arrivals).symm
    · rw [List.length_take]
      omega

/-- **Isolation.**  `own` marks the session's own connections, which start with the session cookie;
    the others may do anything.  Without the others the session collects its first `n` streams, and
    with them it gets the same result if and only if none of them comes among the first `n`. -/
theorem isolation_iff {cookie : Bytes} (hlen : cookie.length = cookieLen) (n : Nat)
    (timeout : Option Nat) (own : Conn → Bool) {arrivals : List Conn}
    (hown : ∀ c ∈ arrivals, own c = true → ∃ rest, c.incoming.stream = cookie ++ rest)
    (hn : n ≤ (arrivals.filter own).length) :
    collectedStreams cookie n timeout (arrivals.filter own) =
        some (.ok ((arrivals.filter own).take n)) ∧
      (collectedStreams cookie n timeout arrivals =
          collectedStreams cookie n timeout (arrivals.filter own) ↔
        ∀ c ∈ arrivals.take n, own c = true) := by
  have hpresents : ∀ c ∈ arrivals, own c = true → presentsCookie cookie timeout c := by
    intro c hc ho
    obtain ⟨rest, hrest⟩ := hown c hc ho
    exact presentsCookie_of_prefix hlen timeout hrest
  have halone : collectedStreams cookie n timeout (arrivals.filter own) =
      some (.ok ((arrivals.filter own).take n)) := by
    refine (collectedStreams_ok_iff _ _ _ _ _).mpr ⟨hn, rfl, fun c hc => ?_⟩
    obtain ⟨hmem, ho⟩ := List.mem_filter.mp (List.mem_of_mem_take hc)
    exact hpresents c hmem ho
  refine ⟨halone, ?_⟩
  rw [halone]
  constructor
  · intro heq c hc
    obtain ⟨-, htake, -⟩ := (collectedStreams_ok_iff _ _ _ _ _).mp heq
    rw [← htake] at hc
    exact (List.mem_filter.mp (List.mem_of_mem_take hc)).2
  · intro hall
    -- filtering does not touch the first `n` arrivals
    have hkeep : (arrivals.filter own).take n = arrivals.take n := by
      have hlen' : (arrivals.take n).length = n := by
        have := List.length_filter_le own arrivals
        rw [List.length_take]
        omega
      conv_lhs => rw [← List.take_append_drop n arrivals, List.filter_append,
        List.filter_eq_self.mpr hall]
      exact List.take_left' hlen'
    refine (collectedStreams_ok_iff _ _ _ _ _).mpr ⟨?_, hkeep, fun c hc => ?_⟩
    · exact Nat.le_trans hn (List.length_filter_le _ _)
    · rw [hkeep] at hc
      exact hpresents c (List.mem_of_mem_take hc) (hall c hc)

/-! ### A port scanner during the setup of a test -/

def sessionCookie : Bytes := List.replicate 36 97 ++ [0]

/-- The session's own data connection. -/
def ownConn : Conn := ⟨⟨2130706433, 40001⟩, ⟨[sessionCookie], .stalls⟩⟩

/-- A peer that connects and closes without a word. -/
def scannerConn : Conn := ⟨⟨167772161, 50000⟩, ⟨[], .closes⟩⟩

/-- The scanner's connection, accepted first, turns the session into an error. -/
theorem scanner_ends_session :
    collectedStreams sessionCookie 1 (some (fromSecs 30)) [ownConn] = some (.ok [ownConn]) ∧
    collectedStreams sessionCookie 1 (some (fromSecs 30)) [scannerConn, ownConn] =
      some (.error (.io ⟨.unexpectedEof, "peer closed before cookie was fully received"⟩)) := by
  constructor
  · exact (collectedStreams_ok_iff _ _ _ _ _).mpr ⟨by decide, rfl, by
      intro c hc
      rw [List.mem_singleton.mp hc]
      exact presentsCookie_of_prefix (by decide) _ (List.append_nil _).symm⟩
  · rfl

theorem isolation_iff_scanner :
    collectedStreams sessionCookie 1 none [ownConn] = some (.ok [ownConn]) ∧
      (collectedStreams sessionCookie 1 none [scannerConn, ownConn] =
          collectedStreams sessionCookie 1 none [ownConn] ↔
        ∀ c ∈ [scannerConn], decide (c = ownConn) = true) :=
  isolation_iff (by decide) 1 none (fun c => decide (c = ownConn))
    (fun c (_ : c ∈ [scannerConn, ownConn]) ho => ⟨[], by rw [of_decide_eq_true ho]; decide⟩)
    (by decide)

end Rperf3
