/-
  How long `run_udp_receiver` outlives its stop flag.

  The loop polls the flag, and a `recv_from` with a timeout lies between two polls; once the flag
  has been seen, a grace period of half a second lets late datagrams and sentinels arrive.  Both
  ends of that window are proved, for every sequence of datagrams, lost sentinels and floods
  included:

  1. **Timelines** — an iteration with the instants at which it does things (`TimedTick`); the flag
     is raised at one instant, so what an iteration sees of it follows from those
     (`TimedTick.tick`).  `Timeline` is all that is assumed of the machine: `recv_from` returns
     within its timeout, and the steps in between take at most `slack` each.
  2. **The crux** (`InGrace`) — before the flag is seen, the loop is at most one long timeout behind
     it; afterwards the deadline is fixed and the loop is at most one short timeout behind that.
  3. `receiver_leaves_in_time` — a timeline that goes on past `leaveBy` has left the loop by then,
     and not before the flag was raised unless the socket failed.
-/
import Rperf3.Common.UdpSession

namespace Rperf3

/-! ## Timelines -/

/-- What `recv_from` returns. -/
inductive Got
  | datagram (d : Datagram)
  | nothing
  | failed
  deriving DecidableEq

/-- One iteration: the flag is loaded at `topAt`; if it is raised, the grace period is armed at
    `armAt` and checked at `checkAt`; `recv_from` is called at `recvAt` and returns at `backAt`; the
    clock (for a datagram) or the flag (after a timeout) is read at `lastAt`. -/
structure TimedTick where
  topAt : Nat
  armAt : Nat
  checkAt : Nat
  recvAt : Nat
  backAt : Nat
  lastAt : Nat
  got : Got

/-- `Duration::from_millis`. -/
def fromMillis (ms : Nat) : Nat := ms * 1000000

namespace TimedTick

variable (raised slack : Nat) (t : TimedTick)

/-- What the branch behind `recv_from` sees when the flag is raised at `raised`. -/
def outcome : RecvOutcome :=
  match t.got with
  | .datagram d => .datagram t.lastAt d
  | .nothing => .wouldBlock (decide (raised ≤ t.lastAt))
  | .failed => .failed

/-- The iteration as the loop sees it. -/
def tick : Tick := ⟨decide (raised ≤ t.topAt), t.armAt, t.checkAt, t.outcome raised⟩

/-- The socket's read timeout: shortened once the flag has been seen. -/
def readTimeout : Nat := if raised ≤ t.topAt then fromMillis 50 else fromMillis 100

/-- The iteration does things in order, `recv_from` returns within its timeout, and nothing else
    takes longer than `slack`. -/
structure Prompt : Prop where
  arm : t.topAt ≤ t.armAt
  check : t.armAt ≤ t.checkAt
  recv : t.checkAt ≤ t.recvAt
  enter : t.recvAt ≤ t.topAt + slack
  wait : t.backAt ≤ t.recvAt + t.readTimeout raised + slack
  back : t.recvAt ≤ t.backAt
  last : t.backAt ≤ t.lastAt
  leave : t.lastAt ≤ t.backAt + slack

end TimedTick

/-- Iterations that follow one another, the first of them at `start`. -/
def Timeline (raised slack : Nat) : Nat → List TimedTick → Prop
  | _, [] => True
  | start, t :: ts =>
    start ≤ t.topAt ∧ t.topAt ≤ start + slack ∧ t.Prompt raised slack ∧
      Timeline raised slack t.lastAt ts

open TimedTick

/-! ## One iteration -/

/-- Does the branch behind `recv_from` leave the loop? -/
def RecvOutcome.leaves : RecvOutcome → Bool
  | .datagram _ _ => false
  | .wouldBlock stop => stop
  | .failed => true

/-- An iteration in two parts: the check at the top, and what `recv_from` brings. -/
theorem tick_cases (omitWindow : Nat) (k : Tick) (r : Receiver) :
    (r.tick omitWindow k).2 = ((r.checkStop k).2 || k.outcome.leaves) ∧
      (r.tick omitWindow k).1.graceDeadline = (r.checkStop k).1.graceDeadline := by
  unfold Receiver.tick
  rcases r.checkStop k with ⟨r₁, leave⟩
  cases leave with
  | true => exact ⟨rfl, rfl⟩
  | false =>
    cases hout : k.outcome with
    | datagram now d => exact ⟨rfl, rfl⟩
    | wouldBlock stop => exact ⟨rfl, rfl⟩
    | failed => exact ⟨rfl, rfl⟩

section Iteration

variable {raised slack omitWindow : Nat} {t : TimedTick} {r : Receiver}

/-- The deadline an iteration checks: the one there is, or the one it sets. -/
def graceEnd (t : TimedTick) (r : Receiver) : Nat := r.graceDeadline.getD (t.armAt + graceNanos)

theorem checkStop_of_lt (h : t.topAt < raised) : r.checkStop (t.tick raised) = (r, false) := by
  have hstop : (t.tick raised).stop = false := decide_eq_false (by omega)
  unfold Receiver.checkStop
  rw [hstop, if_neg Bool.false_ne_true]

theorem checkStop_of_le (h : raised ≤ t.topAt) :
    r.checkStop (t.tick raised) = ({ r with graceDeadline := some (graceEnd t r) },
      r.states.entries.all (fun e => e.2.sawSentinel) || decide (graceEnd t r ≤ t.checkAt)) := by
  have hstop : (t.tick raised).stop = true := decide_eq_true h
  unfold Receiver.checkStop
  rw [hstop, if_pos rfl]
  rfl

/-- An iteration that sees the flag and stays has set the deadline and is ahead of it. -/
theorem tick_stays (h : raised ≤ t.topAt)
    (hstay : (r.tick omitWindow (t.tick raised)).2 = false) :
    (r.tick omitWindow (t.tick raised)).1.graceDeadline = some (graceEnd t r) ∧
      t.checkAt < graceEnd t r := by
  obtain ⟨hleave, hdeadline⟩ := tick_cases omitWindow (t.tick raised) r
  rw [checkStop_of_le h] at hleave hdeadline
  rw [hleave, Bool.or_eq_false_iff, Bool.or_eq_false_iff, decide_eq_false_iff_not] at hstay
  exact ⟨hdeadline, Nat.lt_of_not_le hstay.1.2⟩

/-- The loop is left only if the socket fails or after the flag has been raised. -/
theorem tick_leaves (h : t.Prompt raised slack)
    (hleave : (r.tick omitWindow (t.tick raised)).2 = true) :
    t.got = .failed ∨ raised ≤ t.lastAt := by
  by_cases hraised : raised ≤ t.topAt
  · right
    have := h.arm
    have := h.check
    have := h.recv
    have := h.back
    have := h.last
    omega
  · rw [(tick_cases omitWindow (t.tick raised) r).1, checkStop_of_lt (by omega), Bool.false_or]
      at hleave
    have houtcome : (t.tick raised).outcome = t.outcome raised := rfl
    rw [houtcome] at hleave
    unfold TimedTick.outcome at hleave
    cases hgot : t.got with
    | datagram d =>
      rw [hgot] at hleave
      cases hleave
    | nothing =>
      rw [hgot] at hleave
      exact Or.inr (of_decide_eq_true hleave)
    | failed => exact Or.inl rfl

end Iteration

/-! ## The window -/

section Window

variable {raised slack start omitWindow : Nat}

/-- The loop has been left by then: the flag (or the loop's own start), one long timeout, the grace
    period, one short timeout, and the slack of the steps in between. -/
def leaveBy (raised start slack : Nat) : Nat := max raised start + fromMillis 650 + 10 * slack

/-- Where the loop stands at the instant `now` between two iterations. -/
structure InGrace (raised start slack now : Nat) (r : Receiver) : Prop where
  waiting : r.graceDeadline = none → now ≤ max raised start + fromMillis 100 + 3 * slack
  armed : ∀ d, r.graceDeadline = some d → raised ≤ now ∧
    d ≤ max raised start + fromMillis 600 + 5 * slack ∧ now ≤ d + fromMillis 50 + 3 * slack

/-- The time an iteration takes. -/
theorem lastAt_le {t : TimedTick} (ht : t.Prompt raised slack) :
    t.lastAt ≤ t.topAt + t.readTimeout raised + 3 * slack := by
  obtain ⟨harm, hcheck, hrecv, henter, hwait, hback, hlast, hleave⟩ := ht
  omega

/-- The check of an iteration is in time. -/
theorem InGrace.checkAt_le {now : Nat} {t : TimedTick} {r : Receiver}
    (h : InGrace raised start slack now r) (hnext : t.topAt ≤ now + slack)
    (ht : t.Prompt raised slack) : t.checkAt ≤ leaveBy raised start slack := by
  have hcheck : t.checkAt ≤ t.topAt + slack := ht.recv.trans ht.enter
  have h50 : fromMillis 50 = 50000000 := rfl
  have h100 : fromMillis 100 = 100000000 := rfl
  have h600 : fromMillis 600 = 600000000 := rfl
  have h650 : fromMillis 650 = 650000000 := rfl
  unfold leaveBy
  cases hd : r.graceDeadline with
  | none =>
    have hnow := h.waiting hd
    omega
  | some d =>
    obtain ⟨-, hd₁, hd₂⟩ := h.armed d hd
    omega

/-- An iteration that stays in the loop stays in the window. -/
theorem InGrace.step {now : Nat} {t : TimedTick} {r : Receiver}
    (h : InGrace raised start slack now r) (hfrom : now ≤ t.topAt) (hnext : t.topAt ≤ now + slack)
    (ht : t.Prompt raised slack) (hstay : (r.tick omitWindow (t.tick raised)).2 = false) :
    InGrace raised start slack t.lastAt (r.tick omitWindow (t.tick raised)).1 := by
  have hlast := lastAt_le ht
  by_cases hraised : raised ≤ t.topAt
  · -- the flag is seen: the deadline stands, and the check was ahead of it
    obtain ⟨hdeadline, hahead⟩ := tick_stays hraised hstay
    have htimeout : t.readTimeout raised = fromMillis 50 := if_pos hraised
    have htop : t.topAt ≤ t.checkAt := ht.arm.trans ht.check
    have harm : t.armAt ≤ t.topAt + slack := (ht.check.trans ht.recv).trans ht.enter
    have hend : graceEnd t r ≤ max raised start + fromMillis 600 + 5 * slack := by
      unfold graceEnd
      cases hd : r.graceDeadline with
      | none =>
        have hnow := h.waiting hd
        have hgrace : graceNanos = 500000000 := rfl
        have h100 : fromMillis 100 = 100000000 := rfl
        have h600 : fromMillis 600 = 600000000 := rfl
        show t.armAt + graceNanos ≤ _
        omega
      | some d => exact (h.armed d hd).2.1
    constructor
    · intro hnone
      rw [hdeadline] at hnone
      cases hnone
    · intro d hd
      obtain rfl := Option.some.inj (hdeadline.symm.trans hd)
      have hafter : t.checkAt ≤ t.lastAt := ((ht.recv.trans ht.back).trans ht.last)
      exact ⟨by omega, hend, by omega⟩
  · -- the flag was down at the top, so this was no later than one long timeout after it
    have hdeadline : (r.tick omitWindow (t.tick raised)).1.graceDeadline = r.graceDeadline := by
      rw [(tick_cases omitWindow (t.tick raised) r).2, checkStop_of_lt (by omega)]
    have htimeout : t.readTimeout raised = fromMillis 100 := if_neg hraised
    constructor
    · intro _
      omega
    · intro d hd
      rw [hdeadline] at hd
      have hbefore := (h.armed d hd).1
      omega

theorem loop_cons (omitWindow : Nat) (k : Tick) (ks : List Tick) (r : Receiver) :
    Receiver.loop omitWindow (k :: ks) r =
      if (r.tick omitWindow k).2 then some (r.tick omitWindow k).1
      else Receiver.loop omitWindow ks (r.tick omitWindow k).1 := by
  rw [Receiver.loop]
  rcases r.tick omitWindow k with ⟨r₁, leave⟩
  cases leave with
  | true => rfl
  | false => rfl

/-- The iteration `t` behind `pre` is the one that leaves the loop, with `r'`. -/
structure LeavesAt (omitWindow raised : Nat) (pre : List TimedTick) (t : TimedTick)
    (r r' : Receiver) : Prop where
  before : Receiver.loop omitWindow (pre.map (tick raised)) r = none
  leaves : ∀ post, Receiver.loop omitWindow ((pre ++ t :: post).map (tick raised)) r = some r'

theorem LeavesAt.cons {pre : List TimedTick} {t₀ t : TimedTick} {r r' : Receiver}
    (hstay : (r.tick omitWindow (t₀.tick raised)).2 = false)
    (h : LeavesAt omitWindow raised pre t (r.tick omitWindow (t₀.tick raised)).1 r') :
    LeavesAt omitWindow raised (t₀ :: pre) t r r' := by
  constructor
  · rw [List.map_cons, loop_cons, hstay, if_neg Bool.false_ne_true]
    exact h.before
  · intro post
    rw [List.cons_append, List.map_cons, loop_cons, hstay, if_neg Bool.false_ne_true]
    exact h.leaves post

/-- A timeline that goes on past `leaveBy` has left the loop before. -/
theorem exists_leavesAt {now : Nat} {ts : List TimedTick} {r : Receiver}
    (h : Timeline raised slack now ts) (hin : InGrace raised start slack now r)
    (hlong : ∃ t ∈ ts, leaveBy raised start slack < t.checkAt) :
    ∃ pre t post r', ts = pre ++ t :: post ∧ LeavesAt omitWindow raised pre t r r' ∧
      t.checkAt ≤ leaveBy raised start slack ∧ (t.got = .failed ∨ raised ≤ t.lastAt) := by
  induction ts generalizing now r with
  | nil =>
    obtain ⟨t, ht, -⟩ := hlong
    exact absurd ht List.not_mem_nil
  | cons t ts ih =>
    obtain ⟨hfrom, hnext, ht, hrest⟩ := h
    have hcheck := hin.checkAt_le hnext ht
    cases hleave : (r.tick omitWindow (t.tick raised)).2 with
    | true =>
      have hleaves : LeavesAt omitWindow raised [] t r (r.tick omitWindow (t.tick raised)).1 := by
        refine ⟨rfl, fun post => ?_⟩
        rw [List.nil_append, List.map_cons, loop_cons, if_pos hleave]
      exact ⟨[], t, ts, _, rfl, hleaves, hcheck, tick_leaves ht hleave⟩
    | false =>
      have hlong' : ∃ t' ∈ ts, leaveBy raised start slack < t'.checkAt := by
        obtain ⟨t', ht', hlate⟩ := hlong
        rcases List.mem_cons.mp ht' with rfl | ht'
        · omega
        · exact ⟨t', ht', hlate⟩
      obtain ⟨pre, t', post, r', rfl, hleaves, hin', hwhy⟩ :=
        ih hrest (hin.step hfrom hnext ht hleave) hlong'
      exact ⟨t :: pre, t', post, r', rfl, hleaves.cons hleave, hin', hwhy⟩

end Window

/-- **The grace period.**  Whatever arrives, and however many sentinels are lost: if the machine
    keeps time, the receiver that starts at `start` and whose flag is raised at `raised` leaves its
    loop in an iteration whose check is no later than `leaveBy` and, unless the socket fails, not
    before the flag has been raised; its receipts are those of the datagrams read until then. -/
theorem receiver_leaves_in_time (order : List SocketAddr) (omitWindow raised start slack : Nat)
    (ts : List TimedTick) (htime : Timeline raised slack start ts)
    (hlong : ∃ t ∈ ts, leaveBy raised start slack < t.checkAt) :
    ∃ pre t post r, ts = pre ++ t :: post ∧
      LeavesAt omitWindow raised pre t ⟨initialStates order, none⟩ r ∧
      t.checkAt ≤ leaveBy raised start slack ∧ (t.got = .failed ∨ raised ≤ t.lastAt) ∧
      runUdpReceiver order omitWindow (ts.map (tick raised)) =
        some (collectReceipts order r.states) := by
  have hstart : InGrace raised start slack start ⟨initialStates order, none⟩ := by
    constructor
    · intro _
      omega
    · intro d hd
      cases hd
  obtain ⟨pre, t, post, r, rfl, hleaves, hcheck, hwhy⟩ := exists_leavesAt htime hstart hlong
  refine ⟨pre, t, post, r, rfl, hleaves, hcheck, hwhy, ?_⟩
  rw [runUdpReceiver, hleaves.leaves post, Option.map_some]

/-- A peer that keeps sending empty datagrams, and never a sentinel. -/
def floodTicks (peer : SocketAddr) (gap : Nat) : Nat → Nat → List TimedTick
  | 0, _ => []
  | n + 1, now =>
    ⟨now, now, now, now, now + gap, now + gap, .datagram ⟨peer, []⟩⟩ ::
      floodTicks peer gap n (now + gap)

theorem timeline_floodTicks (peer : SocketAddr) {gap : Nat} (hgap : gap ≤ fromMillis 50)
    (n now : Nat) : Timeline 0 0 now (floodTicks peer gap n now) := by
  induction n generalizing now with
  | zero => trivial
  | succ n ih =>
    refine ⟨Nat.le_refl _, Nat.le_refl _, ⟨Nat.le_refl _, Nat.le_refl _, Nat.le_refl _,
      Nat.le_refl _, ?_, Nat.le_add_right _ _, Nat.le_refl _, Nat.le_refl _⟩, ih _⟩
    unfold TimedTick.readTimeout
    rw [if_pos (Nat.zero_le _)]
    exact Nat.add_le_add_left hgap now

theorem receiver_leaves_in_time_flood :
    (∃ t ∈ floodTicks ⟨1, 9⟩ (fromMillis 50) 15 0, leaveBy 0 0 0 < t.checkAt) ∧
    ∃ receipts, runUdpReceiver [⟨1, 9⟩] 0
      ((floodTicks ⟨1, 9⟩ (fromMillis 50) 15 0).map (tick 0)) = some receipts := by
  have hlong : ∃ t ∈ floodTicks ⟨1, 9⟩ (fromMillis 50) 15 0, leaveBy 0 0 0 < t.checkAt := by
    decide
  obtain ⟨pre, t, post, r, -, -, -, -, hrun⟩ := receiver_leaves_in_time [⟨1, 9⟩] 0 0 0 0 _
    (timeline_floodTicks ⟨1, 9⟩ (Nat.le_refl _) 15 0) hlong
  exact ⟨hlong, _, hrun⟩

end Rperf3
