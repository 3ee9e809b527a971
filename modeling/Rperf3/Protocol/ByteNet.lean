/-
  A client and a server session joined by a CONNECTION of bytes.

  `netSystem` moves whole units.  In `byteNet` each step of a party first decodes the unit its next
  read asks for, with the receivers of `wire.rs` on what has arrived, then runs the unit-level code
  on it, and puts the bytes of what that writes on the connection.  A receiver that runs dry waits,
  except in `client_recv`, whose poll goes on empty-handed; one that finds something else reports an
  error, which the client logs and the session gets as a result.

  Runs in which a control write fails or is cut short are not in the system, nor are those in which
  a read times out: what is written arrives, sooner or later, and a blocking read waits for it.  Nor
  are those that write a JSON body over the receiver's limit, or one that does not print
  (`Item.sendable`): such a unit is refused, and the dialogue ends there.

  `slowNet` is the unit-level system to compare with: `netSystem` in which a poll may also come too
  early, and a results body may be read as what `serde_json` makes of it.  A step of either party
  does the same whatever else is in flight (`act_within`, `serveOp_facing`), which is what lets a
  step on one decoded unit be replayed there.
-/
import Rperf3.Protocol.ByteChannel
import Rperf3.Protocol.Deadlock

namespace Rperf3

open Transition Effect Effect.Prog ShortIO

/-! ## The two parties on a connection -/

/-- What the main thread reads at a program counter. -/
def ClientPc.reads : ClientPc → Option UnitKind
  | .poll => some .byte
  | .readPort => some .port
  | .readResults => some .results
  | _ => none

/-- What a session operation reads from the control channel. -/
def Op.reads : Op → Option UnitKind
  | .recvOptions => some .options
  | .recvResults => some .results
  | .awaitByte _ => some .byte
  | _ => none

/-- Both parties and the connection.  The channels of `client` remember what has been read; between
    two steps nothing is in flight there, all of it is in the pipes. -/
structure ByteNet where
  client : Client
  server : Session Nat
  down : Pipe
  up : Pipe

/-- The client with nothing in flight. -/
def Client.bare (c : Client) : Client :=
  { c with inbox := ⟨c.inbox.taken, []⟩, outbox := ⟨c.outbox.taken, []⟩ }

section System

variable (js : Codecs) (cfg : Config) (token : Option String)

/-- The units a step has written go out as bytes. -/
def ByteNet.settle (s : Net) (down up : Pipe) : Option ByteNet := do
  let down ← down.write js s.client.inbox.pending
  let up ← up.write js s.client.outbox.pending
  return ⟨s.client.bare, s.server, down, up⟩

/-- A step of the client: the main thread first decodes the unit it is about to read.  An error is
    logged and the iteration goes on; only a poll goes on when nothing has arrived. -/
def ByteNet.clientStep (a : Client.Act) (b : ByteNet) : Option ByteNet :=
  match a, b.client.pc.reads with
  | .loop cpu, some kind =>
    match (kind.recv js).on b.down.arrived with
    | (.ok i, rest) => do
      let c ← Client.loopStep cfg token cpu { b.client with inbox := b.client.inbox.push i }
      settle js ⟨c, b.server⟩ { b.down with arrived := rest } b.up
    | (.error e, rest) =>
      if e.kind ≠ .wouldBlock then
        some { b with
          client := { b.client with pc := .drain }
          down := { b.down with arrived := rest } }
      else if b.client.pc = .poll then some { b with client := { b.client with pc := .drain } }
      else none
  | a, _ => do
    let c ← Client.act cfg token a b.client
    settle js ⟨c, b.server⟩ b.down b.up

/-- A step of the session: a control read decodes its unit, waits, or fails. -/
def ByteNet.serverStep (world : (o : Op) → Except Stop o.Ok) (b : ByteNet) : Option ByteNet :=
  match b.server with
  | .ret _ => none
  | .op o k =>
    match o.reads with
    | none => do settle js (← serveOp world b.client o k) b.down b.up
    | some kind =>
      match (kind.recv js).on b.up.arrived with
      | (.ok i, rest) => do
        let s ← serveOp world { b.client with outbox := b.client.outbox.push i } o k
        settle js s b.down { b.up with arrived := rest }
      | (.error e, rest) =>
        if e.kind ≠ .wouldBlock then
          some { b with server := k (.error (.io e)), up := { b.up with arrived := rest } }
        else none

/-- The moves of the parties, and bytes that arrive. -/
inductive ByteAct
  | client (a : Client.Act)
  | server (world : (o : Op) → Except Stop o.Ok)
  | deliverDown (n : Nat)
  | deliverUp (n : Nat)

def byteStep : ByteAct → ByteNet → Option ByteNet
  | .client a, b => b.clientStep js cfg token a
  | .server world, b => b.serverStep js world
  | .deliverDown n, b => some { b with down := b.down.deliver n }
  | .deliverUp n, b => some { b with up := b.up.deliver n }

/-- A client and the session program `p`, joined by a connection. -/
def byteNet (p : Session Nat) : System ByteNet ByteAct where
  init b := b = ⟨Client.initial, p, .empty, .empty⟩
  step := byteStep js cfg token

/-! ### The unit-level system with late units -/

/-- The client, about to read its next unit as `wire.rs` hands it over. -/
def Client.decodesInbox (c : Client) : Client :=
  { c with inbox := c.inbox.mapFront (Item.readBack js) }

/-- The client, whose next unit the session is about to read. -/
def Client.decodedOutbox (c : Client) : Client :=
  { c with outbox := c.outbox.mapFront (Item.readBack js) }

/-- The moves of the unit-level system; the unit a party reads may be what its bytes read back as,
    and a poll may also miss a unit that is still under way. -/
inductive SlowAct
  | net (a : NetAct)
  | clientReads (cpu : CpuUsage)
  | serverReads (world : (o : Op) → Except Stop o.Ok)
  | idlePoll

def slowStep : SlowAct → Net → Option Net
  | .net a, s => netStep cfg token a s
  | .clientReads cpu, s =>
    netStep cfg token (.client (.loop cpu)) { s with client := s.client.decodesInbox js }
  | .serverReads world, s =>
    netStep cfg token (.server world) { s with client := s.client.decodedOutbox js }
  | .idlePoll, s =>
    if s.client.pc = .poll then some { s with client := { s.client with pc := .drain } } else none

def slowNet (p : Session Nat) : System Net SlowAct where
  init s := s = ⟨Client.initial, p⟩
  step := slowStep js cfg token

end System

/-- Neither script looks into a results body. -/
theorem serverScript_readBack {js : Codecs} (i : Item) (s : Stage) :
    serverScript.step (i.readBack js) s = serverScript.step i s := by
  cases i with
  | results r => cases s <;> rfl
  | _ => rfl

theorem clientScript_readBack {js : Codecs} {opts : ClientOptions} (i : Item) (r : Reply) :
    (clientScript opts).step (i.readBack js) r = (clientScript opts).step i r := by
  cases i with
  | results results => cases r <;> rfl
  | _ => rfl

/-- Being in step depends neither on a poll being lucky nor on what results are read. -/
theorem InStep.slowStep {js : Codecs} {cfg : Config} {token : Option String} {p : Place} {k : Stage}
    {s t : Net} {a : SlowAct} (h : InStep (sendOptions cfg token) p k s)
    (hstep : Rperf3.slowStep js cfg token a s = some t) :
    ∃ p' k', InStep (sendOptions cfg token) p' k' t := by
  cases a with
  | net a => exact h.step hstep
  | clientReads cpu =>
    have hread : InStep (sendOptions cfg token) p k
        { s with client := s.client.decodesInbox js } :=
      ⟨h.session, ⟨h.client.pc, h.client.early, h.client.reporting⟩,
        Fifo.between_mapFront serverScript_readBack h.down, h.up, h.order⟩
    exact hread.step (a := .client (.loop cpu)) hstep
  | serverReads world =>
    have hread : InStep (sendOptions cfg token) p k
        { s with client := s.client.decodedOutbox js } :=
      ⟨h.session, ⟨h.client.pc, h.client.early, h.client.reporting⟩, h.down,
        Fifo.between_mapFront clientScript_readBack h.up, h.order⟩
    exact hread.step (a := .server world) hstep
  | idlePoll =>
    simp only [Rperf3.slowStep] at hstep
    split at hstep
    · rename_i hpc
      cases hstep
      have hkeeps : Client.Keeps (sendOptions cfg token) p.wrote k k s.client
          { s.client with pc := .drain } :=
        h.client.keeps_silent _ h.down rfl rfl rfl
          (Or.inr ⟨by rw [hpc]; decide, show ClientPc.drain ∈ loopPcs by decide⟩)
          fun hk => ⟨(h.client.early hk).1, (h.client.early hk).2.1⟩
      exact ⟨p, k, h.session, hkeeps.place, hkeeps.down, hkeeps.up _ h.up, h.order⟩
    · cases hstep

/-! ## Steps in context

A step of the client reads the front of its inbox and appends to its outbox; a step of the session
does it the other way round.  So what is behind the one and before the other does not matter. -/

/-- The client with more units behind its inbox and before its outbox. -/
def Client.within (c : Client) (down up : List Item) : Client :=
  { c with
    inbox := ⟨c.inbox.taken, c.inbox.pending ++ down⟩
    outbox := ⟨c.outbox.taken, up ++ c.outbox.pending⟩ }

/-- The same as the session sees it. -/
def Client.facing (c : Client) (down up : List Item) : Client :=
  { c with
    inbox := ⟨c.inbox.taken, down ++ c.inbox.pending⟩
    outbox := ⟨c.outbox.taken, c.outbox.pending ++ up⟩ }

section Context

variable {cfg : Config} {token : Option String} {c c' : Client}

/-- A message is handled the same in any context. -/
theorem handleMessage_within (c : Client) (m : Message) (down up : List Item) :
    Client.handleMessage cfg token m (c.within down up) =
      (Client.handleMessage cfg token m c).within down up := by
  cases m with
  | paramExchange =>
    simp only [Client.handleMessage, Client.within, Client.write, Fifo.push, List.append_assoc]
  | displayResults =>
    simp only [Client.handleMessage, Client.within, Client.write, Fifo.push, List.append_assoc]
  | _ => rfl

theorem drainOr_within (c after : Client) (down up : List Item) :
    (c.within down up).drainOr (after.within down up) = (c.drainOr after).within down up := by
  cases hrx : c.receiptRx with
  | nil => simp only [Client.drainOr, Client.within, hrx]
  | cons r rs => simp only [Client.drainOr, Client.within, hrx]

theorem drainOr_inbox {after : Client} (h : after.inbox = c.inbox) :
    (c.drainOr after).inbox = c.inbox := by
  unfold Client.drainOr
  split
  · exact h
  · rfl

theorem finishStream_within (c : Client) (down up : List Item) :
    Client.finishStream cfg (c.within down up) = (Client.finishStream cfg c).within down up := by
  rcases Client.lastNotice_or_not cfg c with h | h
  · rw [Client.finishStream_last h, Client.finishStream_last (c := c.within down up) h]
    simp only [Client.within, Fifo.push, List.append_assoc]
  · rw [Client.finishStream_more h, Client.finishStream_more (c := c.within down up) h]
    rfl

theorem pop_within {i : Item} {rest : Fifo Item} (h : c.inbox.pop = some (i, rest))
    (down up : List Item) :
    (c.within down up).inbox.pop = some (i, ⟨rest.taken, rest.pending ++ down⟩) := by
  obtain ⟨hpending, htaken⟩ := Fifo.pop_eq_some.mp h
  refine Fifo.pop_eq_some.mpr ⟨?_, htaken⟩
  show c.inbox.pending ++ down = _
  rw [hpending]
  rfl

/-- **A step of the main thread that reads a unit**, with more units behind it. -/
theorem loopStep_within_read {cpu : CpuUsage} {i : Item} {rest : Fifo Item} {k : UnitKind}
    (h : Client.loopStep cfg token cpu c = some c') (hpop : c.inbox.pop = some (i, rest))
    (hread : c.pc.reads = some k) (hkind : i.kind = k) (down up : List Item) :
    Client.loopStep cfg token cpu (c.within down up) = some (c'.within down up) ∧
      c'.inbox = rest := by
  cases hpc : c.pc with
  | poll =>
    rw [hpc] at hread
    obtain rfl := Option.some.inj hread
    cases i with
    | byte m =>
      rw [Client.loopStep_message hpc hpop] at h
      obtain rfl := Option.some.inj h
      rw [Client.loopStep_message (c := c.within down up) hpc (pop_within hpop down up)]
      exact ⟨congrArg some (handleMessage_within { c with inbox := rest } m down up),
        (Client.handleMessage_channels cfg token m { c with inbox := rest }).1⟩
    | port p => cases hkind
    | options o => cases hkind
    | results r => cases hkind
  | readPort =>
    rw [hpc] at hread
    obtain rfl := Option.some.inj hread
    cases i with
    | port p =>
      rw [Client.loopStep_port hpc hpop] at h
      obtain rfl := Option.some.inj h
      exact ⟨Client.loopStep_port (c := c.within down up) hpc (pop_within hpop down up), rfl⟩
    | byte m => cases hkind
    | options o => cases hkind
    | results r => cases hkind
  | readResults =>
    rw [hpc] at hread
    obtain rfl := Option.some.inj hread
    cases i with
    | results r =>
      rw [Client.loopStep_results hpc hpop] at h
      obtain rfl := Option.some.inj h
      exact ⟨Client.loopStep_results (c := c.within down up) hpc (pop_within hpop down up), rfl⟩
    | byte m => cases hkind
    | port p => cases hkind
    | options o => cases hkind
  | exchange => rw [hpc] at hread; cases hread
  | drain => rw [hpc] at hread; cases hread
  | tryRecv => rw [hpc] at hread; cases hread
  | finalDrain => rw [hpc] at hread; cases hread
  | done => rw [hpc] at hread; cases hread

/-- **A step of the main thread that reads nothing**, in any context. -/
theorem loopStep_within {cpu : CpuUsage} (h : Client.loopStep cfg token cpu c = some c')
    (hread : c.pc.reads = none) (down up : List Item) :
    Client.loopStep cfg token cpu (c.within down up) = some (c'.within down up) ∧
      c'.inbox = c.inbox := by
  cases hpc : c.pc with
  | poll => rw [hpc] at hread; cases hread
  | readPort => rw [hpc] at hread; cases hread
  | readResults => rw [hpc] at hread; cases hread
  | exchange =>
    rw [Client.loopStep_exchange hpc] at h
    obtain rfl := Option.some.inj h
    rw [Client.loopStep_exchange (c := c.within down up) hpc, ← drainOr_within]
    refine ⟨?_, drainOr_inbox rfl⟩
    simp only [Client.within, Client.write, Fifo.push, List.append_assoc]
  | drain =>
    rw [Client.loopStep_drain hpc] at h
    obtain rfl := Option.some.inj h
    rw [Client.loopStep_drain (c := c.within down up) hpc]
    exact ⟨congrArg some (drainOr_within c { c with pc := .tryRecv } down up), drainOr_inbox rfl⟩
  | tryRecv =>
    cases hrx : c.rxChannel with
    | nil =>
      rw [Client.loopStep_noNotice hpc hrx] at h
      obtain rfl := Option.some.inj h
      exact ⟨Client.loopStep_noNotice (c := c.within down up) hpc hrx, rfl⟩
    | cons m rest =>
      by_cases hm : m = .testEnd
      · subst hm
        rw [Client.loopStep_notice hpc hrx] at h
        obtain rfl := Option.some.inj h
        rw [Client.loopStep_notice (c := c.within down up) hpc hrx]
        exact ⟨congrArg some (finishStream_within { c with rxChannel := rest } down up),
          (Client.finishStream_channels cfg { c with rxChannel := rest }).1⟩
      · rw [Client.loopStep_otherNotice hpc hrx hm] at h
        obtain rfl := Option.some.inj h
        exact ⟨Client.loopStep_otherNotice (c := c.within down up) hpc hrx hm, rfl⟩
  | finalDrain =>
    rw [Client.loopStep_finalDrain hpc] at h
    obtain rfl := Option.some.inj h
    rw [Client.loopStep_finalDrain (c := c.within down up) hpc]
    exact ⟨congrArg some (drainOr_within c { c with pc := .done } down up), drainOr_inbox rfl⟩
  | done =>
    simp only [Client.loopStep, hpc] at h
    cases h

/-- Anything the client does without reading, in any context. -/
theorem act_within {a : Client.Act} (h : Client.act cfg token a c = some c')
    (hread : ∀ cpu, a = .loop cpu → c.pc.reads = none) (down up : List Item) :
    Client.act cfg token a (c.within down up) = some (c'.within down up) ∧
      c'.inbox = c.inbox := by
  cases a with
  | loop cpu => exact loopStep_within h (hread cpu rfl) down up
  | emitReceipt i r =>
    simp only [Client.act, Client.emitReceipt] at h
    split at h
    · rename_i spec hi
      cases h
      refine ⟨?_, rfl⟩
      simp only [Client.act, Client.emitReceipt, Client.within, hi]
    · cases h
  | emitEnd i =>
    simp only [Client.act, Client.emitEnd] at h
    split at h
    · rename_i spec r hi
      cases h
      refine ⟨?_, rfl⟩
      simp only [Client.act, Client.emitEnd, Client.within, hi]
    · cases h

/-- **A session operation that reads nothing**, with units before and behind. -/
theorem serveOp_facing {world : (o : Op) → Except Stop o.Ok} {o : Op}
    {k : Except Stop o.Ok → Session Nat} {s : Net} (h : serveOp world c o k = some s)
    (hread : o.reads = none) (down up : List Item) :
    serveOp world (c.facing down up) o k = some ⟨s.client.facing down up, s.server⟩ ∧
      s.client.outbox = c.outbox := by
  cases o with
  | send i =>
    cases h
    refine ⟨?_, rfl⟩
    simp only [serveOp, Client.facing, Fifo.push, List.append_assoc]
  | recvOptions => cases hread
  | recvResults => cases hread
  | awaitByte stops => cases hread
  | _ =>
    cases h
    exact ⟨rfl, rfl⟩

theorem pop_facing {i : Item} {rest : Fifo Item} (h : c.outbox.pop = some (i, rest))
    (down up : List Item) :
    (c.facing down up).outbox.pop = some (i, ⟨rest.taken, rest.pending ++ up⟩) := by
  obtain ⟨hpending, htaken⟩ := Fifo.pop_eq_some.mp h
  refine Fifo.pop_eq_some.mpr ⟨?_, htaken⟩
  show c.outbox.pending ++ up = _
  rw [hpending]
  rfl

/-- **A control read of the session**, with more units behind the one it reads. -/
theorem serveOp_facing_read {world : (o : Op) → Except Stop o.Ok} {o : Op}
    {k : Except Stop o.Ok → Session Nat} {s : Net} {i : Item} {rest : Fifo Item}
    (h : serveOp world c o k = some s) (hpop : c.outbox.pop = some (i, rest))
    (hread : o.reads ≠ none) (down up : List Item) :
    serveOp world (c.facing down up) o k = some ⟨s.client.facing down up, s.server⟩ ∧
      s.client.outbox = rest ∧ s.client.inbox = c.inbox := by
  have hpop' := pop_facing hpop down up
  cases o with
  | recvOptions =>
    simp only [serveOp, hpop] at h
    simp only [serveOp, hpop']
    cases i with
    | options o =>
      cases h
      exact ⟨rfl, rfl, rfl⟩
    | byte m => cases h
    | port p => cases h
    | results r => cases h
  | recvResults =>
    simp only [serveOp, hpop] at h
    simp only [serveOp, hpop']
    cases i with
    | results r =>
      cases h
      exact ⟨rfl, rfl, rfl⟩
    | byte m => cases h
    | port p => cases h
    | options o => cases h
  | awaitByte stops =>
    simp only [serveOp, hpop] at h
    simp only [serveOp, hpop']
    cases i with
    | byte m =>
      cases h
      exact ⟨rfl, rfl, rfl⟩
    | options o => cases h
    | port p => cases h
    | results r => cases h
  | _ => exact absurd rfl hread

end Context

end Rperf3
