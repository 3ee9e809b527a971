/-
  The connection KEEPS ITS FRAMING.

  `Refines`: the bytes on the connection are those of the units in flight.  One byte-level step is
  at most one unit-level step (`Refines.step`), so every byte-level run is a unit-level run — as
  long as every reader asks for the kind of unit that comes next, which is what being in step
  (`InStep`) guarantees.  `control_connection_framed` collects what follows.
-/
import Rperf3.Protocol.ByteNet

namespace Rperf3

open Transition Effect Effect.Prog ShortIO

/-! ## Bytes refine units -/

/-- The byte-level state `b` stands for the unit-level state `s`: the same parties, and on the
    connection the bytes of just the units in flight. -/
structure Refines (js : Codecs) (b : ByteNet) (s : Net) : Prop where
  client : b.client = s.client.bare
  server : b.server = s.server
  down : b.down.Carries js s.client.inbox.pending
  up : b.up.Carries js s.client.outbox.pending

namespace Refines

variable {js : Codecs} {cfg : Config} {token : Option String} {b b' : ByteNet} {s : Net}
  {p : Place} {k : Stage}

theorem eq_within (h : Refines js b s) :
    s.client = b.client.within s.client.inbox.pending s.client.outbox.pending := by
  rw [h.client]
  simp only [Client.bare, Client.within, List.nil_append, List.append_nil]

theorem eq_facing (h : Refines js b s) :
    s.client = b.client.facing s.client.inbox.pending s.client.outbox.pending := by
  rw [h.client]
  simp only [Client.bare, Client.facing, List.nil_append, List.append_nil]

theorem settled {t : Net} {down up : Pipe} (h : ByteNet.settle js t down up = some b') :
    ∃ d u, down.write js t.client.inbox.pending = some d ∧
      up.write js t.client.outbox.pending = some u ∧ b' = ⟨t.client.bare, t.server, d, u⟩ := by
  obtain ⟨d, hd, h⟩ := Option.bind_eq_some_iff.mp h
  obtain ⟨u, hu, h⟩ := Option.bind_eq_some_iff.mp h
  exact ⟨d, u, hd, hu, (Option.some.inj h).symm⟩

/-- The client's writes go out; `more` is what it has left unread. -/
theorem settle_client {c : Client} {down : Pipe} {more pending : List Item}
    (hin : c.inbox.pending = []) (hdown : down.Carries js more) (hup : b.up.Carries js pending)
    (h : ByteNet.settle js ⟨c, b.server⟩ down b.up = some b') :
    Refines js b' ⟨c.within more pending, b.server⟩ := by
  obtain ⟨d, u, hd, hu, rfl⟩ := settled h
  rw [hin, Pipe.write_nil] at hd
  obtain rfl := Option.some.inj hd
  refine ⟨rfl, rfl, ?_, hup.write hu⟩
  show Pipe.Carries js (c.inbox.pending ++ more) down
  rw [hin]
  exact hdown

/-- The session's writes go out; `more` is what it has left unread. -/
theorem settle_server {t : Net} {up : Pipe} {more pending : List Item}
    (hout : t.client.outbox.pending = []) (hdown : b.down.Carries js pending)
    (hup : up.Carries js more) (h : ByteNet.settle js t b.down up = some b') :
    Refines js b' ⟨t.client.facing pending more, t.server⟩ := by
  obtain ⟨d, u, hd, hu, rfl⟩ := settled h
  rw [hout, Pipe.write_nil] at hu
  obtain rfl := Option.some.inj hu
  refine ⟨rfl, rfl, hdown.write hd, ?_⟩
  show Pipe.Carries js (t.client.outbox.pending ++ more) up
  rw [hout]
  exact hup

/-- The unit at the front of the client's inbox is of the kind its main thread reads. -/
theorem kind_of_inbox (hin : InStep (sendOptions cfg token) p k s) {kind : UnitKind} {i : Item}
    {more : List Item} (hread : s.client.pc.reads = some kind)
    (hpending : s.client.inbox.pending = i :: more) : i.kind = kind := by
  have hpop : s.client.inbox.pop = some (i, ⟨s.client.inbox.taken ++ [i], more⟩) :=
    Fifo.pop_eq_some.mpr ⟨hpending, rfl⟩
  obtain ⟨hbyte, hport, hresults⟩ := hin.client_framed hpop
  cases hpc : s.client.pc with
  | poll =>
    obtain ⟨m, rfl⟩ := hbyte hpc
    rw [hpc] at hread
    exact Option.some.inj hread
  | readPort =>
    obtain ⟨n, rfl⟩ := hport hpc
    rw [hpc] at hread
    exact Option.some.inj hread
  | readResults =>
    obtain ⟨r, rfl⟩ := hresults hpc
    rw [hpc] at hread
    exact Option.some.inj hread
  | exchange => rw [hpc] at hread; cases hread
  | drain => rw [hpc] at hread; cases hread
  | tryRecv => rw [hpc] at hread; cases hread
  | finalDrain => rw [hpc] at hread; cases hread
  | done => rw [hpc] at hread; cases hread

/-- **What the main thread finds** when it reads: the next unit in flight, read back, or not all of
    it. -/
theorem client_recv (hjs : js.Lawful) (h : Refines js b s)
    (hin : InStep (sendOptions cfg token) p k s) {kind : UnitKind}
    (hread : b.client.pc.reads = some kind) :
    (∃ i more rest, s.client.inbox.pending = i :: more ∧ i.kind = kind ∧
      (kind.recv js).on b.down.arrived = (.ok (i.readBack js), rest) ∧
      Pipe.Carries js more { b.down with arrived := rest }) ∨
    ((∃ rest, (kind.recv js).on b.down.arrived = (.error wouldBlockError, rest)) ∧
      (s.client.inbox.pending = [] ∨ b.down.flight ≠ [])) := by
  have hpc : s.client.pc.reads = some kind := by
    rw [h.client] at hread
    exact hread
  have hdown := h.down
  cases hpending : s.client.inbox.pending with
  | nil =>
    rw [hpending] at hdown
    rw [hdown.nil.1]
    exact Or.inr ⟨⟨[], recv_nil kind⟩, Or.inl rfl⟩
  | cons i more =>
    have hkind := kind_of_inbox hin hpc hpending
    rw [hpending] at hdown
    rcases hdown.recv hjs with ⟨rest, hok, hrest⟩ | ⟨hdry, hflight⟩
    · rw [hkind] at hok
      exact Or.inl ⟨i, more, rest, rfl, hkind, hok, hrest⟩
    · rw [hkind] at hdry
      exact Or.inr ⟨⟨[], hdry⟩, Or.inr hflight⟩

/-- The unit at the front of the client's outbox is of the kind the session reads. -/
theorem kind_of_outbox {c : Client} {o : Op} {next : Except Stop o.Ok → Session Nat}
    (hin : InStep (sendOptions cfg token) p k ⟨c, .op o next⟩) {kind : UnitKind} {i : Item}
    {more : List Item} (hread : o.reads = some kind) (hpending : c.outbox.pending = i :: more) :
    i.kind = kind := by
  have hpop : c.outbox.pop = some (i, ⟨c.outbox.taken ++ [i], more⟩) :=
    Fifo.pop_eq_some.mpr ⟨hpending, rfl⟩
  obtain ⟨t, ht⟩ := hin.server_framed
    (by cases o with
      | recvOptions => rfl
      | recvResults => rfl
      | awaitByte stops => rfl
      | _ => cases hread) hpop fun _ => .error (.io eofError)
  cases o with
  | recvOptions =>
    simp only [serveOp, hpop] at ht
    cases i with
    | options o => exact Option.some.inj hread
    | byte m => cases ht
    | port p => cases ht
    | results r => cases ht
  | recvResults =>
    simp only [serveOp, hpop] at ht
    cases i with
    | results r => exact Option.some.inj hread
    | byte m => cases ht
    | port p => cases ht
    | options o => cases ht
  | awaitByte stops =>
    simp only [serveOp, hpop] at ht
    cases i with
    | byte m => exact Option.some.inj hread
    | options o => cases ht
    | port p => cases ht
    | results r => cases ht
  | _ => cases hread

/-- **What the session finds** when it reads. -/
theorem server_recv (hjs : js.Lawful) (h : Refines js b s)
    (hin : InStep (sendOptions cfg token) p k s) {o : Op} {next : Except Stop o.Ok → Session Nat}
    (hserver : b.server = .op o next) {kind : UnitKind} (hread : o.reads = some kind) :
    (∃ i more rest, s.client.outbox.pending = i :: more ∧
      (kind.recv js).on b.up.arrived = (.ok (i.readBack js), rest) ∧
      Pipe.Carries js more { b.up with arrived := rest }) ∨
    ((∃ rest, (kind.recv js).on b.up.arrived = (.error wouldBlockError, rest)) ∧
      (s.client.outbox.pending = [] ∨ b.up.flight ≠ [])) := by
  obtain ⟨c, server⟩ := s
  obtain rfl : server = .op o next := h.server.symm.trans hserver
  have hup := h.up
  cases hpending : c.outbox.pending with
  | nil =>
    rw [hpending] at hup
    rw [hup.nil.1]
    exact Or.inr ⟨⟨[], recv_nil kind⟩, Or.inl rfl⟩
  | cons i more =>
    have hkind := kind_of_outbox hin hread hpending
    rw [hpending] at hup
    rcases hup.recv hjs with ⟨rest, hok, hrest⟩ | ⟨hdry, hflight⟩
    · rw [hkind] at hok
      exact Or.inl ⟨i, more, rest, rfl, hok, hrest⟩
    · rw [hkind] at hdry
      exact Or.inr ⟨⟨[], hdry⟩, Or.inr hflight⟩

theorem inbox_empty (h : Refines js b s) : b.client.inbox.pending = [] := by
  rw [h.client]
  rfl

theorem outbox_empty (h : Refines js b s) : b.client.outbox.pending = [] := by
  rw [h.client]
  rfl

theorem netStep_client (h : Refines js b s) {a : Client.Act} {c c' : Client}
    (hact : Client.act cfg token a c = some c') :
    netStep cfg token (.client a) { s with client := c } = some ⟨c', b.server⟩ := by
  show (Client.act cfg token a c).map _ = _
  rw [hact, h.server]
  rfl

/-- The main thread, with one decoded unit in its inbox, is where the unit-level client is that
    reads the front of its own. -/
theorem decodesInbox_eq (h : Refines js b s) {i : Item} {more : List Item}
    (hpending : s.client.inbox.pending = i :: more) :
    ({ b.client with inbox := b.client.inbox.push (i.readBack js) } : Client).within more
      s.client.outbox.pending = s.client.decodesInbox js := by
  conv_rhs => rw [h.eq_within, hpending]
  simp only [Client.within, Client.decodesInbox, Fifo.push, Fifo.mapFront, h.inbox_empty,
    List.nil_append, List.singleton_append, List.modifyHead_cons]

theorem decodedOutbox_eq (h : Refines js b s) {i : Item} {more : List Item}
    (hpending : s.client.outbox.pending = i :: more) :
    ({ b.client with outbox := b.client.outbox.push (i.readBack js) } : Client).facing
      s.client.inbox.pending more = s.client.decodedOutbox js := by
  conv_rhs => rw [h.eq_facing, hpending]
  simp only [Client.facing, Client.decodedOutbox, Fifo.push, Fifo.mapFront, h.outbox_empty,
    List.nil_append, List.singleton_append, List.modifyHead_cons]

/-- The main thread reads: the unit at the front of the inbox, or, at a poll, nothing. -/
theorem clientStep_reads (hjs : js.Lawful) (h : Refines js b s)
    (hin : InStep (sendOptions cfg token) p k s) {cpu : CpuUsage} {kind : UnitKind}
    (hkind : b.client.pc.reads = some kind)
    (hstep : b.clientStep js cfg token (.loop cpu) = some b') :
    ∃ act t, slowStep js cfg token act s = some t ∧ Refines js b' t := by
  simp only [ByteNet.clientStep, hkind] at hstep
  rcases client_recv hjs h hin hkind with
    ⟨i, more, rest, hpending, hik, hok, hrest⟩ | ⟨⟨rest, hdry⟩, -⟩
  · rw [hok] at hstep
    obtain ⟨c, hact, hstep⟩ := Option.bind_eq_some_iff.mp hstep
    obtain ⟨hcontext, hinbox⟩ := loopStep_within_read hact
      (Fifo.pop_push_of_empty h.inbox_empty _) hkind ((kind_readBack i).trans hik) more
      s.client.outbox.pending
    rw [h.decodesInbox_eq hpending] at hcontext
    exact ⟨.clientReads cpu, _, h.netStep_client (a := .loop cpu) hcontext,
      settle_client (by rw [hinbox]) hrest h.up hstep⟩
  · -- not all of it has arrived: only a poll goes on
    rw [hdry] at hstep
    simp only [wouldBlockError, ne_eq, not_true_eq_false, if_false] at hstep
    split at hstep
    · rename_i hpoll
      cases hstep
      have hpc : s.client.pc = .poll := by
        rw [h.client] at hpoll
        exact hpoll
      refine ⟨.idlePoll, _, if_pos hpc, ?_, h.server, h.down, h.up⟩
      show { b.client with pc := ClientPc.drain } = _
      rw [h.client]
      rfl
    · cases hstep

/-- **A step of the client** is one of the unit-level client. -/
theorem clientStep (hjs : js.Lawful) (h : Refines js b s)
    (hin : InStep (sendOptions cfg token) p k s) {a : Client.Act}
    (hstep : b.clientStep js cfg token a = some b') :
    ∃ act t, slowStep js cfg token act s = some t ∧ Refines js b' t := by
  by_cases hread : ∃ cpu kind, a = .loop cpu ∧ b.client.pc.reads = some kind
  · obtain ⟨cpu, kind, rfl, hkind⟩ := hread
    exact h.clientStep_reads hjs hin hkind hstep
  · -- nothing is read
    have hnone : ∀ cpu, a = .loop cpu → b.client.pc.reads = none := by
      intro cpu hcpu
      cases hkind : b.client.pc.reads with
      | none => rfl
      | some kind => exact absurd ⟨cpu, kind, hcpu, hkind⟩ hread
    have hplain : b.clientStep js cfg token a = (do
        let c ← Client.act cfg token a b.client
        ByteNet.settle js ⟨c, b.server⟩ b.down b.up) := by
      cases a with
      | loop cpu => simp only [ByteNet.clientStep, hnone cpu rfl]
      | emitReceipt i r => rfl
      | emitEnd i => rfl
    rw [hplain] at hstep
    obtain ⟨c, hact, hstep⟩ := Option.bind_eq_some_iff.mp hstep
    obtain ⟨hcontext, hinbox⟩ :=
      act_within hact hnone s.client.inbox.pending s.client.outbox.pending
    rw [← h.eq_within] at hcontext
    exact ⟨.net (.client a), _, h.netStep_client hcontext,
      settle_client (by rw [hinbox, h.inbox_empty]) h.down h.up hstep⟩

/-- **A step of the session** is one of the unit-level session. -/
theorem serverStep (hjs : js.Lawful) (h : Refines js b s)
    (hin : InStep (sendOptions cfg token) p k s) {world : (o : Op) → Except Stop o.Ok}
    (hstep : b.serverStep js world = some b') :
    ∃ act t, slowStep js cfg token act s = some t ∧ Refines js b' t := by
  unfold ByteNet.serverStep at hstep
  split at hstep
  · cases hstep
  rename_i o next hserver
  have hmove : ∀ {c : Client} {t : Net}, serveOp world c o next = some t →
      netStep cfg token (.server world) { s with client := c } = some t := by
    intro c t ht
    obtain ⟨_, server⟩ := s
    obtain rfl : server = .op o next := h.server.symm.trans hserver
    exact ht
  split at hstep
  · -- nothing is read
    rename_i hread
    obtain ⟨t, ht, hstep⟩ := Option.bind_eq_some_iff.mp hstep
    obtain ⟨hcontext, houtbox⟩ :=
      serveOp_facing ht hread s.client.inbox.pending s.client.outbox.pending
    rw [← h.eq_facing] at hcontext
    exact ⟨.net (.server world), _, hmove hcontext,
      settle_server (by rw [houtbox, h.outbox_empty]) h.down h.up hstep⟩
  · rename_i kind hread
    rcases server_recv hjs h hin hserver hread with
      ⟨i, more, rest, hpending, hok, hrest⟩ | ⟨⟨rest, hdry⟩, -⟩
    · rw [hok] at hstep
      obtain ⟨t, ht, hstep⟩ := Option.bind_eq_some_iff.mp hstep
      obtain ⟨hcontext, houtbox, hinbox⟩ := serveOp_facing_read ht
        (Fifo.pop_push_of_empty h.outbox_empty _) (by rw [hread]; nofun) s.client.inbox.pending more
      rw [h.decodedOutbox_eq hpending] at hcontext
      exact ⟨.serverReads world, _, hmove hcontext,
        settle_server (by rw [houtbox]) h.down hrest hstep⟩
    · -- a blocking read waits
      rw [hdry] at hstep
      cases hstep

/-- **One byte-level step is at most one unit-level step.** -/
theorem step (hjs : js.Lawful) (h : Refines js b s) (hin : InStep (sendOptions cfg token) p k s)
    {a : ByteAct} (hstep : byteStep js cfg token a b = some b') :
    Refines js b' s ∨ ∃ act t, slowStep js cfg token act s = some t ∧ Refines js b' t := by
  cases a with
  | client a => exact Or.inr (h.clientStep hjs hin hstep)
  | server world => exact Or.inr (h.serverStep hjs hin hstep)
  | deliverDown n =>
    cases hstep
    refine Or.inl ⟨h.client, h.server, ⟨h.down.sendable, ?_⟩, h.up⟩
    rw [← h.down.stream]
    exact Pipe.stream_deliver n b.down
  | deliverUp n =>
    cases hstep
    refine Or.inl ⟨h.client, h.server, h.down, ⟨h.up.sendable, ?_⟩⟩
    rw [← h.up.stream]
    exact Pipe.stream_deliver n b.up

end Refines

/-! ## The connection keeps its framing -/

/-- The main thread's next read would report an error that is not "nothing yet". -/
def ByteNet.ClientFaults (js : Codecs) (b : ByteNet) : Prop :=
  ∃ kind e rest, b.client.pc.reads = some kind ∧
    (kind.recv js).on b.down.arrived = (.error e, rest) ∧ e.kind ≠ .wouldBlock

/-- The session's next read would. -/
def ByteNet.ServerFaults (js : Codecs) (b : ByteNet) : Prop :=
  ∃ o next kind e rest, b.server = .op o next ∧ o.reads = some kind ∧
    (kind.recv js).on b.up.arrived = (.error e, rest) ∧ e.kind ≠ .wouldBlock

/-- Both parties wait: everything written has arrived, and neither finds a complete unit, though
    every stream thread has finished and `TestEnd` has been sent. -/
structure ByteNet.Deadlocked (js : Codecs) (b : ByteNet) : Prop where
  server_waits : ∃ o next kind rest, b.server = .op o next ∧ o.reads = some kind ∧
    (kind.recv js).on b.up.arrived = (.error wouldBlockError, rest)
  client_waits : ∃ kind rest, b.client.pc.reads = some kind ∧
    (kind.recv js).on b.down.arrived = (.error wouldBlockError, rest)
  threads_finished : ∀ t ∈ b.client.threads, t.isFinished = true
  end_sent : b.client.testEndSent = true
  delivered : b.down.flight = [] ∧ b.up.flight = []

section Framed

variable {js : Codecs} {cfg : Config} {token : Option String} {program : Session Nat} {b : ByteNet}
  {s : Net} {p : Place} {k : Stage}

theorem InStep.slowReachable
    (hconf : (dialogue (sendOptions cfg token)).wp program (fun _ _ => True) ⟨.idle, .nothing⟩)
    (h : (slowNet js cfg token program).Reachable s) :
    ∃ p k, InStep (sendOptions cfg token) p k s := by
  refine h.invariant (I := fun s => ∃ p k, InStep (sendOptions cfg token) p k s)
    (fun s hs => ?_) (fun a s t ⟨p, k, hst⟩ hstep => hst.slowStep hstep)
  cases hs
  exact InStep.reachable hconf (System.Reachable.init rfl)

/-- **Every byte-level run is a unit-level run**, if the session keeps the dialogue. -/
theorem Refines.reachable (hjs : js.Lawful)
    (hconf : (dialogue (sendOptions cfg token)).wp program (fun _ _ => True) ⟨.idle, .nothing⟩)
    (h : (byteNet js cfg token program).Reachable b) :
    ∃ s, (slowNet js cfg token program).Reachable s ∧ Refines js b s := by
  refine h.invariant
    (I := fun b => ∃ s, (slowNet js cfg token program).Reachable s ∧ Refines js b s)
    (fun b hb => ?_) (fun a b b' hb hstep => ?_)
  · cases hb
    exact ⟨⟨Client.initial, program⟩, System.Reachable.init rfl, rfl, rfl,
      ⟨fun i hi => absurd hi List.not_mem_nil, rfl⟩, ⟨fun i hi => absurd hi List.not_mem_nil, rfl⟩⟩
  · obtain ⟨s, hs, href⟩ := hb
    obtain ⟨p, k, hin⟩ := InStep.slowReachable hconf hs
    rcases href.step hjs hin hstep with hsame | ⟨act, t, hact, ht⟩
    · exact ⟨s, hs, hsame⟩
    · exact ⟨t, hs.step act hact, ht⟩

theorem Refines.not_clientFaults (hjs : js.Lawful) (h : Refines js b s)
    (hin : InStep (sendOptions cfg token) p k s) : ¬ b.ClientFaults js := by
  rintro ⟨kind, e, rest, hread, hrecv, hkind⟩
  rcases h.client_recv hjs hin hread with ⟨i, more, rest', -, -, hok, -⟩ | ⟨⟨rest', hdry⟩, -⟩
  · rw [hok] at hrecv
    cases hrecv
  · rw [hdry] at hrecv
    cases hrecv
    exact hkind rfl

theorem Refines.not_serverFaults (hjs : js.Lawful) (h : Refines js b s)
    (hin : InStep (sendOptions cfg token) p k s) : ¬ b.ServerFaults js := by
  rintro ⟨o, next, kind, e, rest, hserver, hread, hrecv, hkind⟩
  rcases h.server_recv hjs hin hserver hread with ⟨i, more, rest', -, hok, -⟩ | ⟨⟨rest', hdry⟩, -⟩
  · rw [hok] at hrecv
    cases hrecv
  · rw [hdry] at hrecv
    cases hrecv
    exact hkind rfl

/-- Two parties that wait with everything delivered have no unit in flight. -/
theorem Refines.not_deadlocked (hjs : js.Lawful) (h : Refines js b s)
    (hin : InStep (sendOptions cfg token) p k s) : ¬ b.Deadlocked js := by
  intro hd
  obtain ⟨o, next, kind, rest, hserver, hread, hdry⟩ := hd.server_waits
  obtain ⟨kind', rest', hread', hdry'⟩ := hd.client_waits
  have hup : s.client.outbox.pending = [] := by
    rcases h.server_recv hjs hin hserver hread with ⟨i, more, _, -, hok, -⟩ | ⟨-, hnil | hflight⟩
    · rw [hok] at hdry
      cases hdry
    · exact hnil
    · exact absurd hd.delivered.2 hflight
  have hdown : s.client.inbox.pending = [] := by
    rcases h.client_recv hjs hin hread' with ⟨i, more, _, -, -, hok, -⟩ | ⟨-, hnil | hflight⟩
    · rw [hok] at hdry'
      cases hdry'
    · exact hnil
    · exact absurd hd.delivered.1 hflight
  have hpc : s.client.pc.reads = some kind' := by
    rw [h.client] at hread'
    exact hread'
  refine hin.not_deadlocked ⟨⟨o, next, h.server.symm.trans hserver, ?_⟩, ?_, ?_, ?_, hdown, hup⟩
  · cases o with
    | recvOptions => rfl
    | recvResults => rfl
    | awaitByte stops => rfl
    | _ => cases hread
  · cases hc : s.client.pc with
    | poll => decide
    | readPort => decide
    | readResults => decide
    | exchange => rw [hc] at hpc; cases hpc
    | drain => rw [hc] at hpc; cases hpc
    | tryRecv => rw [hc] at hpc; cases hpc
    | finalDrain => rw [hc] at hpc; cases hpc
    | done => rw [hc] at hpc; cases hpc
  · have := hd.threads_finished
    rw [h.client] at this
    exact this
  · have := hd.end_sent
    rw [h.client] at this
    exact this

end Framed

/-- **The control connection keeps its framing**, as long as no control write fails or is cut short
    and no read times out.  For every session the server admits, through either driver (the reversed
    UDP test of `serve_session_from_channel` apart), and however its bytes are cut up and delayed:
    every byte-level run is a run of the unit-level system, results being whatever they read back
    as; no read of either party ever meets an unknown control byte, a wrong length or a body that
    does not parse; and the two never wait for each other with the connection drained. -/
theorem control_connection_framed {js : Codecs} (hjs : js.Lawful) (cfg : Config)
    (token : Option String) (entry : Entry) (auth : AuthConfig) (cookie : Bytes)
    (timeout : Option Nat) (hadm : admitted auth (sendOptions cfg token))
    (hgood : ¬ (entry = .channel ∧ cfg.transport = .udp ∧ cfg.direction = .reverse)) {b : ByteNet}
    (hb : (byteNet js cfg token (sessionProgram entry auth cookie timeout)).Reachable b) :
    (∃ s, (slowNet js cfg token (sessionProgram entry auth cookie timeout)).Reachable s ∧
      Refines js b s) ∧
    ¬ b.ClientFaults js ∧ ¬ b.ServerFaults js ∧ ¬ b.Deadlocked js := by
  have hends := ends_sessionProgram cookie timeout hadm (sendOptions_not_both cfg token)
    (fun h => hgood (readsEndTwice_iff.mp h))
  have hconf : (dialogue (sendOptions cfg token)).wp (sessionProgram entry auth cookie timeout)
      (fun _ _ => True) ⟨.idle, .nothing⟩ := Discipline.wp_mono (fun _ _ _ => trivial) hends
  obtain ⟨s, hs, href⟩ := Refines.reachable hjs hconf hb
  obtain ⟨p, k, hin⟩ := InStep.slowReachable hconf hs
  exact ⟨⟨s, hs, href⟩, href.not_clientFaults hjs hin, href.not_serverFaults hjs hin,
    href.not_deadlocked hjs hin⟩

/-- One value of the options, printed as braces, and brackets for any results. -/
def bracketCodecs : Codecs where
  options :=
    { toVec := fun o =>
        if o = sendOptions (Config.withHost "server") none then .ok [123, 125]
        else .error "not printed"
      fromSlice := fun bs =>
        if bs = [123, 125] then .ok (sendOptions (Config.withHost "server") none)
        else .error "not parsed" }
  results :=
    { toVec := fun _ => .ok [91, 93]
      fromSlice := fun bs =>
        if bs = [91, 93] then .ok ⟨0, 0, 0, 0, []⟩ else .error "not parsed" }

theorem bracketCodecs_lawful : bracketCodecs.Lawful := by
  refine ⟨fun o body h => ?_, fun r body h => ?_⟩
  · simp only [bracketCodecs] at h ⊢
    split at h
    · rename_i ho
      cases h
      rw [if_pos rfl, ho]
    · cases h
  · cases h
    exact ⟨⟨0, 0, 0, 0, []⟩, rfl⟩

/-- A new client polls the byte of `ParamExchange` and puts its options on the connection. -/
theorem asked_clientStep (program server : Session Nat) :
    (byteNet bracketCodecs (Config.withHost "server") none program).step (.client (.loop .zero))
        ⟨Client.initial, server, ⟨[9], []⟩, .empty⟩ =
      some ⟨{ Client.initial with pc := .drain, inbox := ⟨[.byte .paramExchange], []⟩ }, server,
        .empty, ⟨[], [0, 0, 0, 2, 123, 125]⟩⟩ := by
  have hrecv : (UnitKind.byte.recv bracketCodecs).on [9] = (.ok (.byte .paramExchange), []) :=
    recv_unit bracketCodecs_lawful (i := .byte .paramExchange) rfl []
  have hreads : Client.initial.pc.reads = some .byte := rfl
  simp only [byteNet, byteStep, ByteNet.clientStep, hreads, hrecv]
  rfl

/-- Half of the options' length has arrived: the session waits, and nothing is wrong. -/
theorem control_connection_framed_halfLength :
    ∃ b, (byteNet bracketCodecs (Config.withHost "server") none
        (sessionProgram .channel none [] none)).Reachable b ∧
      b.up = ⟨[0, 0], [0, 2, 123, 125]⟩ ∧ ¬ b.ServerFaults bracketCodecs ∧
      ¬ b.Deadlocked bracketCodecs := by
  have hinit : (byteNet bracketCodecs (Config.withHost "server") none
      (sessionProgram .channel none [] none)).Reachable
        ⟨Client.initial, sessionProgram .channel none [] none, .empty, .empty⟩ :=
    System.Reachable.init rfl
  obtain ⟨server, hasked⟩ : ∃ server, (byteNet bracketCodecs (Config.withHost "server") none
      (sessionProgram .channel none [] none)).Reachable
        ⟨Client.initial, server, ⟨[9], []⟩, .empty⟩ :=
    ⟨_, (hinit.step (.server calmWorld) rfl).step (.deliverDown 1) rfl⟩
  have hhalf := (hasked.step (.client (.loop .zero)) (asked_clientStep _ server)).step
    (.deliverUp 2) rfl
  obtain ⟨-, -, hserver, hdead⟩ := control_connection_framed bracketCodecs_lawful
    (Config.withHost "server") none .channel none [] none ⟨rfl, fun _ h => nomatch h⟩
    (fun h => nomatch h.2.1) hhalf
  exact ⟨_, hhalf, rfl, hserver, hdead⟩

end Rperf3
