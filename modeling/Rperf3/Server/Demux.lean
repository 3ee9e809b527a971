/-
  Cookie demultiplexing: the accept loop, the channels it feeds and the session threads that drain
  them, as ONE transition system.

  `AcceptLoop` says who is registered.  Here every connection the loop handles is an object with a
  place in the order of handling, `held` is the one in the accept thread's hands, and a session is
  its `mpsc` channel together with what is left of its driver `serve_session_from_channel`.

  1. `Demux.step` — the steps of `AcceptLoop` with the connections they move: the decision under the
     lock pushes the connection on the channel of the registered session (or drops it, when that
     session's receiver is gone), `Session::new` keeps it as the control connection.  A session
     thread performs its driver's next operation; only a `recv` on the channel is answered by the
     model, everything else by the schedule.
  2. `Moves` — what an enabled step is; the steps that move no connection are all `Quiet`.
  3. `reachable_loop` — a run of this system is a run of `AcceptLoop`, so its invariant is at hand.
-/
import Rperf3.Lib.Fifo
import Rperf3.Server.AcceptLoop
import Rperf3.Server.AcceptStreams

namespace Rperf3

open Effect Effect.Prog Transition

instance (cookie : Bytes) (timeout : Option Nat) (c : Conn) :
    Decidable (presentsCookie cookie timeout c) :=
  inferInstanceAs (Decidable (_ = _))

/-- A connection presents one cookie only. -/
theorem presentsCookie_unique {cookie cookie' : Bytes} {timeout : Option Nat} {c : Conn}
    (h : presentsCookie cookie timeout c) (h' : presentsCookie cookie' timeout c) :
    cookie = cookie' :=
  Blocking.done.inj (h.symm.trans h')

/-! ## States -/

/-- A connection with its place in the order of handling: two sockets that look alike are still
    two sockets. -/
abbrev HandledConn := Conn × Nat

/-- A session of the concurrent server: the place of its control connection, its channel, what its
    driver has done so far and what is left of it. -/
structure ChannelSession where
  auth : AuthConfig
  control : Nat
  channel : Fifo HandledConn
  transcript : List (Event Op Op.Ok Stop)
  rest : Session Nat

/-- `Session::new`, about to be served. -/
def ChannelSession.new (auth : AuthConfig) (cookie : Bytes) (timeout : Option Nat) (control : Nat) :
    ChannelSession :=
  ⟨auth, control, Fifo.empty, [], serveSessionFromChannel auth cookie timeout⟩

/-- Every connection the session was ever given. -/
def ChannelSession.connections (x : ChannelSession) : List Nat :=
  x.control :: x.channel.sent.map Prod.snd

/-- The session still owns its `Receiver`; it is dropped when the driver returns or unwinds. -/
def Phase.receiving : Phase → Bool
  | .starting | .serving => true
  | _ => false

theorem Phase.inRegistry_of_receiving : ∀ {ph : Phase}, ph.receiving = true → ph.inRegistry = true
  | .starting, _ => rfl
  | .serving, _ => rfl

/-- The server with its connections: `handled` in the order of the decisions under the lock. -/
structure Demux where
  loop : AcceptLoop
  held : Option Conn
  handled : List Conn
  sessions : List ChannelSession

/-! ## Steps -/

/-- How the world answers a session: `recv` on the channel takes the oldest connection, and times
    out only when there is none. -/
def sessionAnswer (answer : (o : Op) → Except Stop o.Ok) (q : Fifo HandledConn) :
    (o : Op) → Option (Except Stop o.Ok × Fifo HandledConn)
  | .recvDataStream timeout =>
    match q.pop, timeout with
    | some (a, q'), _ => some (.ok a.1, q')
    | none, some _ => some (.error (.io ⟨.timedOut, "timed out waiting for data stream"⟩), q)
    | none, none => none
  | o => some (answer o, q)

/-- The session thread performs its driver's next operation. -/
def ChannelSession.advance (answer : (o : Op) → Except Stop o.Ok) (x : ChannelSession) :
    Option ChannelSession :=
  match x.rest with
  | .ret _ => none
  | .op o k =>
    (sessionAnswer answer x.channel o).map fun aq =>
      { x with channel := aq.2, transcript := x.transcript ++ [⟨o, aq.1⟩], rest := k aq.1 }

inductive DemuxAct
  | accept (c : Conn)
  | lockRegistry
  | dispatch
  | register (auth : AuthConfig)
  | spawnThread
  | perform (id : Nat) (answer : (o : Op) → Except Stop o.Ok)
  | finish (id : Nat)
  | removeEntry (id : Nat)
  | dropGuard (id : Nat)

namespace Demux

/-- `handle.data_tx.send(tcp)`: a session whose receiver is gone does not get the connection. -/
def deliver (s : Demux) (cookie : Bytes) (c : Conn) : List ChannelSession :=
  match s.loop.registry.lookup cookie with
  | none => s.sessions
  | some id =>
    match s.loop.threads[id]?, s.sessions[id]? with
    | some t, some x =>
      if t.phase.receiving then
        s.sessions.set id { x with channel := x.channel.push (c, s.handled.length) }
      else s.sessions
    | _, _ => s.sessions

/-- A step of the loop that moves no connection. -/
def moveLoop (maxConcurrent : Nat) (a : LoopAct) (s : Demux) : Option Demux :=
  (s.loop.step maxConcurrent a).map fun loop => { s with loop := loop }

/-- One atomic step of the accept thread or of a session thread.  A peer that sends no cookie and
    stays connected blocks an accept thread without timeout: no step. -/
def step (maxConcurrent : Nat) (timeout : Option Nat) (a : DemuxAct) (s : Demux) : Option Demux :=
  match a with
  | .accept c =>
    match recvCookie timeout c.incoming with
    | .done cookie =>
      (s.loop.step maxConcurrent (.connect (.ok cookie) c.peer.ip)).map fun loop =>
        { s with loop := loop, held := some c }
    | .failed e => s.moveLoop maxConcurrent (.connect (.error e) c.peer.ip)
    | .blocked => none
  | .lockRegistry => s.moveLoop maxConcurrent .lockRegistry
  | .dispatch =>
    match s.loop.pc, s.held with
    | .holding cookie _, some c =>
      (s.loop.step maxConcurrent .dispatch).map fun loop =>
        { loop := loop, held := none, handled := s.handled ++ [c], sessions := s.deliver cookie c }
    | _, _ => none
  | .register auth =>
    match s.loop.pc with
    | .acquired cookie _ =>
      (s.loop.step maxConcurrent .register).map fun loop =>
        { s with
          loop := loop
          sessions :=
            s.sessions ++ [ChannelSession.new auth cookie timeout (s.handled.length - 1)] }
    | _ => none
  | .spawnThread => s.moveLoop maxConcurrent .spawnThread
  | .perform id answer =>
    (s.loop.threads[id]?).bind fun t =>
      if t.phase = .serving then
        (s.sessions[id]?).bind fun x =>
          (x.advance answer).map fun x' => { s with sessions := s.sessions.set id x' }
      else none
  | .finish id =>
    (s.sessions[id]?).bind fun x =>
      match x.rest with
      | .ret r => s.moveLoop maxConcurrent (.finish id r)
      | .op _ _ => none
  | .removeEntry id => s.moveLoop maxConcurrent (.removeEntry id)
  | .dropGuard id => s.moveLoop maxConcurrent (.dropGuard id)

def empty : Demux := ⟨AcceptLoop.empty, none, [], []⟩

/-- The concurrent server with a given `max_concurrent` and handshake timeout. -/
def system (maxConcurrent : Nat) (timeout : Option Nat) : System Demux DemuxAct where
  init s := s = empty
  step := step maxConcurrent timeout

/-! ## Steps that move no connection -/

variable {maxConcurrent : Nat} {timeout : Option Nat}

/-- The cookie of the connection in the accept thread's hands, up to the decision. -/
def presented : LoopPc → Option Bytes
  | .cookieRead c _ | .holding c _ => some c
  | _ => none

/-- The cookie of the connection that is about to become a control connection. -/
def admitted : LoopPc → Option Bytes
  | .acquired c _ => some c
  | _ => none

/-- The accept thread takes, decides about or keeps a connection. -/
def movesConn : LoopAct → Bool
  | .connect (.ok _) _ | .dispatch | .register => true
  | _ => false

/-- What all other steps have in common: no thread appears, changes its cookie or gets its receiver
    back, and the accept thread has no new connection in its hands. -/
structure Quiet (l l' : AcceptLoop) : Prop where
  size : l'.threads.length = l.threads.length
  threads : ∀ (id : Nat) (t' : SessionThread), l'.threads[id]? = some t' →
    ∃ t, l.threads[id]? = some t ∧ t'.cookie = t.cookie ∧
      (t'.phase.receiving = true → t.phase.receiving = true)
  presented : ∀ c, presented l'.pc = some c → presented l.pc = some c
  admitted : ∀ c, admitted l'.pc = some c → admitted l.pc = some c

theorem Quiet.refl (l : AcceptLoop) : Quiet l l :=
  ⟨rfl, fun _ t ht => ⟨t, ht, rfl, id⟩, fun _ => id, fun _ => id⟩

/-- A session thread moves on. -/
theorem quiet_setPhase {l : AcceptLoop} {id : Nat} {t : SessionThread}
    (ht : l.threads[id]? = some t) (ph : Phase)
    (hph : ph.receiving = true → t.phase.receiving = true) : Quiet l (l.setPhase id t ph) where
  size := List.length_set
  threads id' t' ht' := by
    rw [show (l.setPhase id t ph).threads = l.threads.set id { t with phase := ph } from rfl,
      Pool.getElem?_step ht] at ht'
    by_cases hid : id' = id
    · rw [if_pos hid] at ht'
      cases ht'
      exact ⟨t, hid ▸ ht, rfl, hph⟩
    · rw [if_neg hid] at ht'
      exact ⟨t', ht', rfl, fun h => h⟩
  presented _ h := h
  admitted _ h := h

theorem quiet_step {l l' : AcceptLoop} (hinv : LoopInv maxConcurrent l) {a : LoopAct}
    (ha : movesConn a = false) (h : l.step maxConcurrent a = some l') : Quiet l l' := by
  cases a with
  | dispatch => cases ha
  | register => cases ha
  | connect cookie ip =>
    cases cookie with
    | ok c => cases ha
    | error e =>
      simp only [AcceptLoop.step] at h
      split at h
      · cases h
        exact Quiet.refl l
      · cases h
  | lockRegistry =>
    simp only [AcceptLoop.step] at h
    split at h
    · rename_i c ip hpc
      cases h
      refine ⟨rfl, fun _ t ht => ⟨t, ht, rfl, id⟩, fun c' hc' => ?_,
        fun c' hc' => absurd hc'.symm (Option.some_ne_none c')⟩
      rw [hpc]
      exact hc'
    · cases h
  | spawnThread =>
    simp only [AcceptLoop.step] at h
    split at h
    · rename_i id hpc
      obtain ⟨t, ht, heq⟩ := Option.bind_eq_some_iff.mp h
      cases heq
      obtain ⟨t', ht', hstart⟩ := hinv.spawned id hpc
      rw [ht] at ht'
      cases ht'
      have hquiet := quiet_setPhase ht .serving fun _ => by rw [hstart]; rfl
      exact ⟨hquiet.size, hquiet.threads, fun c hc => absurd hc.symm (Option.some_ne_none c),
        fun c hc => absurd hc.symm (Option.some_ne_none c)⟩
    · cases h
  | finish id r =>
    obtain ⟨t, ht, heq⟩ := Option.bind_eq_some_iff.mp h
    split at heq
    · rename_i hph
      cases heq
      exact quiet_setPhase ht _ fun _ => by rw [hph]; rfl
    · cases heq
  | removeEntry id =>
    obtain ⟨t, ht, heq⟩ := Option.bind_eq_some_iff.mp h
    split at heq
    · cases heq
      have hquiet := quiet_setPhase ht .removed fun hrec => absurd hrec Bool.false_ne_true
      exact ⟨hquiet.size, hquiet.threads, hquiet.presented, hquiet.admitted⟩
    · cases heq
  | dropGuard id =>
    have hquiet : ∀ {t : SessionThread} (b : Bool), l.threads[id]? = some t →
        Quiet l { l.setPhase id t (.terminated b) with perIp := releaseHandle t.ip l.perIp } := by
      intro t b ht
      have hset := quiet_setPhase ht (.terminated b) fun hrec => absurd hrec Bool.false_ne_true
      exact ⟨hset.size, hset.threads, hset.presented, hset.admitted⟩
    obtain ⟨t, ht, heq⟩ := Option.bind_eq_some_iff.mp h
    split at heq
    · cases heq
      exact hquiet false ht
    split at heq
    · cases heq
      exact hquiet true ht
    · cases heq

/-! ## The steps of the accept loop underneath -/

/-- What an enabled step of the whole server is. -/
inductive Moves (maxConcurrent : Nat) (timeout : Option Nat) (s : Demux) : Demux → Prop
  | quiet {a : LoopAct} {loop : AcceptLoop} (ha : movesConn a = false)
      (hloop : s.loop.step maxConcurrent a = some loop) :
      Moves maxConcurrent timeout s { s with loop := loop }
  | accept {c : Conn} {cookie : Bytes} (hcookie : presentsCookie cookie timeout c)
      (hpc : s.loop.pc = .waiting) :
      Moves maxConcurrent timeout s
        { s with loop := { s.loop with pc := .cookieRead cookie c.peer.ip }, held := some c }
  | dispatch {c : Conn} {cookie : Bytes} {ip : Nat} (hheld : s.held = some c)
      (hpc : s.loop.pc = .holding cookie ip) :
      Moves maxConcurrent timeout s
        { loop := s.loop.dispatch maxConcurrent cookie ip, held := none
          handled := s.handled ++ [c], sessions := s.deliver cookie c }
  | register {cookie : Bytes} {ip : Nat} (auth : AuthConfig)
      (hpc : s.loop.pc = .acquired cookie ip) :
      Moves maxConcurrent timeout s
        { s with
          loop := { s.loop with
            registry := s.loop.registry.insert cookie s.loop.threads.length
            threads := s.loop.threads ++ [⟨cookie, ip, .starting⟩]
            pc := .spawning s.loop.threads.length }
          sessions :=
            s.sessions ++ [ChannelSession.new auth cookie timeout (s.handled.length - 1)] }
  | perform {id : Nat} {x : ChannelSession} {answer : (o : Op) → Except Stop o.Ok} {o : Op}
      {k : Except Stop o.Ok → Session Nat} {r : Except Stop o.Ok} {q : Fifo HandledConn}
      (hx : s.sessions[id]? = some x) (hrest : x.rest = .op o k)
      (hanswer : sessionAnswer answer x.channel o = some (r, q)) :
      Moves maxConcurrent timeout s
        { s with
          sessions := s.sessions.set id
            { x with channel := q, transcript := x.transcript ++ [⟨o, r⟩], rest := k r } }

theorem moves_of_moveLoop {s s' : Demux} {a : LoopAct} (ha : movesConn a = false)
    (h : s.moveLoop maxConcurrent a = some s') : Moves maxConcurrent timeout s s' := by
  obtain ⟨loop, hloop, rfl⟩ := Option.map_eq_some_iff.mp h
  exact .quiet ha hloop

theorem moves_of_step {s s' : Demux} {a : DemuxAct}
    (h : s.step maxConcurrent timeout a = some s') : Moves maxConcurrent timeout s s' := by
  cases a with
  | accept c =>
    simp only [step] at h
    split at h
    · rename_i cookie hcookie
      obtain ⟨loop, hloop, rfl⟩ := Option.map_eq_some_iff.mp h
      simp only [AcceptLoop.step] at hloop
      split at hloop
      · rename_i hpc
        cases hloop
        exact .accept hcookie hpc
      · cases hloop
    · exact moves_of_moveLoop rfl h
    · cases h
  | lockRegistry => exact moves_of_moveLoop rfl h
  | dispatch =>
    simp only [step] at h
    split at h
    · rename_i cookie ip c hpc hheld
      obtain ⟨loop, hloop, rfl⟩ := Option.map_eq_some_iff.mp h
      simp only [AcceptLoop.step, hpc] at hloop
      cases hloop
      exact .dispatch hheld hpc
    · cases h
  | register auth =>
    simp only [step] at h
    split at h
    · rename_i cookie ip hpc
      obtain ⟨loop, hloop, rfl⟩ := Option.map_eq_some_iff.mp h
      simp only [AcceptLoop.step, hpc] at hloop
      cases hloop
      exact .register auth hpc
    · cases h
  | spawnThread => exact moves_of_moveLoop rfl h
  | perform id answer =>
    obtain ⟨t, -, h⟩ := Option.bind_eq_some_iff.mp h
    split at h
    · obtain ⟨x, hx, h⟩ := Option.bind_eq_some_iff.mp h
      obtain ⟨x', hx', rfl⟩ := Option.map_eq_some_iff.mp h
      unfold ChannelSession.advance at hx'
      split at hx'
      · cases hx'
      · rename_i o k hrest
        obtain ⟨⟨r, q⟩, hanswer, rfl⟩ := Option.map_eq_some_iff.mp hx'
        exact .perform hx hrest hanswer
    · cases h
  | finish id =>
    obtain ⟨x, -, h⟩ := Option.bind_eq_some_iff.mp h
    split at h
    · exact moves_of_moveLoop rfl h
    · cases h
  | removeEntry id => exact moves_of_moveLoop rfl h
  | dropGuard id => exact moves_of_moveLoop rfl h

/-- A step of the whole server is a step of the accept loop, or does not touch it. -/
theorem loop_of_moves {s s' : Demux} (h : Moves maxConcurrent timeout s s') :
    s'.loop = s.loop ∨ ∃ a, s.loop.step maxConcurrent a = some s'.loop := by
  cases h with
  | quiet ha hloop => exact Or.inr ⟨_, hloop⟩
  | @accept c cookie hcookie hpc =>
    refine Or.inr ⟨.connect (.ok cookie) c.peer.ip, ?_⟩
    simp only [AcceptLoop.step, hpc, if_true]
  | dispatch hheld hpc =>
    refine Or.inr ⟨.dispatch, ?_⟩
    simp only [AcceptLoop.step, hpc]
  | register auth hpc =>
    refine Or.inr ⟨.register, ?_⟩
    simp only [AcceptLoop.step, hpc]
  | perform hx hrest hanswer => exact Or.inl rfl

/-- **Refinement.**  Without its connections, a run of the server is a run of the accept loop. -/
theorem reachable_loop {s s' : Demux} (h : Moves maxConcurrent timeout s s')
    (hs : (AcceptLoop.system maxConcurrent).Reachable s.loop) :
    (AcceptLoop.system maxConcurrent).Reachable s'.loop := by
  rcases loop_of_moves h with heq | ⟨a, ha⟩
  · rw [heq]
    exact hs
  · exact hs.step a ha

end Demux

end Rperf3
