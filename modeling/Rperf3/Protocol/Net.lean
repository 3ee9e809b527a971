/-
  One client and one server session, joined by the control channel.

  `netSystem` interleaves the moves of the client (main thread and stream threads) with those of the
  session program: a write appends to the channel, a read takes the next unit or BLOCKS, and any
  other operation is answered by the world — whatever it likes, whenever it likes.  There is no read
  timeout, so a read never fails.

  A session that keeps the dialogue and a client of `Client/Loop.lean` stay IN STEP (`InStep`): the
  units in flight are just what the server has written beyond what the client has read, and vice
  versa, each along its script.  So each party always reads the kind of unit the other has written,
  and when nothing is in flight both agree on where the dialogue is.
-/
import Rperf3.Client.Loop
import Rperf3.Protocol.ServerConforms

namespace Rperf3

open Transition Effect Effect.Prog Effect.Discipline

/-! ## The two-party system -/

structure Net where
  client : Client
  server : Session Nat

inductive NetAct
  | client (a : Client.Act)
  /-- The session's next operation; `world` answers it if it is not one on the control channel. -/
  | server (world : (o : Op) → Except Stop o.Ok)

/-- The server's operation `o`, continued by `k`. -/
def serveOp (world : (o : Op) → Except Stop o.Ok) (c : Client) :
    (o : Op) → (Except Stop o.Ok → Session Nat) → Option Net
  | .send i, k => some ⟨{ c with inbox := c.inbox.push i }, k (.ok ())⟩
  | .recvOptions, k =>
    match c.outbox.pop with
    | some (.options opts, rest) => some ⟨{ c with outbox := rest }, k (.ok opts)⟩
    | _ => none
  | .recvResults, k =>
    match c.outbox.pop with
    | some (.results r, rest) => some ⟨{ c with outbox := rest }, k (.ok r)⟩
    | _ => none
  | .awaitByte stops, k =>
    match c.outbox.pop with
    | some (.byte m, rest) =>
      -- a byte that is not waited for is logged and skipped
      some ⟨{ c with outbox := rest }, if m ∈ stops then k (.ok m) else .op (.awaitByte stops) k⟩
    | _ => none
  | o, k => some ⟨c, k (world o)⟩

def netStep (cfg : Config) (token : Option String) : NetAct → Net → Option Net
  | .client a, s => (Client.act cfg token a s.client).map fun c => { s with client := c }
  | .server world, s =>
    match s.server with
    | .ret _ => none
    | .op o k => serveOp world s.client o k

/-- A client with settings `cfg` against the session program `p`. -/
def netSystem (cfg : Config) (token : Option String) (p : Session Nat) : System Net NetAct where
  init s := s = ⟨Client.initial, p⟩
  step := netStep cfg token

/-- The server is about to read the control channel. -/
def Net.ServerReads (s : Net) : Prop :=
  ∃ o k, s.server = .op o k ∧ o.isControlRead = true

/-- Both parties wait for the other: the server in a read of the control channel; the client for a
    control message, with every stream thread finished and its `TestEnd` sent; and both channels are
    empty, so that `TestEnd` has been consumed. -/
structure Net.Deadlocked (s : Net) : Prop where
  server_reads : s.ServerReads
  client_waits : s.client.pc ∈ [.poll, .readPort, .readResults]
  threads_finished : ∀ t ∈ s.client.threads, t.isFinished = true
  end_sent : s.client.testEndSent = true
  inbox_empty : s.client.inbox.pending = []
  outbox_empty : s.client.outbox.pending = []

/-! ## Where the client is in the dialogue -/

/-- Before `CreateStreams`. -/
def Stage.isEarly : Stage → Bool
  | .idle | .asked | .portAnnounced | .portSent => true
  | _ => false

/-- The program counters of an iteration without a blocking read. -/
def loopPcs : List ClientPc := [.poll, .drain, .tryRecv]

/-- Where the main thread can be when this was the last unit read. -/
def Stage.pcs : Stage → List ClientPc
  | .portAnnounced => [.readPort]
  | .exchange => [.exchange, .readResults]
  | .display => [.finalDrain, .done]
  | _ => loopPcs

/-- The client has read up to `k`. -/
structure Client.At (k : Stage) (c : Client) : Prop where
  pc : c.pc ∈ k.pcs
  early : k.isEarly = true → c.threads = [] ∧ c.rxChannel = [] ∧ c.testEndSent = false
  reporting : k.isReporting = true → c.testEndSent = true

/-- What the client has written when it has read up to `k`.  Only `TestEnd`, and the results
    between reading the request and writing them, are not tied to a read. -/
def Client.replied (k : Stage) (c : Client) : Reply :=
  match k with
  | .idle => .nothing
  | .asked | .portAnnounced | .portSent => .options
  | .created | .started | .running => if c.testEndSent then .testEnd else .options
  | .exchange => if c.pc = .exchange then .testEnd else .results
  | .reported => .results
  | .display => .iperfDone

theorem Client.At.testEndSent {k : Stage} {c : Client} (h : c.At k)
    (hended : (c.replied k).isEnded = true) : c.testEndSent = true := by
  cases hsent : c.testEndSent with
  | true => rfl
  | false =>
    cases hk : k.isReporting with
    | true => rw [← hsent, h.reporting hk]
    | false =>
      have hnot : (c.replied k).isEnded = false := by
        unfold Client.replied
        rw [hsent]
        cases k with
        | exchange => cases hk
        | reported => cases hk
        | display => cases hk
        | _ => rfl
      rw [hnot] at hended
      cases hended

/-- A main thread inside an iteration has just read a unit without a sequel. -/
theorem Stage.pcs_eq_loopPcs {k : Stage} {pc : ClientPc} (h : pc ∈ k.pcs) (hpc : pc ∈ loopPcs) :
    k.pcs = loopPcs ∧ k ≠ .exchange ∧ k ≠ .portAnnounced := by
  cases k with
  | portAnnounced =>
    cases List.mem_singleton.mp h
    exact absurd hpc (by decide)
  | exchange =>
    rcases List.mem_pair.mp h with rfl | rfl
    · exact absurd hpc (by decide)
    · exact absurd hpc (by decide)
  | display =>
    rcases List.mem_pair.mp h with rfl | rfl
    · exact absurd hpc (by decide)
    · exact absurd hpc (by decide)
  | _ => exact ⟨rfl, (fun h => nomatch h), fun h => nomatch h⟩

theorem Client.replied_congr {k : Stage} {c c' : Client} (hpc : c'.pc = c.pc ∨ k ≠ .exchange)
    (hsent : c'.testEndSent = c.testEndSent) : c'.replied k = c.replied k := by
  cases k with
  | exchange => simp only [Client.replied, hpc.resolve_right (fun h => h rfl)]
  | created => simp only [Client.replied, hsent]
  | started => simp only [Client.replied, hsent]
  | running => simp only [Client.replied, hsent]
  | _ => rfl

/-! ## The client keeps in step -/

namespace Client

variable {cfg : Config} {token : Option String} {c c' : Client} {k w : Stage}

theorem At.before (pc : ClientPc) (hpc : c.pc = pc) (hmem : pc ∈ k.pcs)
    (hearly : c.threads = [] ∧ c.rxChannel = [] ∧ c.testEndSent = false)
    (hk : k.isReporting = false) : c.At k :=
  ⟨hpc ▸ hmem, fun _ => hearly, fun h => absurd (hk.symm.trans h) Bool.false_ne_true⟩

theorem At.during (pc : ClientPc) (hpc : c.pc = pc) (hmem : pc ∈ k.pcs) (hk : k.isEarly = false)
    (hk' : k.isReporting = false) : c.At k :=
  ⟨hpc ▸ hmem, fun h => absurd (hk.symm.trans h) Bool.false_ne_true,
    fun h => absurd (hk'.symm.trans h) Bool.false_ne_true⟩

theorem At.after (pc : ClientPc) (hpc : c.pc = pc) (hmem : pc ∈ k.pcs) (hk : k.isEarly = false)
    (hsent : c.testEndSent = true) : c.At k :=
  ⟨hpc ▸ hmem, fun h => absurd (hk.symm.trans h) Bool.false_ne_true, fun _ => hsent⟩

/-- The client went from having read up to `k` to having read up to `k'`, the server having written
    up to `w`, and wrote what its script says. -/
structure Keeps (opts : ClientOptions) (w k k' : Stage) (c c' : Client) : Prop where
  place : c'.At k'
  down : Fifo.Between serverScript c'.inbox k' w
  up : ∀ r, Fifo.Between (clientScript opts) c.outbox r (c.replied k) →
    Fifo.Between (clientScript opts) c'.outbox r (c'.replied k')

/-- A move that neither reads nor writes the control channel: the main thread stays where it is, or
    goes on inside its iteration. -/
theorem At.keeps_silent (opts : ClientOptions) (hat : c.At k)
    (hdown : Fifo.Between serverScript c.inbox k w) (hinbox : c'.inbox = c.inbox)
    (houtbox : c'.outbox = c.outbox) (hsent : c'.testEndSent = c.testEndSent)
    (hpc : c'.pc = c.pc ∨ (c.pc ∈ loopPcs ∧ c'.pc ∈ loopPcs))
    (hearly : k.isEarly = true → c'.threads = [] ∧ c'.rxChannel = []) :
    Keeps opts w k k c c' := by
  have hplace : c'.pc ∈ k.pcs ∧ (c'.pc = c.pc ∨ k ≠ .exchange) := by
    rcases hpc with hsame | ⟨hpc, hpc'⟩
    · exact ⟨hsame ▸ hat.pc, Or.inl hsame⟩
    · obtain ⟨hpcs, hk, -⟩ := Stage.pcs_eq_loopPcs hat.pc hpc
      exact ⟨hpcs ▸ hpc', Or.inr hk⟩
  refine ⟨⟨hplace.1, fun hk => ?_, fun hk => hsent.trans (hat.reporting hk)⟩, ?_, fun r hup => ?_⟩
  · exact ⟨(hearly hk).1, (hearly hk).2, hsent.trans (hat.early hk).2.2⟩
  · rw [hinbox]
    exact hdown
  · rw [houtbox, replied_congr hplace.2 hsent]
    exact hup

/-- A control message is handled. -/
theorem At.keeps_message (hat : c.At k) (hdown : Fifo.Between serverScript c.inbox k w)
    (hw : w.isReporting = true → c.testEndSent = true) {m : Message} {rest : Fifo Item}
    (hpop : c.inbox.pop = some (.byte m, rest)) :
    ∃ k', Keeps (sendOptions cfg token) w k k' c
      (handleMessage cfg token m { c with inbox := rest }) := by
  obtain ⟨k', hstep, hrest⟩ := Fifo.between_pop hdown hpop
  refine ⟨k', ?_⟩
  rcases serverScript_byte hstep with ⟨rfl, rfl, rfl⟩ | ⟨rfl, rfl, rfl⟩ | ⟨rfl, hk, rfl⟩ |
    ⟨rfl, rfl, rfl⟩ | ⟨rfl, rfl, rfl⟩ | ⟨rfl, rfl, rfl⟩ | ⟨rfl, rfl, rfl⟩
  · -- `ParamExchange`: the options go out
    exact ⟨.before .drain rfl (by decide) (hat.early rfl) rfl, hrest,
      fun r hup => Fifo.between_push hup (if_pos rfl)⟩
  · exact ⟨.before .readPort rfl (by decide) (hat.early rfl) rfl, hrest, fun r hup => hup⟩
  · -- `CreateStreams`: the threads have only just started, `TestEnd` is not out
    have hearly : k.isEarly = true := by
      rcases hk with rfl | rfl
      · rfl
      · rfl
    have hreplied : c.replied k = .options := by
      rcases hk with rfl | rfl
      · rfl
      · rfl
    refine ⟨.during .drain rfl (by decide) rfl rfl, hrest, fun r hup => ?_⟩
    rw [hreplied] at hup
    show Fifo.Between _ c.outbox r (if c.testEndSent then .testEnd else .options)
    rw [(hat.early hearly).2.2]
    exact hup
  · exact ⟨.during .drain rfl (by decide) rfl rfl, hrest, fun r hup => hup⟩
  · exact ⟨.during .drain rfl (by decide) rfl rfl, hrest, fun r hup => hup⟩
  · -- `ExchangeResults`: the server had read `TestEnd`
    have hsent : c.testEndSent = true :=
      hw (Fifo.between_keeps (fun _ _ _ => isReporting_of_step) hrest rfl)
    refine ⟨.after .exchange rfl (by decide) rfl hsent, hrest, fun r hup => ?_⟩
    replace hup : Fifo.Between _ c.outbox r (if c.testEndSent then .testEnd else .options) := hup
    rw [hsent] at hup
    exact hup
  · -- `DisplayResults`: `IperfDone` goes out
    exact ⟨.after .finalDrain rfl (by decide) rfl (hat.reporting rfl), hrest,
      fun r hup => Fifo.between_push hup rfl⟩

/-- In the blocking read of the port the last unit read is `SetDataPort`. -/
theorem At.eq_portAnnounced (hat : c.At k) (hpc : c.pc = .readPort) : k = .portAnnounced := by
  have hmem := hat.pc
  rw [hpc] at hmem
  cases k with
  | portAnnounced => rfl
  | _ => exact absurd hmem (by decide)

theorem At.keeps_port (opts : ClientOptions) (hat : c.At k)
    (hdown : Fifo.Between serverScript c.inbox k w) {p : Nat} {rest : Fifo Item}
    (hpc : c.pc = .readPort) (hpop : c.inbox.pop = some (.port p, rest)) :
    ∃ k', Keeps opts w k k' c
      { c with inbox := rest, dataPortOverride := some p, pc := .drain } := by
  obtain rfl := hat.eq_portAnnounced hpc
  obtain ⟨k', hstep, hrest⟩ := Fifo.between_pop hdown hpop
  cases hstep
  exact ⟨.portSent, .before .drain rfl (by decide) (hat.early rfl) rfl, hrest,
    fun r hup => hup⟩

/-- In `exchange_results` the last unit read is the request. -/
theorem At.eq_exchange (hat : c.At k) (hpc : c.pc = .exchange ∨ c.pc = .readResults) :
    k = .exchange := by
  have hmem := hat.pc
  rcases hpc with hpc | hpc
  · rw [hpc] at hmem
    cases k with
    | exchange => rfl
    | _ => exact absurd hmem (by decide)
  · rw [hpc] at hmem
    cases k with
    | exchange => rfl
    | _ => exact absurd hmem (by decide)

theorem At.keeps_results (opts : ClientOptions) (hat : c.At k)
    (hdown : Fifo.Between serverScript c.inbox k w) {res : Results} {rest : Fifo Item}
    (hpc : c.pc = .readResults) (hpop : c.inbox.pop = some (.results res, rest)) :
    ∃ k', Keeps opts w k k' c { c with inbox := rest, pc := .drain } := by
  obtain rfl := hat.eq_exchange (Or.inr hpc)
  obtain ⟨k', hstep, hrest⟩ := Fifo.between_pop hdown hpop
  cases hstep
  refine ⟨.reported, .after .drain rfl (by decide) rfl (hat.reporting rfl), hrest,
    fun r hup => ?_⟩
  replace hup : Fifo.Between _ c.outbox r (if c.pc = .exchange then .testEnd else .results) := hup
  rw [hpc] at hup
  exact hup

theorem At.keeps_sendResults (opts : ClientOptions) (hat : c.At k)
    (hdown : Fifo.Between serverScript c.inbox k w) (res : Results) (hpc : c.pc = .exchange) :
    Keeps opts w k k c { c.write (.results res) with pc := .readResults } := by
  obtain rfl := hat.eq_exchange (Or.inl hpc)
  refine ⟨.after .readResults rfl (by decide) rfl (hat.reporting rfl), hdown, fun r hup => ?_⟩
  replace hup : Fifo.Between _ c.outbox r (if c.pc = .exchange then .testEnd else .results) := hup
  rw [hpc] at hup
  exact Fifo.between_push hup rfl

/-- A notice from a stream thread: the threads exist, so the test has been running. -/
theorem At.notEarly_of_notice (hat : c.At k) {m : Message} {rest : List Message}
    (hrx : c.rxChannel = m :: rest) : k.isEarly = false := by
  cases hk : k.isEarly with
  | false => rfl
  | true =>
    have hnil := (hat.early hk).2.1
    rw [hrx] at hnil
    cases hnil

theorem replied_eq (hk : k.isEarly = false) (hk' : k.isReporting = false) :
    c.replied k = if c.testEndSent then .testEnd else .options := by
  cases k with
  | created => rfl
  | started => rfl
  | running => rfl
  | exchange => cases hk'
  | reported => cases hk'
  | display => cases hk'
  | _ => cases hk

/-- The counter takes a notice and may write `TestEnd`: the only write that no read triggers. -/
theorem At.keeps_notice (opts : ClientOptions) (hat : c.At k)
    (hdown : Fifo.Between serverScript c.inbox k w) (hpc : c.pc ∈ loopPcs) {rest : List Message}
    (hrx : c.rxChannel = .testEnd :: rest) :
    Keeps opts w k k c (finishStream cfg { c with rxChannel := rest }) := by
  have hearly := hat.notEarly_of_notice hrx
  obtain ⟨hpcs, hk, -⟩ := Stage.pcs_eq_loopPcs hat.pc hpc
  have hpoll : ClientPc.poll ∈ k.pcs := by rw [hpcs]; decide
  simp only [finishStream]
  split
  · rename_i hlast
    have hunsent : c.testEndSent = false := Bool.eq_false_iff.mpr hlast.2
    have hreporting : k.isReporting = false :=
      Bool.eq_false_iff.mpr fun h => hlast.2 (hat.reporting h)
    refine ⟨.during .poll rfl hpoll hearly hreporting, hdown, fun r hup => ?_⟩
    rw [replied_eq hearly hreporting, hunsent] at hup
    rw [replied_eq hearly hreporting]
    exact Fifo.between_push hup rfl
  · refine hat.keeps_silent opts hdown rfl rfl rfl (Or.inr ⟨hpc, ?_⟩) fun hk => ?_
    · show ClientPc.poll ∈ loopPcs
      decide
    · rw [hearly] at hk
      cases hk

/-- Stream threads exist only after `CreateStreams`. -/
theorem At.notEarly_of_thread (hat : c.At k) {i : Nat} {t : ClientThread}
    (hi : c.threads[i]? = some t) : k.isEarly = false := by
  cases hk : k.isEarly with
  | false => rfl
  | true =>
    rw [(hat.early hk).1] at hi
    cases hi

/-- **Every move of the client keeps it in step.** -/
theorem At.keeps (hat : c.At k) (hdown : Fifo.Between serverScript c.inbox k w)
    (hw : w.isReporting = true → c.testEndSent = true) (h : Moves cfg token c c') :
    ∃ k', Keeps (sendOptions cfg token) w k k' c c' := by
  have hquiet : ∀ {pc pc' : ClientPc}, c.pc = pc → pc ∈ loopPcs → pc' ∈ loopPcs →
      Keeps (sendOptions cfg token) w k k c { c with pc := pc' } := by
    intro pc pc' hpc hmem hmem'
    exact hat.keeps_silent _ hdown rfl rfl rfl (Or.inr ⟨hpc ▸ hmem, hmem'⟩)
      fun hk => ⟨(hat.early hk).1, (hat.early hk).2.1⟩
  cases h with
  | noMessage hpc hempty => exact ⟨k, hquiet hpc (by decide) (by decide)⟩
  | message m rest hpc hpop => exact hat.keeps_message hdown hw hpop
  | gotPort p rest hpc hpop => exact hat.keeps_port _ hdown hpc hpop
  | gotResults r rest hpc hpop => exact hat.keeps_results _ hdown hpc hpop
  | drainOne r rs hrx =>
    exact ⟨k, hat.keeps_silent _ hdown rfl rfl rfl (Or.inl rfl)
      fun hk => ⟨(hat.early hk).1, (hat.early hk).2.1⟩⟩
  | sendResults cpu hpc hrx => exact ⟨k, hat.keeps_sendResults _ hdown _ hpc⟩
  | drained hpc => exact ⟨k, hquiet hpc (by decide) (by decide)⟩
  | noNotice hpc => exact ⟨k, hquiet hpc (by decide) (by decide)⟩
  | notice rest hpc hrx =>
    exact ⟨k, hat.keeps_notice _ hdown (by rw [hpc]; decide) hrx⟩
  | unknownNotice m rest hpc hrx hm =>
    have hk := hat.notEarly_of_notice hrx
    exact ⟨k, hat.keeps_silent _ hdown rfl rfl rfl
      (Or.inr ⟨by rw [hpc]; decide, show ClientPc.poll ∈ loopPcs by decide⟩)
      fun h => absurd (hk.symm.trans h) Bool.false_ne_true⟩
  | exit hpc =>
    have hmem := hat.pc
    rw [hpc] at hmem
    cases k with
    | display =>
      exact ⟨.display, .after .done rfl (by decide) rfl (hat.reporting rfl), hdown,
        fun r hup => hup⟩
    | _ => exact absurd hmem (by decide)
  | receipt i spec r hi =>
    have hk := hat.notEarly_of_thread hi
    exact ⟨k, hat.keeps_silent _ hdown rfl rfl rfl (Or.inl rfl)
      fun h => absurd (hk.symm.trans h) Bool.false_ne_true⟩
  | finish i spec r hi =>
    have hk := hat.notEarly_of_thread hi
    exact ⟨k, hat.keeps_silent _ hdown rfl rfl rfl (Or.inl rfl)
      fun h => absurd (hk.symm.trans h) Bool.false_ne_true⟩

end Client

/-! ## Both parties keep in step -/

/-- The session is at `p` and keeps the dialogue from there; the client has read up to `k`; and what
    is in flight either way lies between. -/
structure InStep (opts : ClientOptions) (p : Place) (k : Stage) (s : Net) : Prop where
  session : (dialogue opts).wp s.server (fun _ _ => True) p
  client : s.client.At k
  down : Fifo.Between serverScript s.client.inbox k p.wrote
  up : Fifo.Between (clientScript opts) s.client.outbox p.read (s.client.replied k)
  order : p.wrote.isReporting = true → p.read.isEnded = true

namespace InStep

variable {cfg : Config} {token : Option String} {opts : ClientOptions} {p : Place} {k : Stage}
  {s : Net}

/-- Once the server has asked for results, the client's `TestEnd` is out. -/
theorem testEndSent (h : InStep opts p k s) (hp : p.wrote.isReporting = true) :
    s.client.testEndSent = true :=
  h.client.testEndSent
    (Fifo.between_keeps (fun _ _ _ => isEnded_of_step) h.up (h.order hp))

theorem clientMove (h : InStep (sendOptions cfg token) p k s) {c : Client}
    (hmove : Client.Moves cfg token s.client c) :
    ∃ k', InStep (sendOptions cfg token) p k' ⟨c, s.server⟩ := by
  obtain ⟨k', hkeeps⟩ := h.client.keeps h.down h.testEndSent hmove
  exact ⟨k', h.session, hkeeps.place, hkeeps.down, hkeeps.up _ h.up, h.order⟩

/-- The server writes a unit of its script. -/
theorem serverSend {c : Client} {i : Item} {next : Except Stop Unit → Session Nat}
    (h : InStep opts p k ⟨c, .op (.send i) next⟩) :
    ∃ p', InStep opts p' k ⟨{ c with inbox := c.inbox.push i }, next (.ok ())⟩ := by
  obtain ⟨⟨hsome, hend⟩, hnext⟩ := h.session
  obtain ⟨t, hstep⟩ := Option.isSome_iff_exists.mp hsome
  have hplace : dialogueNext p (.send i) = ⟨t, p.read⟩ := by
    simp only [dialogueNext, hstep, Option.getD_some]
  refine ⟨⟨t, p.read⟩, hplace ▸ hnext (.ok ()) rfl, { h.client with }, ?_, h.up, fun ht => ?_⟩
  · exact Fifo.between_push h.down hstep
  · rcases isReporting_enter hstep ht with hold | hnew
    · exact h.order hold
    · exact hend hnew

/-- The server reads a unit, which its read was waiting for. -/
theorem serverRecv {c : Client} {o : Op} {next : Except Stop o.Ok → Session Nat} {a : o.Ok}
    {i : Item} {rest : Fifo Item} {r : Reply} (h : InStep opts p k ⟨c, .op o next⟩)
    (hanswer : dialogueAnswers opts o (.ok a)) (hplace : dialogueNext p o = ⟨p.wrote, r⟩)
    (hpop : c.outbox.pop = some (i, rest))
    (hstep : (clientScript opts).step i p.read = some r) :
    InStep opts ⟨p.wrote, r⟩ k ⟨{ c with outbox := rest }, next (.ok a)⟩ := by
  obtain ⟨r', hstep', hrest⟩ := Fifo.between_pop h.up hpop
  obtain rfl : r' = r := Option.some.inj (hstep'.symm.trans hstep)
  refine ⟨hplace ▸ h.session.2 (.ok a) hanswer, { h.client with }, h.down, hrest, fun hp => ?_⟩
  exact isEnded_of_step hstep (h.order hp)

/-- Every operation of the session keeps both in step. -/
theorem serverMove {c : Client} {o : Op} {next : Except Stop o.Ok → Session Nat}
    {world : (o : Op) → Except Stop o.Ok} {t : Net} (h : InStep opts p k ⟨c, .op o next⟩)
    (hstep : serveOp world c o next = some t) : ∃ p', InStep opts p' k t := by
  cases o with
  | send i =>
    cases hstep
    exact h.serverSend
  | recvOptions =>
    simp only [serveOp] at hstep
    split at hstep
    · rename_i o rest hpop
      cases hstep
      obtain rfl : p = ⟨.asked, .nothing⟩ := h.session.1
      obtain ⟨r, hr, -⟩ := Fifo.between_pop h.up hpop
      obtain ⟨rfl, rfl⟩ := clientScript_options hr
      exact ⟨_, h.serverRecv rfl rfl hpop hr⟩
    · cases hstep
  | recvResults =>
    simp only [serveOp] at hstep
    split at hstep
    · rename_i res rest hpop
      cases hstep
      obtain rfl : p = ⟨.reported, .testEnd⟩ := h.session.1
      exact ⟨_, h.serverRecv ⟨res, rfl⟩ rfl hpop rfl⟩
    · cases hstep
  | awaitByte stops =>
    simp only [serveOp] at hstep
    split at hstep
    · rename_i m rest hpop
      cases hstep
      obtain ⟨r, hr, -⟩ := Fifo.between_pop h.up hpop
      rcases h.session.1 with ⟨rfl, rfl⟩ | ⟨rfl, rfl⟩
      · rcases clientScript_byte hr with ⟨rfl, -, rfl⟩ | ⟨-, hread, -⟩
        · exact ⟨_, h.serverRecv ⟨.testEnd, by decide, rfl⟩ rfl hpop hr⟩
        · cases hread
      · rcases clientScript_byte hr with ⟨-, hread, -⟩ | ⟨rfl, -, rfl⟩
        · cases hread
        · exact ⟨_, h.serverRecv ⟨.iperfDone, by decide, rfl⟩ rfl hpop hr⟩
    · cases hstep
  | _ =>
    cases hstep
    exact ⟨p, h.session.2 _ trivial, h.client, h.down, h.up, h.order⟩

theorem step {t : Net} {a : NetAct} (h : InStep (sendOptions cfg token) p k s)
    (hstep : netStep cfg token a s = some t) :
    ∃ p' k', InStep (sendOptions cfg token) p' k' t := by
  cases a with
  | client a =>
    obtain ⟨c, hact, rfl⟩ := Option.map_eq_some_iff.mp hstep
    exact ⟨p, h.clientMove (Client.act_moves hact)⟩
  | server world =>
    obtain ⟨c, server⟩ := s
    cases server with
    | ret r => cases hstep
    | op o next =>
      obtain ⟨p', h'⟩ := h.serverMove hstep
      exact ⟨p', k, h'⟩

/-- **A session that keeps the dialogue and a client are in step in every run.** -/
theorem reachable {program : Session Nat}
    (hconf : (dialogue (sendOptions cfg token)).wp program (fun _ _ => True) ⟨.idle, .nothing⟩)
    (h : (netSystem cfg token program).Reachable s) :
    ∃ p k, InStep (sendOptions cfg token) p k s := by
  refine h.invariant (I := fun s => ∃ p k, InStep (sendOptions cfg token) p k s)
    (fun s hs => ?_) (fun a s t ⟨p, k, hst⟩ hstep => hst.step hstep)
  cases hs
  exact ⟨⟨.idle, .nothing⟩, .idle, hconf,
    .before .poll rfl (by decide) ⟨rfl, rfl, rfl⟩ rfl, rfl, rfl, fun h => nomatch h⟩

/-! ## What being in step excludes -/

/-- Whatever the client is about to read is of the kind it reads there. -/
theorem client_framed (h : InStep opts p k s) {i : Item} {rest : Fifo Item}
    (hpop : s.client.inbox.pop = some (i, rest)) :
    (s.client.pc = .poll → ∃ m, i = .byte m) ∧ (s.client.pc = .readPort → ∃ n, i = .port n) ∧
      (s.client.pc = .readResults → ∃ r, i = .results r) := by
  obtain ⟨k', hstep, -⟩ := Fifo.between_pop h.down hpop
  refine ⟨fun hpc => ?_, fun hpc => ?_, fun hpc => ?_⟩
  · obtain ⟨-, hk, hk'⟩ := Stage.pcs_eq_loopPcs h.client.pc (by rw [hpc]; decide)
    rcases serverScript_kind hstep with ⟨hbyte, -⟩ | ⟨-, hport⟩ | ⟨-, hresults⟩
    · exact hbyte
    · exact absurd hport hk'
    · exact absurd hresults hk
  · have hk := h.client.eq_portAnnounced hpc
    rcases serverScript_kind hstep with ⟨-, hbyte, -⟩ | ⟨hport, -⟩ | ⟨-, hresults⟩
    · exact absurd hk hbyte
    · exact hport
    · rw [hk] at hresults
      cases hresults
  · have hk := h.client.eq_exchange (Or.inr hpc)
    rcases serverScript_kind hstep with ⟨-, -, hbyte⟩ | ⟨-, hport⟩ | ⟨hresults, -⟩
    · exact absurd hk hbyte
    · rw [hk] at hport
      cases hport
    · exact hresults

/-- Whatever the server is about to read is of the kind it reads there: a unit in flight never
    blocks it. -/
theorem server_framed {c : Client} {o : Op} {next : Except Stop o.Ok → Session Nat}
    (h : InStep opts p k ⟨c, .op o next⟩) (hread : o.isControlRead = true) {i : Item}
    {rest : Fifo Item} (hpop : c.outbox.pop = some (i, rest))
    (world : (o : Op) → Except Stop o.Ok) : ∃ t, serveOp world c o next = some t := by
  obtain ⟨r, hstep, -⟩ := Fifo.between_pop h.up hpop
  have hkind := clientScript_kind hstep
  cases o with
  | recvOptions =>
    obtain rfl : p = ⟨.asked, .nothing⟩ := h.session.1
    rcases hkind with ⟨⟨o, rfl⟩, -⟩ | ⟨-, hr | hr⟩ | ⟨-, hr⟩
    · simp only [serveOp, hpop]
      exact ⟨_, rfl⟩
    · cases hr
    · cases hr
    · cases hr
  | recvResults =>
    obtain rfl : p = ⟨.reported, .testEnd⟩ := h.session.1
    rcases hkind with ⟨-, hr⟩ | ⟨-, hr | hr⟩ | ⟨⟨x, rfl⟩, -⟩
    · cases hr
    · cases hr
    · cases hr
    · simp only [serveOp, hpop]
      exact ⟨_, rfl⟩
  | awaitByte stops =>
    have hplace : p.read = .options ∨ p.read = .results := by
      rcases h.session.1 with ⟨rfl, -⟩ | ⟨rfl, -⟩
      · exact Or.inl rfl
      · exact Or.inr rfl
    rcases hkind with ⟨-, hr⟩ | ⟨⟨m, rfl⟩, -⟩ | ⟨-, hr⟩
    · rw [hr] at hplace
      simp at hplace
    · simp only [serveOp, hpop]
      exact ⟨_, rfl⟩
    · rw [hr] at hplace
      simp at hplace
  | _ => cases hread

/-- **In step, no deadlock.**  With nothing in flight the server has written exactly what the client
    has read, and the client has answered all of it; so there is nothing left to wait for. -/
theorem not_deadlocked (h : InStep opts p k s) : ¬ s.Deadlocked := by
  intro hd
  obtain ⟨o, next, hserver, hread⟩ := hd.server_reads
  have hk : k = p.wrote := Fifo.between_empty h.down hd.inbox_empty
  have hr : p.read = s.client.replied k := Fifo.between_empty h.up hd.outbox_empty
  have hmay : dialogueMay p o := by
    have hsession := h.session
    rw [hserver] at hsession
    exact hsession.1
  cases o with
  | recvOptions =>
    -- it waits for the options, which went out when `ParamExchange` was read
    obtain rfl : p = ⟨.asked, .nothing⟩ := hmay
    subst hk
    cases hr
  | awaitByte stops =>
    rcases hmay with ⟨rfl, -⟩ | ⟨rfl, -⟩
    · -- it waits for `TestEnd`, and has not read it yet
      subst hk
      replace hr : Reply.options = if s.client.testEndSent then .testEnd else .options := hr
      rw [hd.end_sent] at hr
      cases hr
    · -- it waits for `IperfDone`, which went out when `DisplayResults` was read
      subst hk
      cases hr
  | recvResults =>
    -- it waits for the client's results, which went out before its own were read
    obtain rfl : p = ⟨.reported, .testEnd⟩ := hmay
    subst hk
    cases hr
  | _ => cases hread

end InStep

end Rperf3
