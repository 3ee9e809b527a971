/-
  When can a client and a server session block each other for ever?

  A session that keeps the dialogue cannot (`InStep.not_deadlocked`), and both drivers keep it in
  every mode but one: `serve_session_from_channel` with a REVERSED UDP test.  There the server reads
  `TestEnd` in the reverse branch and then waits for another one, which the client — whose loop
  sends `TestEnd` once — never sends, while the client waits for `ExchangeResults`.

  That this really happens is shown for EVERY such test, whatever its number of streams, its length
  and its credentials, by a run in which nothing goes wrong: all sockets work, all data threads
  finish, every control message is delivered.
-/
import Rperf3.Protocol.Net

namespace Rperf3

open Transition Effect Effect.Prog

/-! ## A world in which nothing goes wrong -/

/-- Every call succeeds; each expected UDP stream shows up, from a port of its own. -/
def calmWorld : (o : Op) → Except Stop o.Ok
  | .udpPort => .ok (40000 : Nat)
  | .acceptUdpStreams _ n => .ok ((List.range n).map fun i => (⟨1, 50000 + i⟩ : SocketAddr))
  | .join _ => .ok [StreamReceipt.empty]
  | .bindUdp _ _ => .ok ()
  | .setUdpTimeout _ => .ok ()
  | .cloneUdp => .ok ()
  | .setReadTimeout _ => .ok ()
  | .spawn _ => .ok ()
  | _ => .error (.io ⟨.other, "not asked for"⟩)

theorem evalWith_spawnUdpSenders (js : List Job) :
    (spawnUdpSenders js).evalWith calmWorld = .ok () := by
  induction js with
  | nil => rfl
  | cons j js ih => exact ih

theorem evalWith_joinStreamTotals (js : List Job) :
    (joinStreamTotals js).evalWith calmWorld = .ok (js.map fun _ => StreamReceipt.empty) := by
  induction js with
  | nil => rfl
  | cons j js ih =>
    show ((joinStreamTotals js >>= fun rs => pure ([StreamReceipt.empty] ++ rs)) :
      Session (List StreamReceipt)).evalWith calmWorld = _
    rw [evalWith_bind ih]
    rfl

/-- All senders run to their end. -/
theorem evalWith_runUdpSendStreams (addrs : List SocketAddr) (opts : ClientOptions) :
    (runUdpSendStreams addrs opts).evalWith calmWorld =
      .ok ((udpSenderJobs addrs opts).map fun _ => StreamReceipt.empty) :=
  (evalWith_bind (evalWith_spawnUdpSenders _) _).trans (evalWith_joinStreamTotals _)

/-! ## Moving one party while the other waits -/

section Run

variable {cfg : Config} {token : Option String} {program : Session Nat} {c c' : Client}
  {p : Session Nat}

/-- The client can be in `c` with the program `p` left to the server. -/
def CanBe (cfg : Config) (token : Option String) (program : Session Nat) (c : Client)
    (p : Session Nat) : Prop :=
  (netSystem cfg token program).Reachable ⟨c, p⟩

theorem serveOp_of_isQuiet {o : Op} (h : o.isQuiet = true) (world : (o : Op) → Except Stop o.Ok)
    (c : Client) (k : Except Stop o.Ok → Session Nat) :
    serveOp world c o k = some ⟨c, k (world o)⟩ := by
  cases o with
  | send i => cases h
  | recvOptions => cases h
  | recvResults => cases h
  | awaitByte stops => cases h
  | _ => rfl

/-- The server goes through a stretch of socket and thread handling. -/
theorem CanBe.quiet {α : Type} {q : Session α} {a : α} {f : α → Session Nat} (hq : Quiet q)
    (heval : q.evalWith calmWorld = .ok a) (h : CanBe cfg token program c (q >>= f)) :
    CanBe cfg token program c (f a) := by
  have hany : ∀ {q : Session α} {F : Except Stop α → Session Nat}, Quiet q →
      CanBe cfg token program c (q.onResult F) →
      CanBe cfg token program c (F (q.evalWith calmWorld)) := by
    intro q F hq h
    induction q with
    | ret r => exact h
    | op o k ih =>
      refine ih _ (hq.2 _) (System.Reachable.step (.server calmWorld) h ?_)
      exact serveOp_of_isQuiet hq.1 calmWorld c _
  have := hany hq h
  rw [heval] at this
  exact this

theorem CanBe.send {i : Item} {f : Unit → Session Nat}
    (h : CanBe cfg token program c (sendItem i >>= f)) :
    CanBe cfg token program { c with inbox := c.inbox.push i } (f ()) :=
  System.Reachable.step (.server calmWorld) h rfl

theorem CanBe.act {a : Client.Act} (h : CanBe cfg token program c p)
    (hact : Client.act cfg token a c = some c') : CanBe cfg token program c' p := by
  refine System.Reachable.step (.client a) h ?_
  show (Client.act cfg token a c).map _ = _
  rw [hact]
  rfl

/-- Some turns of the main thread. -/
theorem CanBe.loop (n : Nat) (h : CanBe cfg token program c p)
    (hrun : (List.replicate n ()).foldlM (fun c _ => Client.loopStep cfg token .zero c) c =
      some c') : CanBe cfg token program c' p := by
  induction n generalizing c with
  | zero =>
    cases hrun
    exact h
  | succ n ih =>
    obtain ⟨d, hstep, hrest⟩ := Option.bind_eq_some_iff.mp hrun
    exact ih (h.act (a := .loop .zero) hstep) hrest

/-! ### The client's threads finish and are counted -/

/-- A thread that has transferred nothing and reported it. -/
def finishedThread (spec : StreamThread) : ClientThread :=
  ⟨spec, .finished (.empty spec.streamId)⟩

/-- The threads end one after the other, while the main thread waits. -/
theorem CanBe.finishThreads (done todo : List StreamThread)
    (hthreads : c.threads = done.map finishedThread ++ todo.map ClientThread.start)
    (h : CanBe cfg token program c p) :
    CanBe cfg token program
      { c with
        threads := (done ++ todo).map finishedThread
        receiptRx := c.receiptRx ++ todo.map fun spec => .empty spec.streamId
        rxChannel := c.rxChannel ++ List.replicate todo.length .testEnd } p := by
  induction todo generalizing done c with
  | nil =>
    rw [List.map_nil, List.append_nil] at hthreads
    simp only [List.append_nil, List.map_nil, List.length_nil, List.replicate_zero, ← hthreads]
    exact h
  | cons spec todo ih =>
    have hlen : done.length = (done.map finishedThread).length := (List.length_map _).symm
    have hset : ∀ (l : List ClientThread) (t u : ClientThread),
        (done.map finishedThread ++ t :: l).set done.length u =
          done.map finishedThread ++ u :: l := by
      intro l t u
      rw [hlen, List.set_append_right _ _ (Nat.le_refl _), Nat.sub_self, List.set_cons_zero]
    have hget : ∀ (l : List ClientThread) (t : ClientThread),
        (done.map finishedThread ++ t :: l)[done.length]? = some t := by
      intro l t
      rw [hlen, List.getElem?_append_right (Nat.le_refl _), Nat.sub_self]
      rfl
    rw [List.map_cons] at hthreads
    have hreported : CanBe cfg token program
        { c with
          threads := done.map finishedThread ++
            ⟨spec, .reported (.empty spec.streamId)⟩ :: todo.map ClientThread.start
          receiptRx := c.receiptRx ++ [.empty spec.streamId] } p := by
      refine h.act (a := .emitReceipt done.length (.empty 0)) ?_
      simp only [Client.act, Client.emitReceipt, hthreads, hget, hset, ClientThread.start]
      rfl
    have hfinished : CanBe cfg token program
        { c with
          threads := done.map finishedThread ++
            finishedThread spec :: todo.map ClientThread.start
          receiptRx := c.receiptRx ++ [.empty spec.streamId]
          rxChannel := c.rxChannel ++ [.testEnd] } p := by
      refine hreported.act (a := .emitEnd done.length) ?_
      simp only [Client.act, Client.emitEnd, hget, hset, finishedThread]
    have hrest := ih (done ++ [spec]) (by simp) hfinished
    simp only [List.append_assoc, List.singleton_append] at hrest
    exact hrest

/-- `drain_receipts` collects all there is. -/
theorem CanBe.drainAll (h : CanBe cfg token program c p) (hpc : c.pc = .drain) :
    CanBe cfg token program
      { c with pc := .tryRecv, receiptRx := [], receipts := c.receipts ++ c.receiptRx } p := by
  obtain ⟨rs, hrs⟩ : ∃ rs, c.receiptRx = rs := ⟨_, rfl⟩
  rw [hrs]
  induction rs generalizing c with
  | nil =>
    refine h.act (a := .loop .zero) ?_
    simp only [Client.act, Client.loopStep, hpc, Client.drainOr, hrs, List.append_nil]
  | cons r rs ih =>
    have hone : CanBe cfg token program
        { c with receiptRx := rs, receipts := c.receipts ++ [r] } p := by
      refine h.act (a := .loop .zero) ?_
      simp only [Client.act, Client.loopStep, hpc, Client.drainOr, hrs]
    have hrest := ih hone hpc rfl
    simp only [List.append_assoc, List.singleton_append] at hrest
    exact hrest

/-- The counter takes one notice per iteration; the last one sends `TestEnd`. -/
theorem CanBe.countNotices (m : Nat) (h : CanBe cfg token program c p) (hpc : c.pc = .tryRecv)
    (hrx : c.receiptRx = []) (hinbox : c.inbox.pending = [])
    (hnotices : c.rxChannel = List.replicate (m + 1) .testEnd)
    (hcount : c.streamsFinished + (m + 1) = expectedStreams cfg) (hunsent : c.testEndSent = false) :
    CanBe cfg token program
      { c with
        pc := .poll, rxChannel := [], streamsFinished := expectedStreams cfg, testEndSent := true
        outbox := c.outbox.push (.byte .testEnd) } p := by
  induction m generalizing c with
  | zero =>
    refine h.act (a := .loop .zero) ?_
    simp only [Client.act, Client.loopStep, hpc, hnotices, Client.finishStream,
      hcount, hunsent, Client.write]
    simp
  | succ m ih =>
    have hmore : ¬ (expectedStreams cfg ≤ c.streamsFinished + 1 ∧ ¬ c.testEndSent = true) := by
      intro hall
      omega
    have hcounted : CanBe cfg token program
        { c with
          pc := .poll, rxChannel := List.replicate (m + 1) .testEnd
          streamsFinished := c.streamsFinished + 1 } p := by
      refine h.act (a := .loop .zero) ?_
      simp only [Client.act, Client.loopStep, hpc, hnotices, List.replicate_succ,
        Client.finishStream, if_neg hmore]
    have hpolled : CanBe cfg token program
        { c with
          pc := .drain, rxChannel := List.replicate (m + 1) .testEnd
          streamsFinished := c.streamsFinished + 1 } p := by
      refine hcounted.act (a := .loop .zero) ?_
      simp only [Client.act, Client.loopStep, Fifo.pop_eq_none.mpr hinbox]
    have hdrained : CanBe cfg token program
        { c with
          pc := .tryRecv, rxChannel := List.replicate (m + 1) .testEnd
          streamsFinished := c.streamsFinished + 1 } p := by
      refine hpolled.act (a := .loop .zero) ?_
      simp only [Client.act, Client.loopStep, Client.drainOr, hrx]
    have hleft : c.streamsFinished + 1 + (m + 1) = expectedStreams cfg := by omega
    have hrest := ih hdrained rfl hrx hinbox rfl hleft hunsent
    exact hrest

/-- All threads of the test finish, all receipts are collected, all notices counted, and `TestEnd`
    goes out. -/
theorem CanBe.endTest {specs : List StreamThread} (h : CanBe cfg token program c p)
    (hpc : c.pc = .poll) (hthreads : c.threads = specs.map ClientThread.start)
    (hlen : specs.length = expectedStreams cfg) (hrx : c.receiptRx = []) (hch : c.rxChannel = [])
    (hinbox : c.inbox.pending = []) (hzero : c.streamsFinished = 0)
    (hunsent : c.testEndSent = false) :
    ∃ c', CanBe cfg token program c' p ∧ c'.pc = .poll ∧
      (∀ t ∈ c'.threads, t.isFinished = true) ∧ c'.testEndSent = true ∧ c'.inbox = c.inbox ∧
      c'.outbox = c.outbox.push (.byte .testEnd) := by
  have hfinished := h.finishThreads [] specs hthreads
  have hpolled : CanBe cfg token program
      { c with
        pc := .drain
        threads := specs.map finishedThread
        receiptRx := specs.map fun spec => .empty spec.streamId
        rxChannel := List.replicate specs.length .testEnd } p := by
    refine hfinished.act (a := .loop .zero) ?_
    simp only [Client.act, Client.loopStep, hpc, Fifo.pop_eq_none.mpr hinbox, hrx, hch,
      List.nil_append]
  have hdrained := hpolled.drainAll rfl
  obtain ⟨m, hm⟩ := Nat.exists_eq_succ_of_ne_zero (Nat.ne_of_gt (expectedStreams_pos cfg))
  have hcounted := hdrained.countNotices m rfl rfl hinbox (by rw [hlen, hm])
    (by rw [hm, hzero, Nat.zero_add]) hunsent
  refine ⟨_, hcounted, rfl, ?_, rfl, rfl, rfl⟩
  intro t ht
  obtain ⟨spec, -, rfl⟩ := List.mem_map.mp ht
  rfl

theorem CanBe.readOptions {o : ClientOptions} {rest : Fifo Item} {f : ClientOptions → Session Nat}
    (h : CanBe cfg token program c (recvOptions >>= f))
    (hpop : c.outbox.pop = some (.options o, rest)) :
    CanBe cfg token program { c with outbox := rest } (f o) := by
  refine System.Reachable.step (.server calmWorld) h ?_
  show serveOp calmWorld c .recvOptions _ = _
  simp only [serveOp, hpop]
  rfl

theorem CanBe.readEnd {rest : Fifo Item} {f : Unit → Session Nat}
    (h : CanBe cfg token program c (ignore waitForTestEnd >>= f))
    (hpop : c.outbox.pop = some (.byte .testEnd, rest)) :
    CanBe cfg token program { c with outbox := rest } (f ()) := by
  refine System.Reachable.step (.server calmWorld) h ?_
  show serveOp calmWorld c (.awaitByte [.testEnd]) _ = _
  simp only [serveOp, hpop]
  rfl

end Run

/-! ## The reversed UDP session -/

/-- The transfer as one sequence: two waits for `TestEnd` in a row. -/
theorem transfer_reversedUdp (cookie : Bytes) {o : ClientOptions} (hudp : o.udp = true)
    (hrev : o.reverse = true) (hbi : o.bidirectional = false)
    (f : List StreamReceipt → Session Nat) :
    (transfer .channel cookie o none >>= f) = (do
      bindUdp anyAddr none
      let dataPort ← udpPort
      sendByte .setDataPort
      sendItem (.port dataPort)
      sendByte .createStreams
      let addrs ← collectUdpStreams cookie o.parallel
      setUdpTimeout none
      sendByte .testStart
      sendByte .testRunning
      setReadTimeout none
      let receipts ← runUdpSendStreams addrs o
      ignore waitForTestEnd
      ignore waitForTestEnd
      f receipts) := by
  simp only [transfer, hudp, if_true, channelUdpBranch, hrev, hbi, Bool.false_eq_true, if_false,
    sendTestStartRunning, waitForTestEndIf, bind_assoc, pure_bind, runTimeout, Option.map_none]

/-- The client after `ParamExchange`, its options in flight. -/
def askedClient (cfg : Config) (token : Option String) : Client :=
  { Client.initial with
    inbox := ⟨[.byte .paramExchange], []⟩
    outbox := ⟨[], [.options (sendOptions cfg token)]⟩ }

/-- The client after `CreateStreams`, its threads started. -/
def createdClient (cfg : Config) (token : Option String) (dataPort : Nat) : Client :=
  { Client.initial with
    threads := (createStreams cfg (some dataPort)).map ClientThread.start
    dataPortOverride := some dataPort
    inbox := ⟨[.byte .paramExchange, .byte .setDataPort, .port dataPort, .byte .createStreams], []⟩
    outbox := ⟨[.options (sendOptions cfg token)], []⟩ }

/-- The client during the transfer. -/
def runningClient (cfg : Config) (token : Option String) (dataPort : Nat) : Client :=
  { createdClient cfg token dataPort with
    isStarted := true
    isRunning := true
    inbox := ⟨[.byte .paramExchange, .byte .setDataPort, .port dataPort, .byte .createStreams,
      .byte .testStart, .byte .testRunning], []⟩ }

/-- A session asks for the options, checks them and goes on; the check of admitted options does
    nothing. -/
theorem sessionBody_eq (entry : Entry) (auth : AuthConfig) (timeout : Option Nat) (cookie : Bytes) :
    ∃ check : ClientOptions → Session ClientOptions,
      (∀ o, admitted auth o → check o = pure o) ∧
      sessionBody entry auth timeout cookie = (do
        sendByte .paramExchange
        let opts ← recvOptions
        let opts ← check opts
        let receipts ← transfer entry cookie opts timeout
        reportResults timeout receipts) := by
  unfold sessionBody admitOptions negotiateOptions
  refine ⟨_, fun o ho => ?_, (bind_assoc _ _ _).trans (bind_assoc _ _ _)⟩
  simp only [ho.1, checkAuth_eq_pure ho.2, pure_bind]

/-- The session is admitted: the server goes on to the transfer. -/
theorem canBe_transfer {cfg : Config} {token : Option String} {auth : AuthConfig} (cookie : Bytes)
    (hadm : admitted auth (sendOptions cfg token)) :
    CanBe cfg token (sessionProgram .channel auth cookie none)
      { askedClient cfg token with outbox := ⟨[.options (sendOptions cfg token)], []⟩ }
      (transfer .channel cookie (sendOptions cfg token) none >>= reportResults none) := by
  obtain ⟨check, hcheck, hbody⟩ := sessionBody_eq .channel auth none cookie
  have hstart : CanBe cfg token (sessionProgram .channel auth cookie none) Client.initial
      (sessionProgram .channel auth cookie none) := System.Reachable.init rfl
  replace hbody : sessionProgram .channel auth cookie none = _ := hbody
  rw [hbody] at hstart ⊢
  have hasked : CanBe cfg token _ (askedClient cfg token) _ := hstart.send.loop 3 rfl
  have hread := hasked.readOptions rfl
  rw [hcheck _ hadm] at hread
  exact hread

/-- **A reversed UDP session from the accept loop ends in a deadlock**, with nothing having gone
    wrong. -/
theorem reversedUdp_deadlocks {cfg : Config} {token : Option String} {auth : AuthConfig}
    (cookie : Bytes) (hadm : admitted auth (sendOptions cfg token)) (hudp : cfg.transport = .udp)
    (hrev : cfg.direction = .reverse) :
    ∃ s, (netSystem cfg token (sessionProgram .channel auth cookie none)).Reachable s ∧
      s.Deadlocked := by
  have htransfer := canBe_transfer cookie hadm
  rw [transfer_reversedUdp cookie (o := sendOptions cfg token)
    (congrArg TransportKind.isUdp hudp) (congrArg Direction.isReverse hrev)
    (congrArg Direction.isBidirectional hrev)] at htransfer
  -- the server binds its socket, announces the port and asks for the streams
  have hport := (htransfer.quiet (quiet_call rfl) rfl).quiet (quiet_call rfl) rfl
  have hcreated : CanBe cfg token _ (createdClient cfg token 40000) _ :=
    hport.send.send.send.loop 7 rfl
  -- the streams show up and the test runs
  have hstarted := (hcreated.quiet (quiet_call rfl) rfl).quiet (quiet_call rfl) rfl
  have hrunning : CanBe cfg token _ (runningClient cfg token 40000) _ :=
    hstarted.send.send.loop 6 rfl
  have hsent := (hrunning.quiet (quiet_call rfl) rfl).quiet (quiet_runUdpSendStreams _ _)
    (evalWith_runUdpSendStreams _ _)
  -- the client's threads finish; its one `TestEnd` satisfies the first of the two waits
  obtain ⟨c, hc, hpc, hthreads, hend, hinbox, houtbox⟩ := hsent.endTest rfl rfl
    (length_createStreams cfg _) rfl rfl rfl rfl rfl
  have hpop : c.outbox.pop =
      some (.byte .testEnd, ⟨[.options (sendOptions cfg token), .byte .testEnd], []⟩) := by
    rw [houtbox]
    rfl
  have hwaiting := hc.readEnd hpop
  refine ⟨_, hwaiting, ⟨.awaitByte [.testEnd], _, rfl, rfl⟩, ?_, hthreads, hend, ?_, rfl⟩
  · show c.pc ∈ _
    rw [hpc]
    decide
  · show c.inbox.pending = []
    rw [hinbox]
    rfl

/-! ### One stream, default settings -/

def reversedUdp : Config :=
  { Config.withHost "server" with transport := .udp, direction := .reverse, len := 1460 }

theorem admitted_reversedUdp : admitted none (sendOptions reversedUdp none) :=
  ⟨rfl, fun _ h => nomatch h⟩

theorem reversedUdp_session_deadlocks :
    admitted none (sendOptions reversedUdp none) ∧
    ∃ s, (netSystem reversedUdp none (sessionProgram .channel none [] none)).Reachable s ∧
      s.Deadlocked :=
  ⟨admitted_reversedUdp, reversedUdp_deadlocks [] admitted_reversedUdp rfl rfl⟩

/-! ## No deadlock otherwise -/

/-- No client asks for a reversed and a bidirectional test at once. -/
theorem sendOptions_not_both (cfg : Config) (token : Option String) :
    ¬ ((sendOptions cfg token).reverse = true ∧ (sendOptions cfg token).bidirectional = true) := by
  rintro ⟨hrev, hbi⟩
  replace hrev : cfg.direction.isReverse = true := hrev
  replace hbi : cfg.direction.isBidirectional = true := hbi
  cases hdir : cfg.direction with
  | forward => rw [hdir] at hrev; cases hrev
  | reverse => rw [hdir] at hbi; cases hbi
  | bidirectional => rw [hdir] at hrev; cases hrev

theorem readsEndTwice_iff {entry : Entry} {cfg : Config} {token : Option String} :
    ReadsEndTwice entry (sendOptions cfg token) ↔
      entry = .channel ∧ cfg.transport = .udp ∧ cfg.direction = .reverse := by
  have hudp : (sendOptions cfg token).udp = true ↔ cfg.transport = .udp := by
    show cfg.transport.isUdp = true ↔ _
    cases cfg.transport with
    | tcp => simp [TransportKind.isUdp]
    | udp => simp [TransportKind.isUdp]
  have hrev : (sendOptions cfg token).reverse = true ↔ cfg.direction = .reverse := by
    show cfg.direction.isReverse = true ↔ _
    cases cfg.direction with
    | forward => simp [Direction.isReverse]
    | reverse => simp [Direction.isReverse]
    | bidirectional => simp [Direction.isReverse]
  unfold ReadsEndTwice
  rw [hudp, hrev]

/-- An admitted session is in step with its client, in every run. -/
theorem inStep_of_admitted {cfg : Config} {token : Option String} {entry : Entry}
    {auth : AuthConfig} {cookie : Bytes} (hadm : admitted auth (sendOptions cfg token))
    (hgood : ¬ (entry = .channel ∧ cfg.transport = .udp ∧ cfg.direction = .reverse)) {s : Net}
    (hs : (netSystem cfg token (sessionProgram entry auth cookie none)).Reachable s) :
    ∃ p k, InStep (sendOptions cfg token) p k s := by
  have hends := ends_sessionProgram cookie none hadm (sendOptions_not_both cfg token)
    (fun h => hgood (readsEndTwice_iff.mp h))
  exact InStep.reachable (Discipline.wp_mono (fun _ _ _ => trivial) hends) hs

/-- **A client and a server session never block each other for ever**, in any interleaving, for any
    options the server admits, through either driver — if and only if the session is not a reversed
    UDP test of `serve_session_from_channel`. -/
theorem no_deadlock_iff (cfg : Config) (token : Option String) (entry : Entry) (auth : AuthConfig)
    (cookie : Bytes) (hadm : admitted auth (sendOptions cfg token)) :
    (∀ s, (netSystem cfg token (sessionProgram entry auth cookie none)).Reachable s →
      ¬ s.Deadlocked) ↔
    ¬ (entry = .channel ∧ cfg.transport = .udp ∧ cfg.direction = .reverse) := by
  constructor
  · rintro hnever ⟨rfl, hudp, hrev⟩
    obtain ⟨s, hs, hdead⟩ := reversedUdp_deadlocks cookie hadm hudp hrev
    exact hnever s hs hdead
  · intro hgood s hs
    obtain ⟨p, k, hstep⟩ := inStep_of_admitted hadm hgood hs
    exact hstep.not_deadlocked

/-- The same test through `serve_one_session`, which waits for `TestEnd` once. -/
theorem no_deadlock_iff_listener :
    admitted none (sendOptions reversedUdp none) ∧
    (∀ s, (netSystem reversedUdp none (sessionProgram .listener none [] none)).Reachable s →
      ¬ s.Deadlocked) :=
  ⟨admitted_reversedUdp,
    (no_deadlock_iff reversedUdp none .listener none [] admitted_reversedUdp).mpr
      fun h => nomatch h.1⟩

end Rperf3
