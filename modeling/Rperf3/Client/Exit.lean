/-
  When does `client_loop` END, if the server goes away?

  The world of the main thread is the control socket with the bytes the server has sent, in any
  chunking and with any polls in between that find nothing, and the end of the stream behind them;
  sends, stream threads and their receipts do as they like.

  1. `ToldToStop` — read off the BYTES: a message that stops the loop stands at a place where the
     loop reads a control byte.  The payload of `SetDataPort` and, if our own results could be sent,
     the frame behind `ExchangeResults` are not such places.
  2. `recvByte_spec`, `handleMessageClient_spec` — what one iteration reads.
  3. `clientLoop_exits_iff` — the loop ends if and only if the bytes say so; the end of the stream
     is an error like any other to `client_recv`, and the loop goes on.
-/
import Rperf3.Client.Program
import Rperf3.Common.Framing

namespace Rperf3

open Effect Effect.Prog ShortIO

/-! ## The world of the main thread -/

/-- The receiving side of the control socket (the bytes to come, the mode, how often `recv` has been
    called), how many results frames have been offered to the peer, and a clock for everything
    else. -/
structure ClientWorld where
  input : Chunks UInt8
  nonblocking : Bool
  polls : Nat
  exchanges : Nat
  ticks : Nat

/-- What the rest of the world does: the non-blocking `recv`s that find nothing, the outcome of each
    results frame and of every other send, the receipts and notices of the stream threads.
    Switching the mode of an open socket does not fail. -/
structure ClientEnv where
  idle : Nat → Bool
  resultsSent : Nat → Except IoError Unit
  sent : Nat → Except IoError Unit
  receipts : Nat → List ClientStreamReceipt
  notices : Nat → Option Message
  cpu : Nat → CpuUsage
  results : Json Results

def wouldBlockError : IoError :=
  ⟨.wouldBlock, "Resource temporarily unavailable (os error 11)"⟩

namespace ClientEnv

variable (env : ClientEnv)

/-- `recv` on the control socket; only a non-blocking one comes back empty-handed. -/
def recv (n : Nat) : Sock ClientWorld IoError Bytes := fun w =>
  if w.nonblocking && env.idle w.polls then
    (.error wouldBlockError, { w with polls := w.polls + 1 })
  else
    let (r, input) := Sock.on (Chunks.recv n) w.input
    (r, { w with input := input, polls := w.polls + 1 })

/-- The answer to each call of the main thread. -/
def answer : (o : ClientOp) → ClientWorld → Except IoError o.Ok × ClientWorld
  | .recvByte, w => (recvControlByte env.recv).on w
  | .recvPort, w =>
    let (r, w') := (recvU16Be env.recv).on w
    (r.map UInt16.toNat, w')
  | .recvResults, w => (recvFramedJson env.recv env.results).on w
  | .send (.results _), w =>
    (env.resultsSent w.exchanges, { w with exchanges := w.exchanges + 1 })
  | .send _, w => (env.sent w.ticks, { w with ticks := w.ticks + 1 })
  | .setNonblocking on, w => (.ok (), { w with nonblocking := on })
  | .startStreams _, w => (.ok (), w)
  | .drainReceipts, w => (.ok (env.receipts w.ticks), { w with ticks := w.ticks + 1 })
  | .tryRecv, w => (.ok (env.notices w.ticks), { w with ticks := w.ticks + 1 })
  | .cpuUsage _, w => (.ok (env.cpu w.ticks), w)

/-- Run a program of the main thread; nothing blocks it for ever. -/
def run {α : Type} (p : ClientM α) (w : ClientWorld) : Option (Except IoError α × ClientWorld) :=
  p.runIn (fun o w => some (env.answer o w)) w

variable {env}

theorem run_bind {α β : Type} {p : ClientM α} {w w' : ClientWorld} {a : α}
    (h : env.run p w = some (.ok a, w')) (f : α → ClientM β) :
    env.run (p >>= f) w = env.run (f a) w' :=
  runIn_bind_ok h f

theorem run_attempt {o : ClientOp} {w w' : ClientWorld} {r : Except IoError o.Ok}
    (h : env.answer o w = (r, w')) : env.run (ClientM.attempt o) w = some (.ok r, w') := by
  show some (Except.ok (env.answer o w).1, (env.answer o w).2) = _
  rw [h]

theorem run_logged {o : ClientOp} {w w' : ClientWorld} {r : Except IoError o.Ok}
    (h : env.answer o w = (r, w')) : env.run (ClientM.logged o) w = some (.ok (), w') :=
  run_bind (run_attempt h) _

end ClientEnv

/-! ## What the bytes say -/

/-- The messages on which `handle_message_client` reports that the loop is done. -/
def Message.endsLoop : Message → Bool
  | .displayResults | .iperfDone | .accessDenied => true
  | _ => false

/-- How many results frames have been offered after a message. -/
def exchangesAfter (k : Nat) : Message → Nat
  | .exchangeResults => k + 1
  | _ => k

/-- What is left of the bytes behind a message once it has been handled; `sent k` says whether the
    `k`-th results frame could be sent. -/
def unreadAfter (sent : Nat → Bool) (k : Nat) (m : Message) (bs : Bytes) : Bytes :=
  match m with
  | .setDataPort => bs.drop 2
  | .exchangeResults => if sent k then afterFrame bs else bs
  | _ => bs

/-- Somewhere the loop reads a message that ends it. -/
inductive ToldToStop (sent : Nat → Bool) : Nat → Bytes → Prop
  | stop {k : Nat} {b : UInt8} {bs : Bytes} {m : Message}
      (hm : Message.tryFrom b.toInt8 = some m) (hend : m.endsLoop = true) :
      ToldToStop sent k (b :: bs)
  | unknown {k : Nat} {b : UInt8} {bs : Bytes} (hb : Message.tryFrom b.toInt8 = none)
      (rest : ToldToStop sent k bs) : ToldToStop sent k (b :: bs)
  | next {k : Nat} {b : UInt8} {bs : Bytes} {m : Message}
      (hm : Message.tryFrom b.toInt8 = some m)
      (rest : ToldToStop sent (exchangesAfter k m) (unreadAfter sent k m bs)) :
      ToldToStop sent k (b :: bs)

/-! ## One iteration -/

section Iteration

open ClientEnv

variable (env : ClientEnv)

/-- The loop is about to poll: `bs` is still to come, and `k` results frames have been offered. -/
def AtPoll (k : Nat) (bs : Bytes) (w : ClientWorld) : Prop :=
  w.nonblocking = true ∧ w.input.stream = bs ∧ w.exchanges = k

/-- Which results frames were sent. -/
def ClientEnv.sentResults (k : Nat) : Bool := (env.resultsSent k).isOk

/-- A poll that finds nothing. -/
theorem recvByte_idle {k : Nat} {bs : Bytes} {w : ClientWorld} (hw : AtPoll k bs w)
    (hidle : env.idle w.polls = true) :
    env.answer .recvByte w = (.error wouldBlockError, { w with polls := w.polls + 1 }) := by
  have hrecv : (env.recv 1).on w =
      (.error wouldBlockError, { w with polls := w.polls + 1 }) := by
    show env.recv 1 w = _
    rw [ClientEnv.recv, hw.1, hidle]
    rfl
  exact on_bind_error (readExact_recv_error Nat.one_pos hrecv)

/-- Any other poll takes one byte off the stream, or finds its end. -/
theorem recv_poll {k : Nat} {bs : Bytes} {w : ClientWorld} (hw : AtPoll k bs w)
    (hidle : env.idle w.polls = false) :
    ∃ w', (env.recv 1).on w = (.ok (bs.take 1), w') ∧ AtPoll k (bs.drop 1) w' := by
  obtain ⟨hmode, rfl, rfl⟩ := hw
  have hfaithful : Faithful (Chunks.recv : Nat → Sock (Chunks UInt8) IoError Bytes) Chunks.stream :=
    Chunks.faithful_recv
  obtain ⟨xs, input, hr, hle, hs, hend⟩ := hfaithful 1 w.input Nat.one_pos
  have hxs : xs = w.input.stream.take 1 ∧ input.stream = w.input.stream.drop 1 := by
    match xs, hle, hs, hend with
    | [], _, hs, hend =>
      rw [hend rfl] at hs ⊢
      exact ⟨rfl, hs.symm⟩
    | [b], _, hs, _ =>
      rw [hs]
      exact ⟨rfl, rfl⟩
  refine ⟨{ w with input := input, polls := w.polls + 1 }, ?_, hmode, hxs.2, rfl⟩
  show env.recv 1 w = _
  rw [ClientEnv.recv, hidle, Bool.and_false, if_neg Bool.false_ne_true, hr, hxs.1]

/-- The end of the stream is an error of `recv_control_byte`. -/
theorem recvByte_end {k : Nat} {w : ClientWorld} (hw : AtPoll k [] w)
    (hidle : env.idle w.polls = false) :
    ∃ w', env.answer .recvByte w = (.error eofError, w') ∧ AtPoll k [] w' := by
  obtain ⟨w', hrecv, hw'⟩ := recv_poll env hw hidle
  exact ⟨w', on_bind_error (readExact_recv_end Nat.one_pos hrecv), hw'⟩

/-- A byte comes back as the message it stands for, or as an error. -/
theorem recvByte_byte {k : Nat} {b : UInt8} {bs : Bytes} {w : ClientWorld}
    (hw : AtPoll k (b :: bs) w) (hidle : env.idle w.polls = false) :
    ∃ w', env.answer .recvByte w = ((Message.tryFrom b.toInt8).elim
        (.error ⟨.invalidData, "unknown control byte: " ++ toString b.toNat⟩) .ok, w') ∧
      AtPoll k bs w' := by
  obtain ⟨w', hrecv, hw'⟩ := recv_poll env hw hidle
  refine ⟨w', ?_, hw'⟩
  show (recvControlByte env.recv).on w = _
  rw [recvControlByte, on_bind_ok (readExact_one hrecv)]
  simp only [List.headD_cons]
  cases Message.tryFrom b.toInt8 with
  | none => rfl
  | some m => rfl

/-- In blocking mode the socket hands out its bytes. -/
theorem faithfulOn_recv (k : Nat) :
    FaithfulOn (fun w => w.nonblocking = false ∧ w.exchanges = k) env.recv
      fun w => w.input.stream := by
  rintro n w ⟨hmode, hk⟩ hn
  have hfaithful : Faithful (Chunks.recv : Nat → Sock (Chunks UInt8) IoError Bytes) Chunks.stream :=
    Chunks.faithful_recv
  obtain ⟨xs, input, hr, hrest⟩ := hfaithful n w.input hn
  refine ⟨xs, { w with input := input, polls := w.polls + 1 }, ?_, ⟨hmode, hk⟩, hrest⟩
  show env.recv n w = _
  rw [ClientEnv.recv, hmode, Bool.false_and, if_neg Bool.false_ne_true, hr]

/-- The payload of `SetDataPort` is two bytes, as far as they are there. -/
theorem readDataPort_spec {k : Nat} {bs : Bytes} {w : ClientWorld} (hw : AtPoll k bs w) {t : Test}
    (ht : t.connected = true) :
    ∃ t' w', env.run t.readDataPort w = some (.ok t', w') ∧ t'.connected = true ∧
      AtPoll k (bs.drop 2) w' := by
  obtain ⟨-, rfl, hk⟩ := hw
  obtain ⟨r, w', hread, ⟨-, hk'⟩, hs'⟩ :=
    recvU16Be_stream (faithfulOn_recv env k) (s := { w with nonblocking := false }) ⟨rfl, hk⟩
  have hanswer : env.answer .recvPort { w with nonblocking := false } =
      (r.map UInt16.toNat, w') := by
    show (let (r, w') := (recvU16Be env.recv).on { w with nonblocking := false }
      (r.map UInt16.toNat, w')) = _
    rw [hread]
  -- switch the mode, read, switch it back
  rw [show t.readDataPort = _ from if_neg (by rw [ht]; decide), run_bind (run_logged rfl),
    run_bind (run_attempt hanswer), run_bind (run_logged rfl)]
  cases r with
  | ok p => exact ⟨_, _, rfl, ht, rfl, hs', hk'⟩
  | error e => exact ⟨_, _, rfl, ht, rfl, hs', hk'⟩

/-- The server's results are read only behind ours. -/
theorem swapResults_spec {k : Nat} {bs : Bytes} {w : ClientWorld} (hw : AtPoll k bs w) {t : Test}
    (ht : t.connected = true) (ours : Results) :
    ∃ w', env.run (t.swapResults ours) w = some (.ok t, w') ∧
      AtPoll (k + 1) (if env.sentResults k then afterFrame bs else bs) w' := by
  obtain ⟨hmode, rfl, rfl⟩ := hw
  have hsent : env.answer (.send (.results ours)) w =
      (env.resultsSent w.exchanges, { w with exchanges := w.exchanges + 1 }) := rfl
  rw [show t.swapResults ours = _ from if_neg (by rw [ht]; decide), run_bind (run_attempt hsent),
    ClientEnv.sentResults]
  cases env.resultsSent w.exchanges with
  | error e => exact ⟨_, rfl, hmode, rfl, rfl⟩
  | ok u =>
    obtain ⟨r, w', hread, ⟨-, hk'⟩, hs'⟩ :=
      recvFramedJson_stream (faithfulOn_recv env (w.exchanges + 1)) env.results
        (s := { w with exchanges := w.exchanges + 1, nonblocking := false }) ⟨rfl, rfl⟩
    have hanswer : env.answer .recvResults
        { w with exchanges := w.exchanges + 1, nonblocking := false } = (r, w') := hread
    show ∃ w', env.run (ClientM.attempt (.setNonblocking false) >>= _) _ = _ ∧ _
    rw [run_bind (run_attempt rfl)]
    show ∃ w', env.run (ClientM.attempt .recvResults >>= _) _ = _ ∧ _
    rw [run_bind (run_attempt hanswer), run_bind (run_logged rfl)]
    exact ⟨_, rfl, rfl, hs', hk'⟩

/-- **What handling a message reads**, and whether it ends the loop. -/
theorem handleMessageClient_spec (cfg : Config) (token : Option String) (m : Message) {k : Nat}
    {bs : Bytes} {w : ClientWorld} (hw : AtPoll k bs w) {t : Test} (ht : t.connected = true) :
    ∃ t' w', env.run (t.handleMessageClient cfg token m) w = some (.ok (m.endsLoop, t'), w') ∧
      t'.connected = true ∧
      AtPoll (exchangesAfter k m) (unreadAfter env.sentResults k m bs) w' := by
  have hsend : ∀ i : Item, (∀ r, i ≠ .results r) → ∀ b : Bool,
      ∃ w', env.run (t.sendLogged i >>= fun _ => pure (b, t)) w = some (.ok (b, t), w') ∧
        AtPoll k bs w' := by
    intro i hi b
    have hlogged : t.sendLogged i = ClientM.logged (.send i) := if_pos ht
    rw [hlogged]
    cases i with
    | results r => exact absurd rfl (hi r)
    | _ => exact ⟨_, run_bind (run_logged rfl) _, hw⟩
  cases m with
  | setDataPort =>
    obtain ⟨t', w', hrun, ht', hw'⟩ := readDataPort_spec env hw ht
    exact ⟨t', w', run_bind hrun _, ht', hw'⟩
  | exchangeResults =>
    have hw₁ : AtPoll k bs { w with ticks := w.ticks + 1 } := hw
    obtain ⟨w', hrun, hw'⟩ := swapResults_spec env hw₁
      (t := { t with receipts := t.receipts ++ env.receipts w.ticks }) ht _
    exact ⟨_, w', run_bind hrun _, ht, hw'⟩
  | paramExchange =>
    obtain ⟨w', hrun, hw'⟩ := hsend (.options (sendOptions cfg token)) nofun false
    exact ⟨t, w', hrun, ht, hw'⟩
  | displayResults =>
    obtain ⟨w', hrun, hw'⟩ := hsend (.byte .iperfDone) nofun true
    exact ⟨t, w', hrun, ht, hw'⟩
  | _ => exact ⟨_, w, rfl, ht, hw⟩

variable {cfg : Config} {token : Option String} {t : Test} {w w' : ClientWorld}

/-- `client_recv` shrugs off every error. -/
theorem clientRecv_error (ht : t.connected = true) {e : IoError}
    (h : env.answer .recvByte w = (.error e, w')) :
    env.run (t.clientRecv cfg token) w = some (.ok (false, t), w') := by
  rw [show t.clientRecv cfg token = _ from if_neg (by rw [ht]; decide), run_bind (run_attempt h)]
  rfl

theorem clientRecv_message (ht : t.connected = true) {m : Message}
    (h : env.answer .recvByte w = (.ok m, w')) :
    env.run (t.clientRecv cfg token) w = env.run (t.handleMessageClient cfg token m) w' := by
  rw [show t.clientRecv cfg token = _ from if_neg (by rw [ht]; decide), run_bind (run_attempt h)]

/-- A message that ends the loop ends it after a last drain. -/
theorem clientLoop_done {t' : Test}
    (h : env.run (t.clientRecv cfg token) w = some (.ok (true, t'), w')) (n finished : Nat)
    (endSent : Bool) :
    ∃ t'' w'', env.run (Test.clientLoop cfg token (n + 1) t finished endSent) w =
      some (.ok (some t''), w'') := by
  rw [Test.clientLoop, run_bind h]
  exact ⟨_, _, rfl⟩

/-- The notices of the stream threads do not touch the receiving side. -/
theorem countNotice_spec (cfg : Config) {k : Nat} {bs : Bytes} (hw : AtPoll k bs w) (t : Test)
    (finished : Nat) (endSent : Bool) (notice : Option Message) :
    ∃ r w', env.run (t.countNotice cfg finished endSent notice) w = some (.ok r, w') ∧
      AtPoll k bs w' ∧ w'.polls = w.polls := by
  unfold Test.countNotice
  split
  · split
    · exact ⟨_, _, run_bind (run_logged rfl) _, hw, rfl⟩
    · exact ⟨_, w, rfl, hw, rfl⟩
  · exact ⟨_, w, rfl, hw, rfl⟩

/-- Otherwise the loop goes on with the next iteration. -/
theorem clientLoop_next {t' : Test}
    (h : env.run (t.clientRecv cfg token) w = some (.ok (false, t'), w'))
    (ht' : t'.connected = true) {k : Nat} {bs : Bytes} (hw' : AtPoll k bs w') (finished : Nat)
    (endSent : Bool) :
    ∃ t'' w'' finished' endSent', t''.connected = true ∧ AtPoll k bs w'' ∧ w''.polls = w'.polls ∧
      ∀ n, env.run (Test.clientLoop cfg token (n + 1) t finished endSent) w =
        env.run (Test.clientLoop cfg token n t'' finished' endSent') w'' := by
  have hdrain : env.run t'.drainReceipts w' =
      some (.ok { t' with receipts := t'.receipts ++ env.receipts w'.ticks },
        { w' with ticks := w'.ticks + 1 }) := rfl
  have hnotice : env.run ClientM.tryRecv { w' with ticks := w'.ticks + 1 } =
      some (.ok (env.notices (w'.ticks + 1)), { w' with ticks := w'.ticks + 2 }) := rfl
  have hdrained : AtPoll k bs { w' with ticks := w'.ticks + 2 } := hw'
  obtain ⟨⟨finished', endSent'⟩, w'', hcount, hw'', hpolls⟩ := countNotice_spec env cfg hdrained
    { t' with receipts := t'.receipts ++ env.receipts w'.ticks } finished endSent
    (env.notices (w'.ticks + 1))
  refine ⟨{ t' with receipts := t'.receipts ++ env.receipts w'.ticks }, w'', finished', endSent',
    ht', hw'', hpolls, fun n => ?_⟩
  rw [Test.clientLoop, run_bind h]
  show env.run (t'.drainReceipts >>= _) w' = _
  rw [run_bind hdrain, run_bind hnotice, run_bind hcount]

end Iteration

/-! ## The loop -/

/-- A client connected to a server that sends these bytes and then closes. -/
def ClientWorld.start (input : Chunks UInt8) : ClientWorld := ⟨input, true, 0, 0, 0⟩

/-- The loop ends after finitely many iterations. -/
def Exits (env : ClientEnv) (cfg : Config) (token : Option String) (t : Test) (finished : Nat)
    (endSent : Bool) (w : ClientWorld) : Prop :=
  ∃ n t' w', env.run (Test.clientLoop cfg token n t finished endSent) w = some (.ok (some t'), w')

section Loop

variable {env : ClientEnv} {cfg : Config} {token : Option String}

theorem exits_of_next {t t' : Test} {w w' : ClientWorld} {finished finished' : Nat}
    {endSent endSent' : Bool}
    (h : ∀ n, env.run (Test.clientLoop cfg token (n + 1) t finished endSent) w =
      env.run (Test.clientLoop cfg token n t' finished' endSent') w')
    (hexits : Exits env cfg token t' finished' endSent' w') :
    Exits env cfg token t finished endSent w := by
  obtain ⟨n, t'', w'', hrun⟩ := hexits
  exact ⟨n + 1, t'', w'', (h n).trans hrun⟩

theorem exits_of_done {t t' : Test} {w w' : ClientWorld}
    (h : env.run (t.clientRecv cfg token) w = some (.ok (true, t'), w')) (finished : Nat)
    (endSent : Bool) : Exits env cfg token t finished endSent w := by
  obtain ⟨t'', w'', hrun⟩ := clientLoop_done env h 0 finished endSent
  exact ⟨1, t'', w'', hrun⟩

/-- **Only the messages of `ToldToStop` stop the loop.**  Induction on the iterations. -/
theorem told_of_exits (n : Nat) : ∀ {t t' : Test} {w w' : ClientWorld} {finished : Nat}
    {endSent : Bool} {k : Nat} {bs : Bytes}, t.connected = true → AtPoll k bs w →
    env.run (Test.clientLoop cfg token n t finished endSent) w = some (.ok (some t'), w') →
      ToldToStop env.sentResults k bs := by
  induction n with
  | zero =>
    intro t t' w w' finished endSent k bs _ _ hrun
    cases hrun
  | succ n ih =>
    intro t t' w w' finished endSent k bs ht hw hrun
    -- the poll, then (unless it ended the loop) the remaining iterations
    have hnext : ∀ {t₁ : Test} {w₁ : ClientWorld} {k₁ : Nat} {bs₁ : Bytes},
        env.run (t.clientRecv cfg token) w = some (.ok (false, t₁), w₁) → t₁.connected = true →
        AtPoll k₁ bs₁ w₁ → ToldToStop env.sentResults k₁ bs₁ := by
      intro t₁ w₁ k₁ bs₁ hrecv ht₁ hw₁
      obtain ⟨t₂, w₂, finished₂, endSent₂, ht₂, hw₂, -, hloop⟩ :=
        clientLoop_next env hrecv ht₁ hw₁ finished endSent
      exact ih ht₂ hw₂ ((hloop n).symm.trans hrun)
    cases hidle : env.idle w.polls with
    | true => exact hnext (clientRecv_error env ht (recvByte_idle env hw hidle)) ht hw
    | false =>
      match bs, hw with
      | [], hw =>
        obtain ⟨w₁, hread, hw₁⟩ := recvByte_end env hw hidle
        exact hnext (clientRecv_error env ht hread) ht hw₁
      | b :: bs, hw =>
        obtain ⟨w₁, hread, hw₁⟩ := recvByte_byte env hw hidle
        cases hm : Message.tryFrom b.toInt8 with
        | none =>
          rw [hm] at hread
          exact .unknown hm (hnext (clientRecv_error env ht hread) ht hw₁)
        | some m =>
          rw [hm] at hread
          obtain ⟨t₂, w₂, hhandle, ht₂, hw₂⟩ := handleMessageClient_spec env cfg token m hw₁ ht
          cases hend : m.endsLoop with
          | true => exact .stop hm hend
          | false =>
            rw [hend, ← clientRecv_message env ht hread] at hhandle
            exact .next hm (hnext hhandle ht₂ hw₂)

/-- Polls that find nothing only delay the loop. -/
theorem exits_of_poll (hidle : ∀ n, ∃ m, n ≤ m ∧ env.idle m = false) {k : Nat} {bs : Bytes}
    (h : ∀ (t : Test) (w : ClientWorld) (finished : Nat) (endSent : Bool), t.connected = true →
      AtPoll k bs w → env.idle w.polls = false → Exits env cfg token t finished endSent w)
    (t : Test) (w : ClientWorld) (finished : Nat) (endSent : Bool) (ht : t.connected = true)
    (hw : AtPoll k bs w) : Exits env cfg token t finished endSent w := by
  obtain ⟨m, hle, hm⟩ := hidle w.polls
  -- induction on the number of polls until the one that finds something
  obtain ⟨d, rfl⟩ := Nat.exists_eq_add_of_le hle
  clear hle
  induction d generalizing t w finished endSent with
  | zero => exact h t w finished endSent ht hw hm
  | succ d ih =>
    cases hpoll : env.idle w.polls with
    | false => exact h t w finished endSent ht hw hpoll
    | true =>
      have hrecv : env.run (t.clientRecv cfg token) w =
          some (.ok (false, t), { w with polls := w.polls + 1 }) :=
        clientRecv_error env ht (recvByte_idle env hw hpoll)
      obtain ⟨t₁, w₁, finished₁, endSent₁, ht₁, hw₁, hpolls, hloop⟩ :=
        clientLoop_next env hrecv ht hw finished endSent
      refine exits_of_next hloop (ih t₁ w₁ finished₁ endSent₁ ht₁ hw₁ ?_)
      rw [hpolls]
      show env.idle (w.polls + 1 + d) = false
      rw [Nat.add_assoc, Nat.add_comm 1 d]
      exact hm

/-- **The messages of `ToldToStop` do stop the loop**, however long the polls take. -/
theorem exits_of_told (hidle : ∀ n, ∃ m, n ≤ m ∧ env.idle m = false) {k : Nat} {bs : Bytes}
    (h : ToldToStop env.sentResults k bs) : ∀ (t : Test) (w : ClientWorld) (finished : Nat)
    (endSent : Bool), t.connected = true → AtPoll k bs w →
      Exits env cfg token t finished endSent w := by
  induction h with
  | @stop k b bs m hm hend =>
    refine exits_of_poll hidle fun t w finished endSent ht hw hpoll => ?_
    obtain ⟨w₁, hread, hw₁⟩ := recvByte_byte env hw hpoll
    rw [hm] at hread
    obtain ⟨t₂, w₂, hhandle, -, -⟩ := handleMessageClient_spec env cfg token m hw₁ ht
    rw [hend, ← clientRecv_message env ht hread] at hhandle
    exact exits_of_done hhandle finished endSent
  | @unknown k b bs hb _ ih =>
    refine exits_of_poll hidle fun t w finished endSent ht hw hpoll => ?_
    obtain ⟨w₁, hread, hw₁⟩ := recvByte_byte env hw hpoll
    rw [hb] at hread
    obtain ⟨t₂, w₂, finished₂, endSent₂, ht₂, hw₂, -, hloop⟩ :=
      clientLoop_next env (clientRecv_error env ht hread) ht hw₁ finished endSent
    exact exits_of_next hloop (ih t₂ w₂ finished₂ endSent₂ ht₂ hw₂)
  | @next k b bs m hm _ ih =>
    refine exits_of_poll hidle fun t w finished endSent ht hw hpoll => ?_
    obtain ⟨w₁, hread, hw₁⟩ := recvByte_byte env hw hpoll
    rw [hm] at hread
    obtain ⟨t₂, w₂, hhandle, ht₂, hw₂⟩ := handleMessageClient_spec env cfg token m hw₁ ht
    rw [← clientRecv_message env ht hread] at hhandle
    cases hend : m.endsLoop with
    | true =>
      rw [hend] at hhandle
      exact exits_of_done hhandle finished endSent
    | false =>
      rw [hend] at hhandle
      obtain ⟨t₃, w₃, finished₃, endSent₃, ht₃, hw₃, -, hloop⟩ :=
        clientLoop_next env hhandle ht₂ hw₂ finished endSent
      exact exits_of_next hloop (ih t₃ w₃ finished₃ endSent₃ ht₃ hw₃)

end Loop

/-- **When the server goes away, the client loop ends if and only if it has been told to.**  For
    every configuration, all bytes the server has sent before the end of the stream, and any
    schedule of chunks, empty polls, sends and stream threads (`hidle`: the bytes do arrive). -/
theorem clientLoop_exits_iff (env : ClientEnv) (cfg : Config) (token : Option String)
    (input : Chunks UInt8) (hidle : ∀ n, ∃ m, n ≤ m ∧ env.idle m = false) :
    Exits env cfg token (Test.new true) 0 false (ClientWorld.start input) ↔
      ToldToStop env.sentResults 0 input.stream := by
  constructor
  · rintro ⟨n, t', w', hrun⟩
    exact told_of_exits n rfl ⟨rfl, rfl, rfl⟩ hrun
  · intro h
    exact exits_of_told hidle h _ _ 0 false rfl ⟨rfl, rfl, rfl⟩

/-! ### A server that is gone after its first byte -/

/-- Every poll finds something, every send succeeds, and no stream is ever started. -/
def promptEnv : ClientEnv where
  idle _ := false
  resultsSent _ := .ok ()
  sent _ := .ok ()
  receipts _ := []
  notices _ := none
  cpu _ := CpuUsage.zero
  results := ⟨fun _ => .ok [], fun _ => .error "no results"⟩

/-- The server asks for the options and is gone: the client never stops. -/
theorem loop_survives_server :
    ¬ Exits promptEnv (Config.withHost "127.0.0.1") none (Test.new true) 0 false
      (ClientWorld.start ⟨[[9]], by decide⟩) := by
  rintro ⟨n, t', w', hrun⟩
  have htold : ToldToStop promptEnv.sentResults 0 [9] := told_of_exits n rfl ⟨rfl, rfl, rfl⟩ hrun
  cases htold with
  | stop hm hend =>
    cases hm
    cases hend
  | unknown hb _ => cases hb
  | next hm rest =>
    cases hm
    cases rest

/-- A rejected client does stop. -/
theorem clientLoop_exits_iff_denied :
    (∀ n, ∃ m, n ≤ m ∧ promptEnv.idle m = false) ∧
      Exits promptEnv (Config.withHost "127.0.0.1") none (Test.new true) 0 false
        (ClientWorld.start ⟨[[9, 255]], by decide⟩) := by
  have hidle : ∀ n, ∃ m, n ≤ m ∧ promptEnv.idle m = false := fun n => ⟨n, Nat.le_refl n, rfl⟩
  refine ⟨hidle, (clientLoop_exits_iff promptEnv _ none _ hidle).mpr ?_⟩
  exact .next rfl (.stop rfl rfl)

end Rperf3
