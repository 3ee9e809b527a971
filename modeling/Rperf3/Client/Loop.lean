/-
  `client_loop`: the client's event loop, its stream threads and the three channels between them.

  The loop runs on the main thread and never waits for a stream thread.  Each iteration

  1. polls the control channel once (`client_recv`; the socket is non-blocking) and handles the
     message it finds (`handle_message_client`);
  2. drains the receipts the stream threads have sent (`drain_receipts`);
  3. takes at most ONE end-of-stream notice from `rx_channel` and counts it; the notice that
     completes the count makes the client write its `TestEnd` byte.

  A stream thread ends with the two sends of `emit_stream_finished`: first its receipt, then the
  notice.  These, every single poll and every single receipt drained are separate atomic actions,
  so a schedule may put a thread's sends between any two of the loop's.

  `SetDataPort` and `ExchangeResults` switch the socket to blocking for one read; the loop is then
  at a program counter of its own (`readPort`, `readResults`).
-/
import Rperf3.Lib.Fifo
import Rperf3.Client.Streams

namespace Rperf3

/-! ## Threads -/

/-- How far a stream thread has got in `emit_stream_finished`. -/
inductive ThreadStatus
  | running
  | reported (r : ClientStreamReceipt)
  | finished (r : ClientStreamReceipt)
  deriving DecidableEq

structure ClientThread where
  spec : StreamThread
  status : ThreadStatus
  deriving DecidableEq

namespace ClientThread

def start (spec : StreamThread) : ClientThread := ⟨spec, .running⟩

/-- The receipt the thread has sent, if it has. -/
def receipt (t : ClientThread) : Option ClientStreamReceipt :=
  match t.status with
  | .running => none
  | .reported r => some r
  | .finished r => some r

def isFinished (t : ClientThread) : Bool :=
  match t.status with
  | .finished _ => true
  | _ => false

theorem receipt_isSome_of_isFinished {t : ClientThread} (h : t.isFinished = true) :
    t.receipt.isSome = true := by
  obtain ⟨spec, status⟩ := t
  cases status with
  | running => cases h
  | reported r => rfl
  | finished r => rfl

end ClientThread

/-! ## The client -/

/-- Where the main thread is.  `poll` is `client_recv`; `exchange` the drain at the top of
    `exchange_results`; `drain` and `tryRecv` the rest of an iteration; `finalDrain` what follows
    the loop. -/
inductive ClientPc
  | poll | readPort | exchange | readResults | drain | tryRecv | finalDrain | done
  deriving DecidableEq, Repr

/-- A client with its connection: `inbox` is the control channel from the server, `outbox` the one
    to it. -/
structure Client where
  pc : ClientPc
  threads : List ClientThread
  receiptRx : List ClientStreamReceipt
  rxChannel : List Message
  receipts : List ClientStreamReceipt
  streamsFinished : Nat
  testEndSent : Bool
  isStarted : Bool
  isRunning : Bool
  dataPortOverride : Option Nat
  inbox : Fifo Item
  outbox : Fifo Item
  deriving DecidableEq

/-- The `StreamResults` of one receipt. -/
def streamResults (r : ClientStreamReceipt) : StreamResults where
  id := r.streamId
  bytes := r.bytesSent
  retransmits := r.retransmits
  jitter := r.jitterMs
  errors := r.lost
  packets := r.packets

/-- `build_client_results`. -/
def buildClientResults (receipts : List ClientStreamReceipt) (cpu : CpuUsage) : Results where
  cpuUtilTotal := cpu.totalPct
  cpuUtilUser := cpu.userPct
  cpuUtilSystem := cpu.systemPct
  senderHasRetransmits := if receipts.any (fun r => 0 < r.retransmits) then 1 else 0
  streams := receipts.map streamResults

namespace Client

/-- A connected client entering `client_loop`. -/
def initial : Client where
  pc := .poll
  threads := []
  receiptRx := []
  rxChannel := []
  receipts := []
  streamsFinished := 0
  testEndSent := false
  isStarted := false
  isRunning := false
  dataPortOverride := none
  inbox := .empty
  outbox := .empty

/-- Write one unit to the control channel. -/
def write (c : Client) (i : Item) : Client := { c with outbox := c.outbox.push i }

/-! ## One step of the main thread -/

/-- `handle_message_client`, up to the blocking read of the messages that have one.  The loop goes
    on with `drain`, or ends. -/
def handleMessage (cfg : Config) (token : Option String) (m : Message) (c : Client) : Client :=
  match m with
  | .paramExchange => { c.write (.options (sendOptions cfg token)) with pc := .drain }
  | .createStreams =>
    { c with
      threads := c.threads ++ (createStreams cfg c.dataPortOverride).map ClientThread.start
      pc := .drain }
  | .testStart => { c with isStarted := true, pc := .drain }
  | .testRunning => { c with isRunning := true, pc := .drain }
  | .exchangeResults => { c with pc := .exchange }
  | .displayResults => { c.write (.byte .iperfDone) with pc := .finalDrain }
  | .iperfDone | .accessDenied => { c with pc := .finalDrain }
  | .setDataPort => { c with pc := .readPort }
  -- "Received unknown control message."
  | _ => { c with pc := .drain }

/-- One turn of `drain_receipts`; with no receipt waiting the caller goes on with `after`. -/
def drainOr (c : Client) (after : Client) : Client :=
  match c.receiptRx with
  | [] => after
  | r :: rs => { c with receiptRx := rs, receipts := c.receipts ++ [r] }

/-- A stream has finished: count it, and announce the end of the test once all have. -/
def finishStream (cfg : Config) (c : Client) : Client :=
  let counted := { c with streamsFinished := c.streamsFinished + 1, pc := .poll }
  if expectedStreams cfg ≤ counted.streamsFinished ∧ ¬ counted.testEndSent then
    { counted.write (.byte .testEnd) with testEndSent := true }
  else counted

/-- One atomic step of the main thread; `cpu` is the CPU usage sampled for the results.  `none` is a
    blocking read that finds nothing, or a unit that is not of the kind read there. -/
def loopStep (cfg : Config) (token : Option String) (cpu : CpuUsage) (c : Client) : Option Client :=
  match c.pc with
  | .poll =>
    match c.inbox.pop with
    | none => some { c with pc := .drain }
    | some (.byte m, rest) => some (handleMessage cfg token m { c with inbox := rest })
    | some _ => none
  | .readPort =>
    match c.inbox.pop with
    | some (.port p, rest) =>
      some { c with inbox := rest, dataPortOverride := some p, pc := .drain }
    | _ => none
  | .exchange =>
    some (c.drainOr
      { c.write (.results (buildClientResults c.receipts cpu)) with pc := .readResults })
  | .readResults =>
    match c.inbox.pop with
    | some (.results _, rest) => some { c with inbox := rest, pc := .drain }
    | _ => none
  | .drain => some (c.drainOr { c with pc := .tryRecv })
  | .tryRecv =>
    match c.rxChannel with
    | [] => some { c with pc := .poll }
    | .testEnd :: rest => some (finishStream cfg { c with rxChannel := rest })
    -- "Unknown message from stream thread"
    | _ :: rest => some { c with rxChannel := rest, pc := .poll }
  | .finalDrain => some (c.drainOr { c with pc := .done })
  | .done => none

/-! ## The two sends of `emit_stream_finished` -/

/-- Thread `i` sends its receipt; the fields besides the stream id are the transfer's outcome. -/
def emitReceipt (i : Nat) (r : ClientStreamReceipt) (c : Client) : Option Client :=
  match c.threads[i]? with
  | some ⟨spec, .running⟩ =>
    let receipt := { r with streamId := spec.streamId }
    some { c with
      threads := c.threads.set i ⟨spec, .reported receipt⟩
      receiptRx := c.receiptRx ++ [receipt] }
  | _ => none

/-- Thread `i` sends `Message::TestEnd` and ends. -/
def emitEnd (i : Nat) (c : Client) : Option Client :=
  match c.threads[i]? with
  | some ⟨spec, .reported r⟩ =>
    some { c with
      threads := c.threads.set i ⟨spec, .finished r⟩
      rxChannel := c.rxChannel ++ [.testEnd] }
  | _ => none

/-- The client's actions: the main thread and the stream threads. -/
inductive Act
  | loop (cpu : CpuUsage)
  | emitReceipt (i : Nat) (r : ClientStreamReceipt)
  | emitEnd (i : Nat)

def act (cfg : Config) (token : Option String) : Act → Client → Option Client
  | .loop cpu, c => loopStep cfg token cpu c
  | .emitReceipt i r, c => emitReceipt i r c
  | .emitEnd i, c => emitEnd i c

/-! ## What an action can do -/

/-- The moves of a client, one constructor per effect.  Every proof about the client goes by cases
    on these. -/
inductive Moves (cfg : Config) (token : Option String) (c : Client) : Client → Prop
  | noMessage : c.pc = .poll → c.inbox.pending = [] → Moves cfg token c { c with pc := .drain }
  | message (m : Message) (rest : Fifo Item) :
      c.pc = .poll → c.inbox.pop = some (.byte m, rest) →
      Moves cfg token c (handleMessage cfg token m { c with inbox := rest })
  | gotPort (p : Nat) (rest : Fifo Item) :
      c.pc = .readPort → c.inbox.pop = some (.port p, rest) →
      Moves cfg token c { c with inbox := rest, dataPortOverride := some p, pc := .drain }
  | gotResults (r : Results) (rest : Fifo Item) :
      c.pc = .readResults → c.inbox.pop = some (.results r, rest) →
      Moves cfg token c { c with inbox := rest, pc := .drain }
  | drainOne (r : ClientStreamReceipt) (rs : List ClientStreamReceipt) :
      c.receiptRx = r :: rs →
      Moves cfg token c { c with receiptRx := rs, receipts := c.receipts ++ [r] }
  | sendResults (cpu : CpuUsage) :
      c.pc = .exchange → c.receiptRx = [] →
      Moves cfg token c
        { c.write (.results (buildClientResults c.receipts cpu)) with pc := .readResults }
  | drained : c.pc = .drain → Moves cfg token c { c with pc := .tryRecv }
  | noNotice : c.pc = .tryRecv → Moves cfg token c { c with pc := .poll }
  | notice (rest : List Message) :
      c.pc = .tryRecv → c.rxChannel = .testEnd :: rest →
      Moves cfg token c (finishStream cfg { c with rxChannel := rest })
  | unknownNotice (m : Message) (rest : List Message) :
      c.pc = .tryRecv → c.rxChannel = m :: rest → m ≠ .testEnd →
      Moves cfg token c { c with rxChannel := rest, pc := .poll }
  | exit : c.pc = .finalDrain → Moves cfg token c { c with pc := .done }
  | receipt (i : Nat) (spec : StreamThread) (r : ClientStreamReceipt) :
      c.threads[i]? = some ⟨spec, .running⟩ →
      Moves cfg token c
        { c with threads := c.threads.set i ⟨spec, .reported r⟩, receiptRx := c.receiptRx ++ [r] }
  | finish (i : Nat) (spec : StreamThread) (r : ClientStreamReceipt) :
      c.threads[i]? = some ⟨spec, .reported r⟩ →
      Moves cfg token c
        { c with
          threads := c.threads.set i ⟨spec, .finished r⟩, rxChannel := c.rxChannel ++ [.testEnd] }

variable {cfg : Config} {token : Option String} {c c' : Client}

/-! The step at each program counter. -/

theorem loopStep_message {cpu : CpuUsage} {m : Message} {rest : Fifo Item} (hpc : c.pc = .poll)
    (h : c.inbox.pop = some (.byte m, rest)) :
    loopStep cfg token cpu c = some (handleMessage cfg token m { c with inbox := rest }) := by
  simp only [loopStep, hpc, h]

theorem loopStep_port {cpu : CpuUsage} {p : Nat} {rest : Fifo Item} (hpc : c.pc = .readPort)
    (h : c.inbox.pop = some (.port p, rest)) :
    loopStep cfg token cpu c =
      some { c with inbox := rest, dataPortOverride := some p, pc := .drain } := by
  simp only [loopStep, hpc, h]

theorem loopStep_results {cpu : CpuUsage} {r : Results} {rest : Fifo Item}
    (hpc : c.pc = .readResults) (h : c.inbox.pop = some (.results r, rest)) :
    loopStep cfg token cpu c = some { c with inbox := rest, pc := .drain } := by
  simp only [loopStep, hpc, h]

theorem loopStep_exchange {cpu : CpuUsage} (hpc : c.pc = .exchange) :
    loopStep cfg token cpu c = some (c.drainOr
      { c.write (.results (buildClientResults c.receipts cpu)) with pc := .readResults }) := by
  simp only [loopStep, hpc]

theorem loopStep_drain {cpu : CpuUsage} (hpc : c.pc = .drain) :
    loopStep cfg token cpu c = some (c.drainOr { c with pc := .tryRecv }) := by
  simp only [loopStep, hpc]

theorem loopStep_finalDrain {cpu : CpuUsage} (hpc : c.pc = .finalDrain) :
    loopStep cfg token cpu c = some (c.drainOr { c with pc := .done }) := by
  simp only [loopStep, hpc]

theorem loopStep_noNotice {cpu : CpuUsage} (hpc : c.pc = .tryRecv) (h : c.rxChannel = []) :
    loopStep cfg token cpu c = some { c with pc := .poll } := by
  simp only [loopStep, hpc, h]

theorem loopStep_notice {cpu : CpuUsage} {rest : List Message} (hpc : c.pc = .tryRecv)
    (h : c.rxChannel = .testEnd :: rest) :
    loopStep cfg token cpu c = some (finishStream cfg { c with rxChannel := rest }) := by
  simp only [loopStep, hpc, h]

theorem loopStep_otherNotice {cpu : CpuUsage} {m : Message} {rest : List Message}
    (hpc : c.pc = .tryRecv) (h : c.rxChannel = m :: rest) (hm : m ≠ .testEnd) :
    loopStep cfg token cpu c = some { c with rxChannel := rest, pc := .poll } := by
  simp only [loopStep, hpc, h]

/-- A notice completes the count, or it does not. -/
theorem lastNotice_or_not (cfg : Config) (c : Client) :
    (expectedStreams cfg ≤ c.streamsFinished + 1 ∧ c.testEndSent = false) ∨
      (c.streamsFinished + 1 < expectedStreams cfg ∨ c.testEndSent = true) := by
  cases c.testEndSent with
  | true => exact Or.inr (Or.inr rfl)
  | false =>
    rcases Nat.lt_or_ge (c.streamsFinished + 1) (expectedStreams cfg) with h | h
    · exact Or.inr (Or.inl h)
    · exact Or.inl ⟨h, rfl⟩

/-- The notice that completes the count sends `TestEnd`. -/
theorem finishStream_last
    (h : expectedStreams cfg ≤ c.streamsFinished + 1 ∧ c.testEndSent = false) :
    finishStream cfg c =
      { c with
        pc := .poll, streamsFinished := c.streamsFinished + 1, testEndSent := true
        outbox := c.outbox.push (.byte .testEnd) } :=
  if_pos ⟨h.1, by rw [h.2]; exact Bool.false_ne_true⟩

theorem finishStream_more (h : c.streamsFinished + 1 < expectedStreams cfg ∨ c.testEndSent = true) :
    finishStream cfg c = { c with pc := .poll, streamsFinished := c.streamsFinished + 1 } := by
  refine if_neg fun hlast => ?_
  rcases h with h | h
  · exact absurd hlast.1 (Nat.not_le.mpr h)
  · exact hlast.2 h

/-! Handling a message or a notice leaves the inbox alone, and what has been read of the outbox. -/

theorem handleMessage_channels (cfg : Config) (token : Option String) (m : Message) (c : Client) :
    (handleMessage cfg token m c).inbox = c.inbox ∧
      (handleMessage cfg token m c).outbox.taken = c.outbox.taken := by
  cases m with
  | _ => exact ⟨rfl, rfl⟩

theorem finishStream_channels (cfg : Config) (c : Client) :
    (finishStream cfg c).inbox = c.inbox ∧
      (finishStream cfg c).outbox.taken = c.outbox.taken := by
  rcases lastNotice_or_not cfg c with h | h
  · rw [finishStream_last h]
    exact ⟨rfl, rfl⟩
  · rw [finishStream_more h]
    exact ⟨rfl, rfl⟩

/-- Draining takes a receipt, or finds none and goes on. -/
theorem drainOr_moves {after : Client}
    (hafter : c.receiptRx = [] → Moves cfg token c after) :
    Moves cfg token c (c.drainOr after) := by
  unfold drainOr
  split
  · rename_i hrx
    exact hafter hrx
  · rename_i r rs hrx
    exact .drainOne r rs hrx

theorem loopStep_moves {cpu : CpuUsage} (h : loopStep cfg token cpu c = some c') :
    Moves cfg token c c' := by
  unfold loopStep at h
  split at h
  · rename_i hpc
    split at h
    · rename_i hpop
      cases h
      exact .noMessage hpc (Fifo.pop_eq_none.mp hpop)
    · rename_i m rest hpop
      cases h
      exact .message m rest hpc hpop
    · cases h
  · rename_i hpc
    split at h
    · rename_i p rest hpop
      cases h
      exact .gotPort p rest hpc hpop
    · cases h
  · rename_i hpc
    cases h
    exact drainOr_moves fun hrx => .sendResults cpu hpc hrx
  · rename_i hpc
    split at h
    · rename_i r rest hpop
      cases h
      exact .gotResults r rest hpc hpop
    · cases h
  · rename_i hpc
    cases h
    exact drainOr_moves fun _ => .drained hpc
  · rename_i hpc
    split at h
    · cases h
      exact .noNotice hpc
    · rename_i rest hrx
      cases h
      exact .notice rest hpc hrx
    · rename_i m rest hm hrx
      cases h
      exact .unknownNotice m rest hpc hrx hm
  · rename_i hpc
    cases h
    exact drainOr_moves fun _ => .exit hpc
  · cases h

/-- **Every action of the client is one of its moves.** -/
theorem act_moves {a : Act} (h : act cfg token a c = some c') : Moves cfg token c c' := by
  cases a with
  | loop cpu => exact loopStep_moves h
  | emitReceipt i r =>
    simp only [act, emitReceipt] at h
    split at h
    · rename_i spec hi
      cases h
      exact .receipt i spec _ hi
    · cases h
  | emitEnd i =>
    simp only [act, emitEnd] at h
    split at h
    · rename_i spec r hi
      cases h
      exact .finish i spec r hi
    · cases h

end Client

end Rperf3
