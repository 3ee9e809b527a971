/-
  `client.rs` as a PROGRAM over the calls it makes: `client_loop`, `client_recv`,
  `handle_message_client`, `exchange_results`.

  `Client` (the item-level client of `Client/Loop`) is one party of a protocol; here the same code
  is transcribed with its error paths, which is where the two differ (`Client/Refinement` shows that
  they agree otherwise): every failure of a control read or write is logged and the loop goes on.
  The number given to `clientLoop` bounds its iterations; `none` says that the loop was still
  running after them.
-/
import Rperf3.Lib.Effect
import Rperf3.Client.Loop

namespace Rperf3

open Effect Effect.Prog

/-! ## Operations -/

/-- The calls of the main thread.  `recvByte`, `recvPort` and `recvResults` read the control channel
    with `recv_control_byte`, `recv_u16_be` and `recv_framed_json`; `drainReceipts` takes all
    receipts that are waiting, `tryRecv` at most one end-of-stream notice. -/
inductive ClientOp
  | recvByte
  | recvPort
  | recvResults
  | send (i : Item)
  | setNonblocking (on : Bool)
  | startStreams (threads : List StreamThread)
  | drainReceipts
  | tryRecv
  | cpuUsage (wall : Nat)

/-- What each call returns when it succeeds. -/
def ClientOp.Ok : ClientOp → Type
  | .recvByte => Message
  | .recvPort => Nat
  | .recvResults => Results
  | .drainReceipts => List ClientStreamReceipt
  | .tryRecv => Option Message
  | .cpuUsage _ => CpuUsage
  | _ => Unit

abbrev ClientM (α : Type) := Prog ClientOp ClientOp.Ok IoError α

namespace ClientM

/-- One call, with its error as a value. -/
def attempt (o : ClientOp) : ClientM (Except IoError o.Ok) := op o fun r => pure r

/-- One call whose error is at most logged. -/
def logged (o : ClientOp) : ClientM Unit := do
  let _ ← attempt o
  pure ()

/-- One call that cannot fail. -/
def call (o : ClientOp) : ClientM o.Ok := perform o

def drain : ClientM (List ClientStreamReceipt) := call .drainReceipts

def tryRecv : ClientM (Option Message) := call .tryRecv

def cpuUsage (wall : Nat) : ClientM CpuUsage := call (.cpuUsage wall)

def startStreams (threads : List StreamThread) : ClientM Unit := call (.startStreams threads)

end ClientM

/-! ## The test -/

/-- The fields of `Test` that the loop uses; `connected` says that there is a control channel. -/
structure Test where
  connected : Bool
  receipts : List ClientStreamReceipt
  isStarted : Bool
  isRunning : Bool
  dataPortOverride : Option Nat

/-- `client_session_duration`. -/
def clientSessionDuration (receipts : List ClientStreamReceipt) : Option Nat :=
  match (receipts.filterMap ClientStreamReceipt.firstSendAt).min?,
    (receipts.filterMap ClientStreamReceipt.lastSendAt).max? with
  | some first, some last => if first ≤ last then some (last - first) else none
  | _, _ => none

/-- `client_measured_duration`. -/
def clientMeasuredDuration (receipts : List ClientStreamReceipt) : Nat :=
  match (receipts.filterMap ClientStreamReceipt.firstMeasuredAt).min?,
    (receipts.filterMap ClientStreamReceipt.lastSendAt).max? with
  | some first, some last => if first ≤ last then last - first else 0
  | _, _ => 0

namespace Test

open ClientM

/-- A test whose control channel `connect` has opened, or not. -/
def new (connected : Bool) : Test := ⟨connected, [], false, false, none⟩

def drainReceipts (t : Test) : ClientM Test := do
  let receipts ← drain
  pure { t with receipts := t.receipts ++ receipts }

/-- Write to the control channel, if there is one. -/
def sendLogged (t : Test) (i : Item) : ClientM Unit :=
  if t.connected then logged (.send i) else pure ()

/-- The second half of `exchange_results`: our results, then the server's.  Unless ours have been
    written completely, the server's are not read. -/
def swapResults (t : Test) (ours : Results) : ClientM Test :=
  if !t.connected then pure t
  else do
    match ← attempt (.send (.results ours)) with
    | .error _ => pure t
    | .ok _ =>
      match ← attempt (.setNonblocking false) with
      | .error _ => pure t
      | .ok _ => do
        let _ ← attempt .recvResults
        logged (.setNonblocking true)
        pure t

/-- `exchange_results`. -/
def exchangeResults (t : Test) : ClientM Test := do
  let t ← t.drainReceipts
  let cpu ← cpuUsage ((clientSessionDuration t.receipts).getD 0)
  t.swapResults (buildClientResults t.receipts cpu)

/-- The `SetDataPort` branch: the payload is read whether or not the switch to blocking worked. -/
def readDataPort (t : Test) : ClientM Test :=
  if !t.connected then pure t
  else do
    logged (.setNonblocking false)
    let port ← attempt .recvPort
    logged (.setNonblocking true)
    match port with
    | .ok p => pure { t with dataPortOverride := some p }
    | .error _ => pure t

/-- `handle_message_client`; the flag says that the loop is done.  `token` is what `send_options`
    builds; asked twice, the source builds a second one, with a new timestamp. -/
def handleMessageClient (cfg : Config) (token : Option String) (m : Message) (t : Test) :
    ClientM (Bool × Test) :=
  match m with
  | .paramExchange => do
    t.sendLogged (.options (sendOptions cfg token))
    pure (false, t)
  | .createStreams => do
    startStreams (createStreams cfg t.dataPortOverride)
    pure (false, t)
  | .testStart => pure (false, { t with isStarted := true })
  | .testRunning => pure (false, { t with isRunning := true })
  | .exchangeResults => do
    let t ← t.exchangeResults
    pure (false, t)
  | .displayResults => do
    t.sendLogged (.byte .iperfDone)
    pure (true, t)
  | .iperfDone | .accessDenied => pure (true, t)
  | .setDataPort => do
    let t ← t.readDataPort
    pure (false, t)
  -- "Received unknown control message."
  | _ => pure (false, t)

/-- `client_recv`: `WouldBlock` and every other error alike let the loop go on. -/
def clientRecv (cfg : Config) (token : Option String) (t : Test) : ClientM (Bool × Test) :=
  if !t.connected then pure (true, t)
  else do
    match ← attempt .recvByte with
    | .ok m => t.handleMessageClient cfg token m
    | .error _ => pure (false, t)

/-- The notice part of an iteration: the new count, and whether `TestEnd` has been sent. -/
def countNotice (cfg : Config) (t : Test) (streamsFinished : Nat) (testEndSent : Bool) :
    Option Message → ClientM (Nat × Bool)
  | some .testEnd =>
    if expectedStreams cfg ≤ streamsFinished + 1 ∧ ¬ testEndSent ∧ t.connected then do
      logged (.send (.byte .testEnd))
      pure (streamsFinished + 1, true)
    else pure (streamsFinished + 1, testEndSent)
  -- "Unknown message from stream thread", or none at all
  | _ => pure (streamsFinished, testEndSent)

/-- `client_loop`, at most `n` iterations of it. -/
def clientLoop (cfg : Config) (token : Option String) :
    (n : Nat) → Test → Nat → Bool → ClientM (Option Test)
  | 0, _, _, _ => pure none
  | n + 1, t, streamsFinished, testEndSent => do
    let (isDone, t) ← t.clientRecv cfg token
    if isDone then do
      let t ← t.drainReceipts
      pure (some t)
    else do
      let t ← t.drainReceipts
      let notice ← tryRecv
      let (streamsFinished, testEndSent) ← t.countNotice cfg streamsFinished testEndSent notice
      clientLoop cfg token n t streamsFinished testEndSent

end Test

end Rperf3
