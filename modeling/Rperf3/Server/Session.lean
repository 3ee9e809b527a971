/-
  The two session drivers of `server.rs` as PROGRAMS over the operations they perform.

  * `serveOneSession` — the single-session path (listener in hand);
  * `serveSessionFromChannel` — the concurrent path (control connection and data streams come from
    the accept loop).

  Both are transcribed in `do` notation over `Effect.Prog`: an operation is one call that touches a
  socket, a thread or the clock, and the world answers it with a value or an I/O error.  The drivers
  never see the world otherwise, so every fact about "what the server does" is a fact about these
  trees.  Code that the source repeats verbatim in both drivers (the option checks, the transfer
  branches, the reporting tail) is written once; what DIFFERS between them stays different.

  An error ends a driver (`?`); a panic does too, but is not an `io::Error`: the best-effort calls
  (`let _ = …`) swallow the former only.
-/
import Rperf3.Lib.Effect
import Rperf3.Common.Config
import Rperf3.Common.Cookie
import Rperf3.Server.Options

namespace Rperf3

open Effect Effect.Prog

/-! ## Operations -/

/-- A TCP connection: the peer's address and what the peer sends on it. -/
structure Conn where
  peer : SocketAddr
  incoming : Incoming
  deriving DecidableEq, Repr

/-- Socket tuning negotiated by the client. -/
structure TuningOpts where
  windowSize : Option Nat
  mss : Option Nat
  congestion : Option String
  tos : Option Nat
  deriving DecidableEq, Repr

/-- The threads a session starts. -/
inductive Job
  | tcpReader (streamId : Nat) (c : Conn) (omitWindow : Nat)
  | tcpSender (streamId : Nat) (c : Conn) (opts : ClientOptions)
  | tcpSendStreams (cs : List Conn) (opts : ClientOptions)
  | udpReceiver (addrs : List SocketAddr) (omitWindow : Nat)
  | udpSender (streamId : Nat) (peer : SocketAddr) (opts : ClientOptions)
  deriving DecidableEq

/-- The operations of a session.  `acceptControl` and `acceptData` are both `listener.accept()`,
    told apart by what the connection is accepted for.  `awaitByte stops` is the loop of
    `wait_for_test_end` and `finalize_test`: read control bytes, logging and skipping those not in
    `stops`. -/
inductive Op
  | acceptControl
  | acceptData
  | setTimeouts (c : Conn) (read : Option Nat)
  | recvCookie (c : Conn) (timeout : Option Nat)
  | send (i : Item)
  | recvOptions
  | recvResults
  | awaitByte (stops : List Message)
  | setReadTimeout (t : Option Nat)
  | listenerAddr
  | bindUdp (addr : SocketAddr) (timeout : Option Nat)
  | udpPort
  | setUdpTimeout (t : Option Nat)
  | cloneUdp
  | acceptUdpStreams (cookie : Bytes) (n : Nat)
  | recvDataStream (timeout : Option Nat)
  | cloneTcp (c : Conn)
  | tune (cs : List Conn) (t : TuningOpts)
  | spawn (j : Job)
  | join (j : Job)
  | raiseStop
  | cpuUsage (wall : Nat)

/-- What each operation returns when it succeeds. -/
def Op.Ok : Op → Type
  | .acceptControl => Conn
  | .acceptData => Conn
  | .recvCookie _ _ => Bytes
  | .recvOptions => ClientOptions
  | .recvResults => Results
  | .awaitByte _ => Message
  | .listenerAddr => SocketAddr
  | .udpPort => Nat
  | .acceptUdpStreams _ _ => List SocketAddr
  | .recvDataStream _ => Conn
  | .cloneTcp _ => Conn
  | .join _ => List StreamReceipt
  | .cpuUsage _ => CpuUsage
  | _ => Unit

/-- Why a session ends early. -/
inductive Stop
  | io (e : IoError)
  | panic (msg : String)
  deriving DecidableEq

/-- A session program with results in `α`. -/
abbrev Session (α : Type) := Prog Op Op.Ok Stop α

/-- One operation. -/
def call (o : Op) : Session o.Ok := perform o

/-- Run `p` and hand its I/O error on as a value; a panic still ends the session. -/
def attempt {α : Type} (p : Session α) : Session (Except IoError α) :=
  p.onResult fun
    | .ok a => pure (.ok a)
    | .error (.io e) => pure (.error e)
    | .error (.panic m) => fail (.panic m)

/-- `let _ = p`. -/
def ignore {α : Type} (p : Session α) : Session Unit := do
  let _ ← attempt p
  pure ()

/-- `p.expect(msg)`. -/
def expect {α : Type} (msg : String) (p : Session α) : Session α :=
  p.onResult fun
    | .ok a => pure a
    | .error (.io e) => fail (.panic (msg ++ ": " ++ e.msg))
    | .error (.panic m) => fail (.panic m)

/-! The operations with the types they return. -/

def acceptControlConn : Session Conn := call .acceptControl

def acceptDataConn : Session Conn := call .acceptData

def setTimeouts (c : Conn) (read : Option Nat) : Session Unit := call (.setTimeouts c read)

def readCookie (c : Conn) (timeout : Option Nat) : Session Bytes := call (.recvCookie c timeout)

def sendItem (i : Item) : Session Unit := call (.send i)

def recvOptions : Session ClientOptions := call .recvOptions

def recvResults : Session Results := call .recvResults

def awaitByte (stops : List Message) : Session Message := call (.awaitByte stops)

def setReadTimeout (t : Option Nat) : Session Unit := call (.setReadTimeout t)

def listenerAddr : Session SocketAddr := call .listenerAddr

def bindUdp (addr : SocketAddr) (timeout : Option Nat) : Session Unit :=
  call (.bindUdp addr timeout)

def udpPort : Session Nat := call .udpPort

def setUdpTimeout (t : Option Nat) : Session Unit := call (.setUdpTimeout t)

def cloneUdp : Session Unit := call .cloneUdp

def collectUdpStreams (cookie : Bytes) (n : Nat) : Session (List SocketAddr) :=
  call (.acceptUdpStreams cookie n)

def recvDataStream (timeout : Option Nat) : Session Conn := call (.recvDataStream timeout)

def cloneTcp (c : Conn) : Session Conn := call (.cloneTcp c)

def applyTuning (cs : List Conn) (t : TuningOpts) : Session Unit := call (.tune cs t)

def spawn (j : Job) : Session Unit := call (.spawn j)

def join (j : Job) : Session (List StreamReceipt) := call (.join j)

def raiseStop : Session Unit := call .raiseStop

def cpuUsage (wall : Nat) : Session CpuUsage := call (.cpuUsage wall)

/-- `send_control_byte`. -/
def sendByte (m : Message) : Session Unit := sendItem (.byte m)

/-! ## Control-channel helpers -/

def negotiateOptions : Session ClientOptions := do
  sendByte .paramExchange
  recvOptions

def sendTestStartRunning : Session Unit := do
  sendByte .testStart
  sendByte .testRunning

def waitForTestEnd : Session Unit := do
  let _ ← awaitByte [.testEnd]
  pure ()

def finalizeTest : Session Unit := do
  sendByte .displayResults
  let _ ← awaitByte [.iperfDone, .clientTerminate]
  pure ()

/-- `build_server_results`: stream ids count from one in receipt order. -/
def buildServerResults (receipts : List StreamReceipt) (cpu : CpuUsage) : Results where
  cpuUtilTotal := cpu.totalPct
  cpuUtilUser := cpu.userPct
  cpuUtilSystem := cpu.systemPct
  senderHasRetransmits := 0
  streams := receipts.zipIdx.map fun (r, i) =>
    { id := i + 1, bytes := r.bytes, retransmits := 0, jitter := r.jitterMs, errors := r.lost,
      packets := r.packets }

/-- `exchange_results`: ours first, then a best-effort read of the client's. -/
def exchangeResults (receipts : List StreamReceipt) (cpu : CpuUsage) : Session Unit := do
  sendByte .exchangeResults
  ignore (sendItem (.results (buildServerResults receipts cpu)))
  match ← attempt recvResults with
  | .ok _ => pure ()
  | .error e => if isPeerClosed e then pure () else fail (.io ⟨e.kind, e.msg⟩)

/-! ## Admission -/

/-- The result of `check_auth_inner` for the options received, at the clocks, files and cache state
    of this session; `none` when no key and user file are configured. -/
abbrev AuthConfig := Option (ClientOptions → Except String Unit)

/-- `check_auth`: one uniform reply, whatever the reason. -/
def checkAuth (auth : AuthConfig) (opts : ClientOptions) : Session Unit :=
  match auth with
  | none => pure ()
  | some inner =>
    match inner opts with
    | .ok () => pure ()
    | .error _ => do
      ignore (sendByte .accessDenied)
      fail (.io ⟨.permissionDenied, "authentication failed"⟩)

/-- The opening lines of both drivers: negotiate, validate, authenticate. -/
def admitOptions (auth : AuthConfig) : Session ClientOptions := do
  let opts ← negotiateOptions
  match validateOptions opts with
  | .error e => do
    ignore (sendByte .accessDenied)
    fail (.io e)
  | .ok () => do
    checkAuth auth opts
    pure opts

/-! ## Collecting data streams -/

/-- The loop of `accept_streams_via_listener` from stream `i` on. -/
def acceptStreamsLoop (expectedCookie : Bytes) (timeout : Option Nat) :
    Nat → Nat → Session (List Conn)
  | _, 0 => pure []
  | i, n + 1 => do
    let data ← acceptDataConn
    setTimeouts data timeout
    let got ← readCookie data timeout
    if got ≠ expectedCookie then
      fail (.io ⟨.invalidData, "stream " ++ toString i ++ " cookie mismatch"⟩)
    else do
      setTimeouts data none
      let rest ← acceptStreamsLoop expectedCookie timeout (i + 1) n
      pure (data :: rest)

def acceptStreamsViaListener (expectedCookie : Bytes) (n : Nat) (timeout : Option Nat) :
    Session (List Conn) := do
  sendByte .createStreams
  acceptStreamsLoop expectedCookie timeout 0 n

/-- `accept_streams_from_channel`: one `recv` (with or without timeout) per stream. -/
def acceptStreamsFromChannel (timeout : Option Nat) : Nat → Session (List Conn)
  | 0 => pure []
  | n + 1 => do
    let stream ← recvDataStream timeout
    let rest ← acceptStreamsFromChannel timeout n
    pure (stream :: rest)

/-! ## Transfer threads -/

def spawnAll : List Job → Session Unit
  | [] => pure ()
  | j :: js => do
    spawn j
    spawnAll js

/-- `handle.join().unwrap_or(default)`. -/
def joinOr (default : List StreamReceipt) (j : Job) : Session (List StreamReceipt) := do
  match ← attempt (join j) with
  | .ok rs => pure rs
  | .error _ => pure default

/-- `join_stream_totals`: a panicked thread counts as an empty receipt. -/
def joinStreamTotals : List Job → Session (List StreamReceipt)
  | [] => pure []
  | j :: js => do
    let r ← joinOr [StreamReceipt.empty] j
    let rs ← joinStreamTotals js
    pure (r ++ rs)

/-- The reader threads of `spawn_stream_readers`. -/
def readerJobs (cs : List Conn) (omitWindow : Nat) : List Job :=
  cs.zipIdx.map fun (c, i) => .tcpReader (i + 1) c omitWindow

/-- The threads of `run_tcp_send_streams`. -/
def tcpSenderJobs (cs : List Conn) (opts : ClientOptions) : List Job :=
  cs.zipIdx.map fun (c, i) => .tcpSender (i + 1) c opts

def runTcpSendStreams (cs : List Conn) (opts : ClientOptions) : Session (List StreamReceipt) := do
  spawnAll (tcpSenderJobs cs opts)
  joinStreamTotals (tcpSenderJobs cs opts)

/-- The threads of `run_udp_send_streams`. -/
def udpSenderJobs (addrs : List SocketAddr) (opts : ClientOptions) : List Job :=
  addrs.zipIdx.map fun (a, i) => .udpSender (i + 1) a opts

/-- Every UDP sender gets its own clone of the socket; a failed clone panics. -/
def spawnUdpSenders : List Job → Session Unit
  | [] => pure ()
  | j :: js => do
    expect "udp try_clone" cloneUdp
    spawn j
    spawnUdpSenders js

def runUdpSendStreams (addrs : List SocketAddr) (opts : ClientOptions) :
    Session (List StreamReceipt) := do
  spawnUdpSenders (udpSenderJobs addrs opts)
  joinStreamTotals (udpSenderJobs addrs opts)

/-- Split every stream into a send half and a receive half. -/
def cloneAll : List Conn → Session (List Conn)
  | [] => pure []
  | c :: cs => do
    let cloned ← cloneTcp c
    let rest ← cloneAll cs
    pure (cloned :: rest)

/-! ## Transfer branches that both drivers share -/

def omitWindow (opts : ClientOptions) : Nat := fromSecs opts.omitSecs

/-- The control read timeout during the transfer. -/
def runTimeout (timeout : Option Nat) (opts : ClientOptions) : Option Nat :=
  timeout.map (· + fromSecs (opts.time + opts.omitSecs))

def tuning (opts : ClientOptions) : TuningOpts :=
  ⟨opts.windowSize, opts.mss, opts.congestion, opts.tos⟩

/-- Client to server: readers run until `TestEnd`. -/
def tcpForward (cs : List Conn) (opts : ClientOptions) : Session (List StreamReceipt) := do
  spawnAll (readerJobs cs (omitWindow opts))
  waitForTestEnd
  joinStreamTotals (readerJobs cs (omitWindow opts))

/-- Server to client: all senders are joined, then a best-effort wait for `TestEnd`. -/
def tcpReverse (cs : List Conn) (opts : ClientOptions) : Session (List StreamReceipt) := do
  let r ← runTcpSendStreams cs opts
  ignore waitForTestEnd
  pure r

/-- Both ways on the same streams. -/
def tcpBidirectional (cs : List Conn) (opts : ClientOptions) : Session (List StreamReceipt) := do
  let sendHalves ← cloneAll cs
  spawn (.tcpSendStreams sendHalves opts)
  spawnAll (readerJobs cs (omitWindow opts))
  waitForTestEnd
  let received ← joinStreamTotals (readerJobs cs (omitWindow opts))
  let sent ← joinOr [] (.tcpSendStreams sendHalves opts)
  pure (received ++ sent)

def udpForward (addrs : List SocketAddr) (opts : ClientOptions) : Session (List StreamReceipt) := do
  spawn (.udpReceiver addrs (omitWindow opts))
  waitForTestEnd
  raiseStop
  joinOr [] (.udpReceiver addrs (omitWindow opts))

def udpBidirectional (addrs : List SocketAddr) (opts : ClientOptions) :
    Session (List StreamReceipt) := do
  cloneUdp
  spawn (.udpReceiver addrs (omitWindow opts))
  let sent ← runUdpSendStreams addrs opts
  ignore waitForTestEnd
  raiseStop
  let received ← joinOr [] (.udpReceiver addrs (omitWindow opts))
  pure (sent ++ received)

/-- `if c { let _ = wait_for_test_end(control); }`. -/
def waitForTestEndIf (c : Bool) : Session Unit :=
  if c then ignore waitForTestEnd else pure ()

/-! ## Reporting -/

/-- `StreamReceipt::bytes_measured`. -/
def StreamReceipt.bytesMeasured (r : StreamReceipt) : Nat := r.bytes - r.bytesOmit

/-- From the earliest of the first instants to the latest of the last ones; zero when either is
    missing or they are out of order. -/
def spanOf (firsts lasts : List Nat) : Nat :=
  match firsts.min?, lasts.max? with
  | some f, some l => if f ≤ l then l - f else 0
  | _, _ => 0

def measuredDuration (rs : List StreamReceipt) : Nat :=
  spanOf (rs.filterMap StreamReceipt.firstByteAt) (rs.filterMap StreamReceipt.lastByteAt)

def measuredSteadyState (rs : List StreamReceipt) : Nat :=
  spanOf (rs.filterMap StreamReceipt.firstMeasuredAt) (rs.filterMap StreamReceipt.lastByteAt)

/-- The window the CPU share refers to. -/
def wallOf (rs : List StreamReceipt) : Nat :=
  if measuredSteadyState rs ≠ 0 then measuredSteadyState rs else measuredDuration rs

/-- Propagate an error unless it only says that the peer has closed the control channel. -/
def tolerateClosed (p : Session Unit) : Session Unit := do
  match ← attempt p with
  | .ok () => pure ()
  | .error e => if isPeerClosed e then pure () else fail (.io e)

/-- The closing lines of both drivers; the value is the total number of bytes. -/
def reportResults (timeout : Option Nat) (receipts : List StreamReceipt) : Session Nat := do
  setReadTimeout timeout
  let cpu ← cpuUsage (wallOf receipts)
  tolerateClosed (exchangeResults receipts cpu)
  tolerateClosed finalizeTest
  pure (receipts.map StreamReceipt.bytes).sum

/-! ## The single-session driver -/

/-- `accept_control`. -/
def acceptControl (timeout : Option Nat) : Session Bytes := do
  let control ← acceptControlConn
  setTimeouts control timeout
  readCookie control timeout

def runTcpBranch (cookie : Bytes) (opts : ClientOptions) (timeout : Option Nat) :
    Session (List StreamReceipt) := do
  let streams ← acceptStreamsViaListener cookie opts.parallel timeout
  ignore (applyTuning streams (tuning opts))
  sendTestStartRunning
  setReadTimeout (runTimeout timeout opts)
  if opts.bidirectional then tcpBidirectional streams opts
  else if opts.reverse then tcpReverse streams opts
  else tcpForward streams opts

def runUdpBranch (cookie : Bytes) (opts : ClientOptions) (timeout : Option Nat) :
    Session (List StreamReceipt) := do
  let local_ ← listenerAddr
  bindUdp local_ timeout
  sendByte .createStreams
  let addrs ← collectUdpStreams cookie opts.parallel
  setUdpTimeout none
  sendTestStartRunning
  setReadTimeout (runTimeout timeout opts)
  let receipts ←
    if opts.bidirectional then udpBidirectional addrs opts
    else if opts.reverse then runUdpSendStreams addrs opts
    else udpForward addrs opts
  waitForTestEndIf opts.reverse
  pure receipts

/-! ## The concurrent driver -/

/-- The address `0.0.0.0:0`: any interface, an ephemeral port. -/
def anyAddr : SocketAddr := ⟨0, 0⟩

/-- The UDP half of `serve_session_from_channel`.  Its reverse branch waits for `TestEnd` INSIDE the
    branch, and the common wait for reverse tests follows after it. -/
def channelUdpBranch (cookie : Bytes) (opts : ClientOptions) (timeout : Option Nat) :
    Session (List StreamReceipt) := do
  bindUdp anyAddr timeout
  let dataPort ← udpPort
  sendByte .setDataPort
  sendItem (.port dataPort)
  sendByte .createStreams
  let addrs ← collectUdpStreams cookie opts.parallel
  setUdpTimeout none
  sendTestStartRunning
  setReadTimeout (runTimeout timeout opts)
  let receipts ←
    if opts.bidirectional then udpBidirectional addrs opts
    else if opts.reverse then do
      let r ← runUdpSendStreams addrs opts
      ignore waitForTestEnd
      pure r
    else udpForward addrs opts
  waitForTestEndIf opts.reverse
  pure receipts

/-- The TCP half; here `reverse` is tested before `bidirectional`. -/
def channelTcpBranch (opts : ClientOptions) (timeout : Option Nat) :
    Session (List StreamReceipt) := do
  sendByte .createStreams
  let streams ← acceptStreamsFromChannel timeout opts.parallel
  ignore (applyTuning streams (tuning opts))
  sendTestStartRunning
  setReadTimeout (runTimeout timeout opts)
  if opts.reverse then tcpReverse streams opts
  else if opts.bidirectional then tcpBidirectional streams opts
  else tcpForward streams opts

/-! ## The drivers -/

/-- The two ways into a session. -/
inductive Entry
  | listener
  | channel
  deriving DecidableEq, Repr

/-- The transfer of an admitted session. -/
def transfer (entry : Entry) (cookie : Bytes) (opts : ClientOptions) (timeout : Option Nat) :
    Session (List StreamReceipt) :=
  match entry with
  | .listener =>
    if opts.udp then runUdpBranch cookie opts timeout else runTcpBranch cookie opts timeout
  | .channel =>
    if opts.udp then channelUdpBranch cookie opts timeout else channelTcpBranch opts timeout

/-- What both drivers do once the session's cookie is known. -/
def sessionBody (entry : Entry) (auth : AuthConfig) (timeout : Option Nat) (cookie : Bytes) :
    Session Nat := do
  let opts ← admitOptions auth
  let receipts ← transfer entry cookie opts timeout
  reportResults timeout receipts

/-- `serve_one_session`. -/
def serveOneSession (auth : AuthConfig) (timeout : Option Nat) : Session Nat := do
  let cookie ← acceptControl timeout
  sessionBody .listener auth timeout cookie

/-- `serve_session_from_channel`; the accept loop has read the cookie already. -/
def serveSessionFromChannel (auth : AuthConfig) (cookie : Bytes) (timeout : Option Nat) :
    Session Nat :=
  sessionBody .channel auth timeout cookie

/-! ## The operations a program uses -/

section Uses

open Discipline

variable {α : Type} {N : Op → Prop}

theorem uses_attempt {p : Session α} (hp : Uses N p) : Uses N (attempt p) := by
  refine uses_onResult hp fun r => ?_
  rcases r with (e | msg) | a
  · trivial
  · trivial
  · trivial

theorem uses_ignore {p : Session α} (hp : Uses N p) : Uses N (ignore p) :=
  uses_bind (uses_attempt hp) fun _ => trivial

theorem uses_sendByte {m : Message} (h : N (.send (.byte m))) : Uses N (sendByte m) :=
  ⟨h, fun _ => trivial⟩

/-- Admission reads the options and writes single bytes. -/
theorem uses_admitOptions (hsend : ∀ m, N (.send (.byte m))) (hrecv : N .recvOptions)
    (auth : AuthConfig) : Uses N (admitOptions auth) := by
  have hdenied : Uses N (ignore (sendByte .accessDenied)) := uses_ignore (uses_sendByte (hsend _))
  refine uses_bind ?_ fun opts => ?_
  · exact uses_bind (uses_sendByte (hsend _)) fun _ => ⟨hrecv, fun _ => trivial⟩
  · split
    · exact uses_bind hdenied fun _ => trivial
    · refine uses_bind ?_ fun _ => trivial
      unfold checkAuth
      split
      · trivial
      split
      · trivial
      · exact uses_bind hdenied fun _ => trivial

/-- Collecting streams accepts connections, sets their timeouts and reads their cookies. -/
theorem uses_acceptStreamsLoop (haccept : N .acceptData) (htimeouts : ∀ c t, N (.setTimeouts c t))
    (hcookie : ∀ c t, N (.recvCookie c t)) (cookie : Bytes) (timeout : Option Nat) (i n : Nat) :
    Uses N (acceptStreamsLoop cookie timeout i n) := by
  induction n generalizing i with
  | zero => trivial
  | succ n ih =>
    refine uses_bind ⟨haccept, fun _ => trivial⟩ fun data => ?_
    refine uses_bind ⟨htimeouts _ _, fun _ => trivial⟩ fun _ => ?_
    refine uses_bind ⟨hcookie _ _, fun _ => trivial⟩ fun got => ?_
    split
    · trivial
    · refine uses_bind ⟨htimeouts _ _, fun _ => trivial⟩ fun _ => ?_
      exact uses_bind (ih (i + 1)) fun _ => trivial

end Uses

end Rperf3
