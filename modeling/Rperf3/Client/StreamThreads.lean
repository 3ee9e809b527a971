/-
  THE FOUR STREAM THREADS of `common/stream.rs`, from `spawn` to their last message.

  A thread is over when it has returned or died of a panic; what it has put on its two channels by
  then is a list of `Report`s.  The client ends its test when it has counted one `TestEnd` per
  thread, so a thread that dies without a word leaves it waiting.

  1. The threads: what can fail before the data loop, the loop, `emit_stream_finished`.
  2. They compute the receipts of `startTcp`, `startUdp` and `startUdpRecv`.
  3. Every way out but one passes `emit_stream_finished` once: a block limit makes
     `Stream::start` divide by the block length, which the command line lets be zero.
-/
import Rperf3.Cli
import Rperf3.Client.Streams
import Rperf3.Transfer.Untimed

namespace Rperf3

open Turns ShortIO

/-- What a thread sends, on the receipt channel or on the message channel. -/
inductive Report
  | receipt (r : ClientStreamReceipt)
  | message (m : Message)
  deriving DecidableEq

/-- `emit_stream_finished`. -/
def emitStreamFinished (r : ClientStreamReceipt) : List Report := [.receipt r, .message .testEnd]

/-- What a thread meets: the results of its calls outside the loop, when its timer starts and how
    long after that the loop does, the turns of the loop, the kernel's retransmit count. -/
structure ThreadEnv where
  bound : Bool
  connected : Bool
  cookieSend : Answer IoError
  blocking : Bool
  timer : Nat
  setup : Nat
  turns : List Turn
  retransmits : Nat

/-- The reports of a thread whose loop is over; `last` is what it still does to its receipt.  A
    panic unwinds past `emit_stream_finished`. -/
def finish (last : ClientStreamReceipt → ClientStreamReceipt) :
    Turns.Ending ClientStreamReceipt → List Report
  | .left r => emitStreamFinished (last r)
  | .panicked => []

namespace Stream

variable (cfg : Config) (cookie : Bytes) (streamId : Nat) (env : ThreadEnv)

/-- The data loop of a thread, down to the receipt. -/
def transfer (L : DataLoop ClientStreamReceipt) : Option (Turns.Ending ClientStreamReceipt) :=
  (L.run env.timer env.setup env.turns).map receiptOf

/-- The reports of the thread of `Stream::start`, `none` while it runs. -/
def start : Option (List Report) :=
  match connect env.connected env.cookieSend cookie with
  | none => some (emitStreamFinished (.empty streamId))
  | some _ =>
    if !env.blocking then some (emitStreamFinished (.empty streamId))
    else
      (transfer env (startLoop cfg streamId)).map
        (finish fun r => { r with retransmits := env.retransmits })

/-- The reports of the thread of `Stream::start_udp`. -/
def startUdp : Option (List Report) :=
  if !env.bound then some (emitStreamFinished (.empty streamId))
  else if !env.connected then some (emitStreamFinished (.empty streamId))
  else
    match env.cookieSend with
    | .fails _ => some (emitStreamFinished (.empty streamId))
    | .accepts _ =>
      if cfg.len < udpHeaderLen then some (emitStreamFinished (.empty streamId))
      else (transfer env (startUdpLoop cfg streamId)).map (finish id)

/-- The reports of the thread of `Stream::start_recv`. -/
def startRecv : Option (List Report) :=
  match connect env.connected env.cookieSend cookie with
  | none => some (emitStreamFinished (.empty streamId))
  | some _ =>
    if !env.blocking then some (emitStreamFinished (.empty streamId))
    else (transfer env (startRecvLoop cfg streamId)).map (finish id)

/-- The reports of the thread of `Stream::start_udp_recv`, which ignores how its cookie fares. -/
def startUdpRecv : Option (List Report) :=
  if !env.bound then some (emitStreamFinished (.empty streamId))
  else if !env.connected then some (emitStreamFinished (.empty streamId))
  else (transfer env (startUdpRecvLoop cfg streamId)).map (finish id)

end Stream

/-- The reports of a thread that `create_streams` has started. -/
def StreamThread.run (cfg : Config) (cookie : Bytes) (thread : StreamThread) (env : ThreadEnv) :
    Option (List Report) :=
  match thread.kind with
  | .tcpSend => Stream.start cfg cookie thread.streamId env
  | .udpSend => Stream.startUdp cfg thread.streamId env
  | .tcpRecv => Stream.startRecv cfg cookie thread.streamId env
  | .udpRecv => Stream.startUdpRecv cfg thread.streamId env

/-! ## The receipts are those of the threads without a clock -/

section Untimed

variable (cfg : Config) (cookie : Bytes) (streamId : Nat) (env : ThreadEnv)

/-- The turns of a thread's loop, as the loop without a clock sees them. -/
def ThreadEnv.seenBy {υ : Type} (L : DataLoop ClientStreamReceipt)
    (view : Turn → LoopState ClientStreamReceipt → υ) : List υ :=
  seen L.turn view env.turns (L.start env.timer env.setup)

/-- What a TCP sender meets. -/
def ThreadEnv.tcpEnv : TcpEnv where
  opened := env.connected
  cookieSend := env.cookieSend
  blocking := env.blocking
  turns := env.seenBy (startLoop cfg streamId) (startView cfg streamId)
  retransmits := env.retransmits

/-- What a UDP sender meets; its sentinel goes nowhere. -/
def ThreadEnv.udpEnv : UdpEnv where
  bound := env.bound
  connected := env.connected
  cookieSent :=
    match env.cookieSend with
    | .accepts _ => true
    | .fails _ => false
  turns := env.seenBy (startUdpLoop cfg streamId) (udpView (startUdpLoop cfg streamId))
  sentinelSec := 0
  sentinelUsec := 0
  sentinelSent := false

/-- What a UDP receiver meets. -/
def ThreadEnv.udpRecvEnv : UdpRecvEnv where
  bound := env.bound
  connected := env.connected
  turns := env.seenBy (startUdpRecvLoop cfg streamId) (udpRecvView cfg streamId)

/-- The reports of a thread without a clock. -/
def ThreadEnd.reports : ThreadEnd → List Report
  | reported r => emitStreamFinished r
  | panicked => []

/-- **A TCP sender reports as `startTcp` ends.** -/
theorem Stream.start_eq :
    Stream.start cfg cookie streamId env =
      (startTcp cfg cookie streamId (env.tcpEnv cfg streamId)).map fun run =>
        run.outcome.reports := by
  have hseen := tcpSendLoop_seen cfg streamId env.turns
    ((startLoop cfg streamId).start env.timer env.setup) rfl
  rcases env with ⟨bound, connected, cookieSend, blocking, timer, setup, turns, retransmits⟩
  unfold Stream.start startTcp ThreadEnv.tcpEnv
  dsimp only
  cases connect connected cookieSend cookie with
  | none => rfl
  | some written =>
    cases blocking with
    | false => rfl
    | true =>
      show Option.map _ (Option.map receiptOf (loop _ _ _)) = Option.map _ (Option.map _ _)
      rw [← hseen, Option.map_map, Option.map_map]
      congr 1
      funext ⟨payload, e⟩
      cases e with
      | reported r => rfl
      | panicked => rfl

/-- **A UDP sender reports the receipt of `startUdp`.** -/
theorem Stream.startUdp_eq :
    Stream.startUdp cfg streamId env =
      (Rperf3.startUdp cfg cookie streamId (env.udpEnv cfg streamId)).map fun p =>
        emitStreamFinished p.2 := by
  have hseen := fun hlen => udpSendLoop_seen cfg streamId hlen env.turns
    ((startUdpLoop cfg streamId).start env.timer env.setup)
  rcases env with ⟨bound, connected, cookieSend, blocking, timer, setup, turns, retransmits⟩
  unfold Stream.startUdp Rperf3.startUdp ThreadEnv.udpEnv
  dsimp only
  cases bound with
  | false => rfl
  | true =>
    cases connected with
    | false => rfl
    | true =>
      cases cookieSend with
      | fails e => rfl
      | accepts n =>
        show (if cfg.len < udpHeaderLen then _ else _) =
          Option.map _ (if cfg.len < udpHeaderLen then _ else _)
        split
        · rfl
        · rename_i hlen
          show Option.map _ (Option.map receiptOf (loop _ _ _)) = Option.map _ (Option.map _ _)
          rw [← hseen (Nat.not_lt.mp hlen), Option.map_map, Option.map_map]
          rfl

/-- **A UDP receiver reports the receipt of `startUdpRecv`.** -/
theorem Stream.startUdpRecv_eq :
    Stream.startUdpRecv cfg streamId env =
      (Rperf3.startUdpRecv cfg streamId (env.udpRecvEnv cfg streamId)).map emitStreamFinished := by
  have hseen := udpRecvLoop_seen cfg streamId env.turns
    ((startUdpRecvLoop cfg streamId).start env.timer env.setup) rfl
  rcases env with ⟨bound, connected, cookieSend, blocking, timer, setup, turns, retransmits⟩
  unfold Stream.startUdpRecv Rperf3.startUdpRecv ThreadEnv.udpRecvEnv
  dsimp only
  cases bound with
  | false => rfl
  | true =>
    cases connected with
    | false => rfl
    | true =>
      show Option.map _ (Option.map receiptOf (loop _ _ _)) = Option.map _ _
      rw [← hseen, Option.map_map]
      rfl

end Untimed

/-! ## One receipt, then one `TestEnd` -/

/-- A receipt and a `TestEnd`, and nothing else. -/
def ReportsOnce (reports : List Report) : Prop := ∃ r, reports = emitStreamFinished r

theorem reportsOnce_empty {streamId : Nat} {reports : List Report}
    (h : some (emitStreamFinished (.empty streamId)) = some reports) : ReportsOnce reports :=
  ⟨_, (Option.some.inj h).symm⟩

/-- A loop that cannot divide by zero ends in a report. -/
theorem reportsOnce_transfer {env : ThreadEnv} {L : DataLoop ClientStreamReceipt}
    {last : ClientStreamReceipt → ClientStreamReceipt} {reports : List Report}
    (hsafe : ¬ L.DividesByZero)
    (h : (Stream.transfer env L).map (finish last) = some reports) : ReportsOnce reports := by
  obtain ⟨e, hrun, rfl⟩ := Option.map_eq_some_iff.mp h
  obtain ⟨ending, hloop, rfl⟩ := Option.map_eq_some_iff.mp hrun
  cases ending with
  | left s => exact ⟨_, rfl⟩
  | panicked => exact absurd (L.panics_iff.mp ⟨_, _, _, hloop⟩) hsafe

/-- **A thread reports once**, unless it is a TCP sender that may divide by zero. -/
theorem StreamThread.reportsOnce_of_run {cfg : Config} {cookie : Bytes} {thread : StreamThread}
    {env : ThreadEnv} {reports : List Report} (h : thread.run cfg cookie env = some reports)
    (hsafe : thread.kind = .tcpSend → ¬ (startLoop cfg thread.streamId).DividesByZero) :
    ReportsOnce reports := by
  unfold StreamThread.run at h
  cases hkind : thread.kind with
  | tcpSend =>
    rw [hkind] at h
    dsimp only [Stream.start] at h
    split at h
    · exact reportsOnce_empty h
    split at h
    · exact reportsOnce_empty h
    · exact reportsOnce_transfer (hsafe hkind) h
  | udpSend =>
    rw [hkind] at h
    dsimp only [Stream.startUdp] at h
    split at h
    · exact reportsOnce_empty h
    split at h
    · exact reportsOnce_empty h
    split at h
    · exact reportsOnce_empty h
    split at h
    · exact reportsOnce_empty h
    · rename_i hlen
      refine reportsOnce_transfer (fun hzero => hlen ?_) h
      rw [show cfg.len = 0 from hzero.empty]
      decide
  | tcpRecv =>
    rw [hkind] at h
    dsimp only [Stream.startRecv] at h
    split at h
    · exact reportsOnce_empty h
    split at h
    · exact reportsOnce_empty h
    · exact reportsOnce_transfer (DataLoop.not_dividesByZero rfl) h
  | udpRecv =>
    rw [hkind] at h
    dsimp only [Stream.startUdpRecv] at h
    split at h
    · exact reportsOnce_empty h
    split at h
    · exact reportsOnce_empty h
    · exact reportsOnce_transfer (DataLoop.not_dividesByZero rfl) h

/-- A TCP sender that may divide by zero can die without a report. -/
theorem StreamThread.exists_silent {cfg : Config} {thread : StreamThread}
    (hkind : thread.kind = .tcpSend)
    (hzero : (startLoop cfg thread.streamId).DividesByZero) (cookie : Bytes) :
    ∃ env, thread.run cfg cookie env = some [] := by
  obtain ⟨timer, setup, turns, hrun⟩ := (startLoop cfg thread.streamId).panics_iff.mpr hzero
  refine ⟨⟨true, true, .accepts cookie.length, true, timer, setup, turns, 0⟩, ?_⟩
  unfold StreamThread.run
  rw [hkind]
  show Option.map _ (Option.map receiptOf _) = some []
  rw [hrun]
  rfl

theorem tcp_of_mem_streamThreads {cfg : Config} {dataHost : String} {streamId : Nat}
    {thread : StreamThread} (h : thread ∈ streamThreads cfg dataHost streamId)
    (hkind : thread.kind = .tcpSend) :
    cfg.transport = .tcp ∧ cfg.direction.clientSends = true := by
  rcases List.mem_append.mp h with h | h
  · split at h
    · rename_i hsends
      rw [List.mem_singleton.mp h] at hkind
      cases htransport : cfg.transport with
      | tcp => exact ⟨rfl, hsends⟩
      | udp =>
        rw [htransport] at hkind
        cases hkind
    · cases h
  · split at h
    · rw [List.mem_singleton.mp h] at hkind
      cases htransport : cfg.transport with
      | tcp =>
        rw [htransport] at hkind
        cases hkind
      | udp =>
        rw [htransport] at hkind
        cases hkind
    · cases h

/-- TCP senders are started by TCP tests in which the client sends. -/
theorem exists_tcpSend_iff (cfg : Config) (dataPortOverride : Option Nat) :
    (∃ thread ∈ createStreams cfg dataPortOverride, thread.kind = .tcpSend) ↔
      cfg.transport = .tcp ∧ cfg.direction.clientSends = true := by
  constructor
  · rintro ⟨thread, hmem, hkind⟩
    obtain ⟨streamId, -, hthread⟩ := List.mem_flatMap.mp hmem
    exact tcp_of_mem_streamThreads hthread hkind
  · rintro ⟨htransport, hsends⟩
    -- stream 1 always exists
    refine ⟨⟨.tcpSend, cfg.hostPort, 1⟩, List.mem_flatMap.mpr ⟨1, ?_, ?_⟩, rfl⟩
    · rw [List.mem_range'_1]
      omega
    · unfold streamThreads
      rw [hsends, htransport]
      exact List.mem_append_left _ (List.mem_singleton.mpr rfl)

/-- The settings of `Stream::start`'s loop, in the client's configuration. -/
theorem startLoop_dividesByZero_iff (cfg : Config) (streamId : Nat) :
    (startLoop cfg streamId).DividesByZero ↔
      cfg.len = 0 ∧ cfg.totalBlocks.isSome = true ∧ cfg.totalBytes ≠ some 0 ∧
        totalDuration cfg.time cfg.omitSecs ≠ 0 := by
  constructor
  · intro h
    exact ⟨h.empty, h.blocks, h.bytes, fun htime => h.time (congrArg some htime)⟩
  · rintro ⟨hempty, hblocks, hbytes, htime⟩
    exact ⟨hblocks, hempty, hbytes, fun hbudget => htime (Option.some.inj hbudget)⟩

/-- **Every thread reports exactly once, in whatever its calls return, iff the client does not send
    empty TCP blocks up to a block limit**, in a test that is not over before it starts. -/
theorem threads_report_once_iff (cfg : Config) (dataPortOverride : Option Nat) :
    (∀ thread ∈ createStreams cfg dataPortOverride, ∀ cookie env reports,
      thread.run cfg cookie env = some reports → ReportsOnce reports) ↔
    ¬ (cfg.transport = .tcp ∧ cfg.direction.clientSends = true ∧ cfg.len = 0 ∧
      cfg.totalBlocks.isSome = true ∧ cfg.totalBytes ≠ some 0 ∧
      totalDuration cfg.time cfg.omitSecs ≠ 0) := by
  constructor
  · rintro h ⟨htransport, hsends, hzero⟩
    obtain ⟨thread, hmem, hkind⟩ :=
      (exists_tcpSend_iff cfg dataPortOverride).mpr ⟨htransport, hsends⟩
    obtain ⟨env, hrun⟩ := StreamThread.exists_silent hkind
      ((startLoop_dividesByZero_iff cfg thread.streamId).mpr hzero) []
    obtain ⟨r, hr⟩ := h thread hmem [] env [] hrun
    cases hr
  · intro h thread hmem cookie env reports hrun
    refine StreamThread.reportsOnce_of_run hrun fun hkind hzero => h ?_
    obtain ⟨htransport, hsends⟩ :=
      (exists_tcpSend_iff cfg dataPortOverride).mp ⟨thread, hmem, hkind⟩
    exact ⟨htransport, hsends, (startLoop_dividesByZero_iff cfg thread.streamId).mp hzero⟩

/-- `rperf3 -c localhost -l 0 -k 1`. -/
def emptyBlocksCli : Cli := { host := some "localhost", len := some 0, blockcount := some 1 }

/-- The only thread of that client connects, sends its cookie and dies at its first loop test. -/
theorem empty_block_thread_dies :
    ∃ cfg, emptyBlocksCli.tryIntoMode.Gives (.client cfg) ∧
      createStreams cfg none = [⟨.tcpSend, "localhost:5201", 1⟩] ∧
      ∃ env, env.connected = true ∧ env.blocking = true ∧
        StreamThread.run cfg (List.replicate 37 0) ⟨.tcpSend, "localhost:5201", 1⟩ env =
          some [] := by
  refine ⟨emptyBlocksCli.base 0 none none none, rfl, by decide,
    ⟨true, true, .accepts 37, true, 0, 0, [⟨0, 0, 0, .ok 0⟩], 0⟩, rfl, rfl, ?_⟩
  rfl

end Rperf3
