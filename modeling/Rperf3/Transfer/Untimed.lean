/-
  THE LOOPS WITHOUT A CLOCK.

  Five of the data loops also exist as recursions over coarser turns, which carry the answers to
  "is the time up" and "must it wait" and the clock reading of a transfer in place of the timer, the
  bucket and the delays.  On the turns of a run as these loops see them (`seen`), each computes the
  receipt of the run: what is proved about the one is proved about the other.
-/
import Rperf3.Transfer.Loops

namespace Rperf3

open Turns ShortIO

variable {R : Type}

/-- Is the time up when the pass tests it? -/
def DataLoop.elapsedAt (L : DataLoop R) (t : Turn) (s : LoopState R) : Bool :=
  L.isElapsed (s.after t.beforeTest)

namespace LoopState

/-- Does the pacer ask for a pause? -/
def mustWaitAt (t : Turn) (s : LoopState R) : Bool :=
  ((s.after t.beforeTest).after t.beforePace).wait.isSome

/-- The clock when the call of the pass has returned. -/
def doneAt (t : Turn) (s : LoopState R) : Nat :=
  s.clock + t.beforeTest + t.beforePace + t.inCall

theorem wait_of_bucket_none {s : LoopState R} (h : s.bucket = none) (d e : Nat) :
    ((s.after d).after e).wait = none := by
  unfold wait
  show Option.bind s.bucket _ = none
  rw [h]
  rfl

theorem mustWaitAt_eq {t : Turn} {s : LoopState R} {o : Option ℚ}
    (h : ((s.after t.beforeTest).after t.beforePace).wait = o) : s.mustWaitAt t = o.isSome :=
  congrArg Option.isSome h

end LoopState

/-- The end of a loop, down to its receipt. -/
def receiptOf : Turns.Ending (LoopState R) → Turns.Ending R
  | .left s => .left s.receipt
  | .panicked => .panicked

/-- The end of a thread, likewise. -/
def ThreadEnd.ending : ThreadEnd → Turns.Ending ClientStreamReceipt
  | reported r => .left r
  | panicked => .panicked

/-! ## `Stream::start` -/

section Start

variable (cfg : Config) (streamId : Nat)

/-- A call's result as the answer of a socket. -/
def answerOf : Except IoError Nat → Answer IoError
  | .ok n => .accepts n
  | .error e => .fails e

def startView (t : Turn) (s : LoopState ClientStreamReceipt) : TcpTurn :=
  ⟨(startLoop cfg streamId).elapsedAt t s, answerOf t.outcome, s.doneAt t⟩

/-- A pass that comes to its call. -/
theorem tcpSendLoop_calls {t : Turn} {s : LoopState ClientStreamReceipt}
    (h : (startLoop cfg streamId).Calls t s) (us : List TcpTurn) :
    tcpSendLoop cfg.len (fromSecs cfg.omitSecs) cfg.totalBytes cfg.totalBlocks
        (startView cfg streamId t s :: us) s.receipt =
      match answerOf t.outcome with
      | .accepts m =>
        if 0 < min m cfg.len then
          (tcpSendLoop cfg.len (fromSecs cfg.omitSecs) cfg.totalBytes cfg.totalBlocks us
            (recordTcp (fromSecs cfg.omitSecs) (s.doneAt t) (min m cfg.len) s.receipt)).map
            fun (sent, e) => ((buildPayload cfg.len).take (min m cfg.len) ++ sent, e)
        else tcpSendLoop cfg.len (fromSecs cfg.omitSecs) cfg.totalBytes cfg.totalBlocks us s.receipt
      | .fails e =>
        if e.kind = .wouldBlock then
          tcpSendLoop cfg.len (fromSecs cfg.omitSecs) cfg.totalBytes cfg.totalBlocks us s.receipt
        else some ([], .reported s.receipt) := by
  have htime : ¬ (startView cfg streamId t s).elapsed = true := h.time
  have hbytes : ¬ cfg.totalBytes.any (· ≤ s.receipt.bytesSent) = true := h.bytes
  have hzero : ¬ (cfg.totalBlocks.isSome && cfg.len = 0) = true := h.divides
  have hblocks : ¬ cfg.totalBlocks.any (· ≤ s.receipt.bytesSent / cfg.len) = true := h.blocks
  rw [tcpSendLoop, if_neg htime, if_neg hbytes, if_neg hzero, if_neg hblocks]
  rfl

/-- **`Stream::start` without a clock.** -/
theorem tcpSendLoop_seen (ts : List Turn) (s : LoopState ClientStreamReceipt)
    (hbucket : s.bucket = none) :
    (tcpSendLoop cfg.len (fromSecs cfg.omitSecs) cfg.totalBytes cfg.totalBlocks
      (seen (startLoop cfg streamId).turn (startView cfg streamId) ts s) s.receipt).map
        (fun p => p.2.ending) =
      (loop (startLoop cfg streamId).turn ts s).map receiptOf := by
  refine simulates (g := fun ts r => (tcpSendLoop cfg.len (fromSecs cfg.omitSecs) cfg.totalBytes
    cfg.totalBlocks ts r).map fun p => p.2.ending) (P := fun s => s.bucket = none)
    (fun _ _ _ h => DataLoop.bucket_none_next h) (fun _ => rfl) ?_ ?_ ?_ ts s hbucket
  · intro t s s' us hs hnext
    show Option.map _ (tcpSendLoop _ _ _ _ (startView cfg streamId t s :: us) s.receipt) = _
    cases DataLoop.pass_of_next hnext with
    | pauses hgo hwait =>
      rw [LoopState.wait_of_bucket_none hs] at hwait
      cases hwait
    | moves hcalls hout hpos =>
      rw [tcpSendLoop_calls cfg streamId hcalls, hout]
      show Option.map _ (if 0 < min _ cfg.len then _ else _) = _
      rw [if_pos (show 0 < min _ cfg.len from hpos), Option.map_map]
      rfl
    | nothing hcalls hout hzero hends =>
      rw [tcpSendLoop_calls cfg streamId hcalls, hout]
      show Option.map _ (if 0 < min _ cfg.len then _ else _) = _
      rw [if_neg (show ¬ 0 < min _ cfg.len from hzero)]
      rfl
    | again hcalls hout hretry =>
      rw [tcpSendLoop_calls cfg streamId hcalls, hout]
      show Option.map _ (if _ then _ else _) = _
      rw [if_pos (of_decide_eq_true hretry)]
      rfl
  · intro t s s' us hs hleave
    show Option.map _ (tcpSendLoop _ _ _ _ (startView cfg streamId t s :: us) s.receipt) = _
    cases DataLoop.pass_of_leave hleave with
    | timeUp htime =>
      rw [tcpSendLoop, if_pos (show (startView cfg streamId t s).elapsed = true from htime)]
      rfl
    | bytesFull htime hbytes =>
      rw [tcpSendLoop, if_neg (show ¬ (startView cfg streamId t s).elapsed = true from htime),
        if_pos (show cfg.totalBytes.any (· ≤ s.receipt.bytesSent) = true from hbytes)]
      rfl
    | blocksFull htime hbytes hzero hblocks =>
      rw [tcpSendLoop, if_neg (show ¬ (startView cfg streamId t s).elapsed = true from htime),
        if_neg (show ¬ cfg.totalBytes.any (· ≤ s.receipt.bytesSent) = true from hbytes),
        if_neg (show ¬ (cfg.totalBlocks.isSome && cfg.len = 0) = true from hzero),
        if_pos (show cfg.totalBlocks.any (· ≤ s.receipt.bytesSent / cfg.len) = true from hblocks)]
      rfl
    | atEnd hcalls hout hzero hends => cases hends
    | fails hcalls hout hretry =>
      rw [tcpSendLoop_calls cfg streamId hcalls, hout]
      show Option.map _ (if _ then _ else _) = _
      rw [if_neg fun hkind => hretry (decide_eq_true hkind)]
      rfl
  · intro t s us hs hpanic
    show Option.map _ (tcpSendLoop _ _ _ _ (startView cfg streamId t s :: us) s.receipt) = _
    cases DataLoop.pass_of_panic hpanic with
    | divides htime hbytes hzero =>
      rw [tcpSendLoop, if_neg (show ¬ (startView cfg streamId t s).elapsed = true from htime),
        if_neg (show ¬ cfg.totalBytes.any (· ≤ s.receipt.bytesSent) = true from hbytes),
        if_pos (show (cfg.totalBlocks.isSome && cfg.len = 0) = true from hzero)]
      rfl

end Start

/-! ## The paced senders -/

/-- A pass of a paced sender; the wall clock stamps of its datagrams do not matter here. -/
def udpView (L : DataLoop R) (t : Turn) (s : LoopState R) : UdpTurn where
  elapsed := L.elapsedAt t s
  mustWait := s.mustWaitAt t
  tvSec := 0
  tvUsec := 0
  sent := t.outcome.map (min · L.len)
  sentAt := s.doneAt t

section StartUdp

variable (cfg : Config) (streamId : Nat)

theorem not_limitReached {t : Turn} {s : LoopState ClientStreamReceipt}
    (h : (startUdpLoop cfg streamId).GoesOn (s.after t.beforeTest)) :
    ¬ limitReached cfg.len cfg.totalBytes cfg.totalBlocks s.receipt.bytesSent = true := by
  intro hlimit
  rcases (Bool.or_eq_true _ _).mp hlimit with hbytes | hblocks
  · exact h.bytes hbytes
  · exact h.blocks hblocks

/-- A pass that comes to its call. -/
theorem udpSendLoop_calls {t : Turn} {s : LoopState ClientStreamReceipt}
    (h : (startUdpLoop cfg streamId).Calls t s) (us : List UdpTurn) (seq : Nat) :
    udpSendLoop cfg.len (fromSecs cfg.omitSecs) cfg.totalBytes cfg.totalBlocks
        (udpView (startUdpLoop cfg streamId) t s :: us) seq s.receipt =
      match t.outcome.map (min · cfg.len) with
      | .ok n =>
        if 0 < n then
          (udpSendLoop cfg.len (fromSecs cfg.omitSecs) cfg.totalBytes cfg.totalBlocks us (seq + 1)
            (recordSend (fromSecs cfg.omitSecs) (s.doneAt t) n s.receipt)).map
            fun (sent, r') => (dataPacket cfg.len ⟨0, 0, BitVec.ofNat 64 seq⟩ :: sent, r')
        else udpSendLoop cfg.len (fromSecs cfg.omitSecs) cfg.totalBytes cfg.totalBlocks us seq
          s.receipt
      | .error _ => some ([], s.receipt) := by
  have htime : ¬ (udpView (startUdpLoop cfg streamId) t s).elapsed = true := h.time
  have hwait : ¬ (udpView (startUdpLoop cfg streamId) t s).mustWait = true :=
    Bool.eq_false_iff.mp (LoopState.mustWaitAt_eq h.wait)
  rw [udpSendLoop, if_neg htime, if_neg (not_limitReached cfg streamId h.toGoesOn), if_neg hwait]
  rfl

/-- **`Stream::start_udp` without a clock**, for packets that hold the header. -/
theorem udpSendLoop_seen (hlen : udpHeaderLen ≤ cfg.len) (ts : List Turn)
    (s : LoopState ClientStreamReceipt) :
    (udpSendLoop cfg.len (fromSecs cfg.omitSecs) cfg.totalBytes cfg.totalBlocks
      (seen (startUdpLoop cfg streamId).turn (udpView (startUdpLoop cfg streamId)) ts s)
      s.receipt.packets s.receipt).map (fun p => Turns.Ending.left p.2) =
      (loop (startUdpLoop cfg streamId).turn ts s).map receiptOf := by
  refine simulates (g := fun ts (p : Nat × ClientStreamReceipt) =>
    (udpSendLoop cfg.len (fromSecs cfg.omitSecs) cfg.totalBytes cfg.totalBlocks ts p.1 p.2).map
      fun p => Turns.Ending.left p.2) (a := fun s => (s.receipt.packets, s.receipt))
    (P := fun _ => True) (fun _ _ _ _ _ => trivial) (fun _ => rfl) ?_ ?_ ?_ ts s trivial
  · intro t s s' us _ hnext
    show Option.map _ (udpSendLoop _ _ _ _ (udpView (startUdpLoop cfg streamId) t s :: us)
      s.receipt.packets s.receipt) = _
    cases DataLoop.pass_of_next hnext with
    | pauses hgo hwait =>
      have htime : ¬ (udpView (startUdpLoop cfg streamId) t s).elapsed = true := hgo.time
      have hmust : (udpView (startUdpLoop cfg streamId) t s).mustWait = true :=
        LoopState.mustWaitAt_eq hwait
      rw [udpSendLoop, if_neg htime, if_neg (not_limitReached cfg streamId hgo), if_pos hmust]
      rfl
    | moves hcalls hout hpos =>
      rw [udpSendLoop_calls cfg streamId hcalls, hout]
      show Option.map _ (if 0 < min _ cfg.len then _ else _) = _
      rw [if_pos (show 0 < min _ cfg.len from hpos), Option.map_map]
      rfl
    | nothing hcalls hout hzero hends =>
      rw [udpSendLoop_calls cfg streamId hcalls, hout]
      show Option.map _ (if 0 < min _ cfg.len then _ else _) = _
      rw [if_neg (show ¬ 0 < min _ cfg.len from hzero)]
      rfl
    | again hcalls hout hretry => cases hretry
  · intro t s s' us _ hleave
    show Option.map _ (udpSendLoop _ _ _ _ (udpView (startUdpLoop cfg streamId) t s :: us)
      s.receipt.packets s.receipt) = _
    -- both limits end the loop by the same test
    have hlimit : limitReached cfg.len cfg.totalBytes cfg.totalBlocks s.receipt.bytesSent = true →
        ¬ (startUdpLoop cfg streamId).isElapsed (s.after t.beforeTest) = true →
        (udpSendLoop cfg.len (fromSecs cfg.omitSecs) cfg.totalBytes cfg.totalBlocks
          (udpView (startUdpLoop cfg streamId) t s :: us) s.receipt.packets s.receipt).map
          (fun p => Turns.Ending.left p.2) = some (.left s.receipt) := by
      intro hreached htime
      rw [udpSendLoop,
        if_neg (show ¬ (udpView (startUdpLoop cfg streamId) t s).elapsed = true from htime),
        if_pos hreached]
      rfl
    cases DataLoop.pass_of_leave hleave with
    | timeUp htime =>
      rw [udpSendLoop,
        if_pos (show (udpView (startUdpLoop cfg streamId) t s).elapsed = true from htime)]
      rfl
    | bytesFull htime hbytes => exact hlimit ((Bool.or_eq_true _ _).mpr (.inl hbytes)) htime
    | blocksFull htime hbytes hzero hblocks =>
      exact hlimit ((Bool.or_eq_true _ _).mpr (.inr hblocks)) htime
    | atEnd hcalls hout hzero hends => cases hends
    | fails hcalls hout hretry =>
      rw [udpSendLoop_calls cfg streamId hcalls, hout]
      rfl
  · intro t s us _ hpanic
    cases DataLoop.pass_of_panic hpanic with
    | divides htime hbytes hzero =>
      have hempty : cfg.len = 0 := of_decide_eq_true ((Bool.and_eq_true _ _).mp hzero).2
      unfold udpHeaderLen at hlen
      omega

end StartUdp

section RunUdpSendStreams

variable (opts : ClientOptions) (streamId : Nat)

/-- A pass that comes to its call. -/
theorem udpSendStreamLoop_calls {t : Turn} {s : LoopState StreamReceipt}
    (h : (runUdpSendStreamsLoop opts streamId).Calls t s) (us : List UdpTurn) (seq : Nat) :
    udpSendStreamLoop (reverseLen opts) (fromSecs opts.omitSecs)
        (udpView (runUdpSendStreamsLoop opts streamId) t s :: us) seq s.receipt =
      match t.outcome.map (min · (reverseLen opts)) with
      | .ok n =>
        if 0 < n then
          (udpSendStreamLoop (reverseLen opts) (fromSecs opts.omitSecs) us (seq + 1)
            (s.receipt.recordPacket (fromSecs opts.omitSecs) (s.doneAt t) n)).map
            fun (sent, r') => (dataPacket (reverseLen opts) ⟨0, 0, BitVec.ofNat 64 seq⟩ :: sent, r')
        else udpSendStreamLoop (reverseLen opts) (fromSecs opts.omitSecs) us seq s.receipt
      | .error _ => some ([], s.receipt) := by
  have htime : ¬ (udpView (runUdpSendStreamsLoop opts streamId) t s).elapsed = true := h.time
  have hwait : ¬ (udpView (runUdpSendStreamsLoop opts streamId) t s).mustWait = true :=
    Bool.eq_false_iff.mp (LoopState.mustWaitAt_eq h.wait)
  rw [udpSendStreamLoop, if_neg htime, if_neg hwait]
  rfl

/-- **`run_udp_send_streams` without a clock.** -/
theorem udpSendStreamLoop_seen (ts : List Turn) (s : LoopState StreamReceipt) :
    (udpSendStreamLoop (reverseLen opts) (fromSecs opts.omitSecs)
      (seen (runUdpSendStreamsLoop opts streamId).turn
        (udpView (runUdpSendStreamsLoop opts streamId)) ts s)
      s.receipt.packets s.receipt).map (fun p => Turns.Ending.left p.2) =
      (loop (runUdpSendStreamsLoop opts streamId).turn ts s).map receiptOf := by
  refine simulates (g := fun ts (p : Nat × StreamReceipt) =>
    (udpSendStreamLoop (reverseLen opts) (fromSecs opts.omitSecs) ts p.1 p.2).map
      fun p => Turns.Ending.left p.2) (a := fun s => (s.receipt.packets, s.receipt))
    (P := fun _ => True) (fun _ _ _ _ _ => trivial) (fun _ => rfl) ?_ ?_ ?_ ts s trivial
  · intro t s s' us _ hnext
    show Option.map _ (udpSendStreamLoop _ _
      (udpView (runUdpSendStreamsLoop opts streamId) t s :: us)
      s.receipt.packets s.receipt) = _
    cases DataLoop.pass_of_next hnext with
    | pauses hgo hwait =>
      have htime : ¬ (udpView (runUdpSendStreamsLoop opts streamId) t s).elapsed = true := hgo.time
      have hmust : (udpView (runUdpSendStreamsLoop opts streamId) t s).mustWait = true :=
        LoopState.mustWaitAt_eq hwait
      rw [udpSendStreamLoop, if_neg htime, if_pos hmust]
      rfl
    | moves hcalls hout hpos =>
      rw [udpSendStreamLoop_calls opts streamId hcalls, hout]
      show Option.map _ (if 0 < min _ (reverseLen opts) then _ else _) = _
      rw [if_pos (show 0 < min _ (reverseLen opts) from hpos), Option.map_map]
      rfl
    | nothing hcalls hout hzero hends =>
      rw [udpSendStreamLoop_calls opts streamId hcalls, hout]
      show Option.map _ (if 0 < min _ (reverseLen opts) then _ else _) = _
      rw [if_neg (show ¬ 0 < min _ (reverseLen opts) from hzero)]
      rfl
    | again hcalls hout hretry => cases hretry
  · intro t s s' us _ hleave
    show Option.map _ (udpSendStreamLoop _ _
      (udpView (runUdpSendStreamsLoop opts streamId) t s :: us)
      s.receipt.packets s.receipt) = _
    cases DataLoop.pass_of_leave hleave with
    | timeUp htime =>
      rw [udpSendStreamLoop,
        if_pos (show (udpView (runUdpSendStreamsLoop opts streamId) t s).elapsed = true from htime)]
      rfl
    | bytesFull htime hbytes => cases hbytes
    | blocksFull htime hbytes hzero hblocks => cases hblocks
    | atEnd hcalls hout hzero hends => cases hends
    | fails hcalls hout hretry =>
      rw [udpSendStreamLoop_calls opts streamId hcalls, hout]
      rfl
  · intro t s us _ hpanic
    cases DataLoop.pass_of_panic hpanic with
    | divides htime hbytes hzero => cases hzero

end RunUdpSendStreams

/-! ## The receivers -/

section RecvStreamBytes

variable (omitWindow : Nat) (reporter : Option Nat)

def recvView (t : Turn) (s : LoopState StreamReceipt) : RecvTurn :=
  ⟨s.doneAt t, t.outcome.map (min · defaultTcpLen)⟩

/-- The three things a `recv` can bring. -/
theorem recvStreamLoop_cons (t : Turn) (s : LoopState StreamReceipt) (us : List RecvTurn) :
    recvStreamLoop omitWindow (recvView t s :: us) s.receipt =
      match t.outcome with
      | .ok m =>
        if 0 < min m defaultTcpLen then
          recvStreamLoop omitWindow us
            (s.receipt.recordBytes omitWindow (s.doneAt t) (min m defaultTcpLen))
        else some s.receipt
      | .error e =>
        if e.kind = .interrupted then recvStreamLoop omitWindow us s.receipt
        else some s.receipt := by
  rw [recvStreamLoop, recvView]
  cases t.outcome with
  | error e => rfl
  | ok m =>
    dsimp only [Except.map]
    cases min m defaultTcpLen with
    | zero => rfl
    | succ n => exact (if_pos (Nat.succ_pos n)).symm

/-- **`recv_stream_bytes` without a clock.** -/
theorem recvStreamLoop_seen (ts : List Turn) (s : LoopState StreamReceipt)
    (hbucket : s.bucket = none) :
    (recvStreamLoop omitWindow
      (seen (recvStreamBytesLoop omitWindow reporter).turn recvView ts s) s.receipt).map .left =
      (loop (recvStreamBytesLoop omitWindow reporter).turn ts s).map receiptOf := by
  refine simulates (g := fun ts r => (recvStreamLoop omitWindow ts r).map Turns.Ending.left)
    (P := fun s => s.bucket = none) (fun _ _ _ h => DataLoop.bucket_none_next h) (fun _ => rfl)
    ?_ ?_ ?_ ts s hbucket
  · intro t s s' us hs hnext
    show Option.map _ (recvStreamLoop omitWindow (recvView t s :: us) s.receipt) = _
    rw [recvStreamLoop_cons]
    cases DataLoop.pass_of_next hnext with
    | pauses hgo hwait =>
      rw [LoopState.wait_of_bucket_none hs] at hwait
      cases hwait
    | moves hcalls hout hpos =>
      rw [hout]
      show Option.map _ (if 0 < min _ defaultTcpLen then _ else _) = _
      rw [if_pos (show 0 < min _ defaultTcpLen from hpos)]
      rfl
    | nothing hcalls hout hzero hends => exact absurd rfl hends
    | again hcalls hout hretry =>
      rw [hout]
      show Option.map _ (if _ then _ else _) = _
      rw [if_pos (of_decide_eq_true hretry)]
      rfl
  · intro t s s' us hs hleave
    show Option.map _ (recvStreamLoop omitWindow (recvView t s :: us) s.receipt) = _
    rw [recvStreamLoop_cons]
    cases DataLoop.pass_of_leave hleave with
    | timeUp htime => cases htime
    | bytesFull htime hbytes => cases hbytes
    | blocksFull htime hbytes hzero hblocks => cases hblocks
    | atEnd hcalls hout hzero hends =>
      rw [hout]
      show Option.map _ (if 0 < min _ defaultTcpLen then _ else _) = _
      rw [if_neg (show ¬ 0 < min _ defaultTcpLen from hzero)]
      rfl
    | fails hcalls hout hretry =>
      rw [hout]
      show Option.map _ (if _ then _ else _) = _
      rw [if_neg fun hkind => hretry (decide_eq_true hkind)]
      rfl
  · intro t s us hs hpanic
    cases DataLoop.pass_of_panic hpanic with
    | divides htime hbytes hzero => cases hzero

end RecvStreamBytes

section StartUdpRecv

variable (cfg : Config) (streamId : Nat)

/-- The receiver does not look at what a datagram holds. -/
def udpRecvView (t : Turn) (s : LoopState ClientStreamReceipt) : UdpRecvTurn where
  elapsed := (startUdpRecvLoop cfg streamId).elapsedAt t s
  outcome :=
    match t.outcome with
    | .ok m => .datagram (s.doneAt t) (List.replicate (min m (recvBufLen cfg)) 0)
    | .error e => if (startUdpRecvLoop cfg streamId).retries e.kind then .wouldBlock else .failed

/-- A pass that comes to its call. -/
theorem udpRecvLoop_calls {t : Turn} {s : LoopState ClientStreamReceipt}
    (h : (startUdpRecvLoop cfg streamId).Calls t s) (us : List UdpRecvTurn) :
    udpRecvLoop (fromSecs cfg.omitSecs) (udpRecvView cfg streamId t s :: us) s.receipt =
      match t.outcome with
      | .ok m =>
        if 0 < min m (recvBufLen cfg) then
          udpRecvLoop (fromSecs cfg.omitSecs) us
            (recordSend (fromSecs cfg.omitSecs) (s.doneAt t) (min m (recvBufLen cfg)) s.receipt)
        else udpRecvLoop (fromSecs cfg.omitSecs) us s.receipt
      | .error e =>
        if (startUdpRecvLoop cfg streamId).retries e.kind = true then
          udpRecvLoop (fromSecs cfg.omitSecs) us s.receipt
        else some s.receipt := by
  have htime : ¬ (udpRecvView cfg streamId t s).elapsed = true := h.time
  rw [udpRecvLoop, if_neg htime, udpRecvView]
  cases t.outcome with
  | ok m =>
    dsimp only
    rw [List.length_replicate]
    by_cases hpos : 0 < min m (recvBufLen cfg)
    · rw [if_pos hpos, if_neg (Nat.ne_of_gt hpos)]
    · rw [if_neg hpos, if_pos (Nat.eq_zero_of_not_pos hpos)]
  | error e =>
    dsimp only
    by_cases hretry : (startUdpRecvLoop cfg streamId).retries e.kind = true
    · rw [if_pos hretry, if_pos hretry]
    · rw [if_neg hretry, if_neg hretry]

/-- **`Stream::start_udp_recv` without a clock.** -/
theorem udpRecvLoop_seen (ts : List Turn) (s : LoopState ClientStreamReceipt)
    (hbucket : s.bucket = none) :
    (udpRecvLoop (fromSecs cfg.omitSecs)
      (seen (startUdpRecvLoop cfg streamId).turn (udpRecvView cfg streamId) ts s)
      s.receipt).map .left =
      (loop (startUdpRecvLoop cfg streamId).turn ts s).map receiptOf := by
  refine simulates
    (g := fun ts r => (udpRecvLoop (fromSecs cfg.omitSecs) ts r).map Turns.Ending.left)
    (P := fun s => s.bucket = none) (fun _ _ _ h => DataLoop.bucket_none_next h) (fun _ => rfl)
    ?_ ?_ ?_ ts s hbucket
  · intro t s s' us hs hnext
    show Option.map _ (udpRecvLoop _ (udpRecvView cfg streamId t s :: us) s.receipt) = _
    cases DataLoop.pass_of_next hnext with
    | pauses hgo hwait =>
      rw [LoopState.wait_of_bucket_none hs] at hwait
      cases hwait
    | moves hcalls hout hpos =>
      rw [udpRecvLoop_calls cfg streamId hcalls, hout]
      show Option.map _ (if 0 < min _ (recvBufLen cfg) then _ else _) = _
      rw [if_pos (show 0 < min _ (recvBufLen cfg) from hpos)]
      rfl
    | nothing hcalls hout hzero hends =>
      rw [udpRecvLoop_calls cfg streamId hcalls, hout]
      show Option.map _ (if 0 < min _ (recvBufLen cfg) then _ else _) = _
      rw [if_neg (show ¬ 0 < min _ (recvBufLen cfg) from hzero)]
      rfl
    | again hcalls hout hretry =>
      rw [udpRecvLoop_calls cfg streamId hcalls, hout]
      show Option.map _ (if _ then _ else _) = _
      rw [if_pos hretry]
      rfl
  · intro t s s' us hs hleave
    show Option.map _ (udpRecvLoop _ (udpRecvView cfg streamId t s :: us) s.receipt) = _
    cases DataLoop.pass_of_leave hleave with
    | timeUp htime =>
      rw [udpRecvLoop, if_pos (show (udpRecvView cfg streamId t s).elapsed = true from htime)]
      rfl
    | bytesFull htime hbytes => cases hbytes
    | blocksFull htime hbytes hzero hblocks => cases hblocks
    | atEnd hcalls hout hzero hends => cases hends
    | fails hcalls hout hretry =>
      rw [udpRecvLoop_calls cfg streamId hcalls, hout]
      show Option.map _ (if _ then _ else _) = _
      rw [if_neg hretry]
      rfl
  · intro t s us hs hpanic
    cases DataLoop.pass_of_panic hpanic with
    | divides htime hbytes hzero => cases hzero

end StartUdpRecv

end Rperf3
