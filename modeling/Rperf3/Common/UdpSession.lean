/-
  `common/udp_session.rs`: stream registration and the demultiplexing receiver.

  1. `acceptUdpStreams` — reads datagrams until `n` distinct sources have sent a stream-init
     payload, dropping every other datagram; the rest of the arrivals stays in the socket.
  2. `runUdpReceiver` — the measurement loop.  One iteration is a `Tick`: the value of the stop
     flag, the clock readings of the grace deadline and the outcome of `recv_from`.  The loop
     returns at the first tick that breaks it; `none` means that it is still running.
  3. **Demultiplexing** (`lookup_receiveAll`) — the state of a registered address is the fold of the
     single-stream update over the datagrams of that address alone.
-/
import Mathlib.Data.Rat.Defs
import Mathlib.Algebra.Order.Ring.Rat
import Rperf3.Lib.Table
import Rperf3.Common.Config
import Rperf3.Common.UdpHeader

namespace Rperf3

/-- One UDP datagram as `recv_from` returns it. -/
structure Datagram where
  src : SocketAddr
  payload : Bytes
  deriving DecidableEq

/-! ## Registration -/

/-- `b"9876"`, the stream-init datagram of iperf3 clients. -/
def udpStreamInit : Bytes := [57, 56, 55, 54]

/-- Is the payload one of the two accepted stream-inits? -/
def isValidInit (expectedCookie : Bytes) (payload : Bytes) : Bool :=
  payload == expectedCookie || payload == udpStreamInit

/-- The loop of `accept_udp_streams`: `addrs` registered so far (in order; it is also the `seen`
    set), `need` still missing.  The result is the registered addresses — each acknowledged once,
    in that order — and the arrivals left in the socket; `none` while the loop still waits. -/
def acceptUdpLoop (expectedCookie : Bytes) :
    Nat → List SocketAddr → List Datagram → Option (List SocketAddr × List Datagram)
  | 0, addrs, arrivals => some (addrs, arrivals)
  | _ + 1, _, [] => none
  | need + 1, addrs, d :: arrivals =>
    if !isValidInit expectedCookie d.payload then
      acceptUdpLoop expectedCookie (need + 1) addrs arrivals
    else if d.src ∈ addrs then
      acceptUdpLoop expectedCookie (need + 1) addrs arrivals
    else
      acceptUdpLoop expectedCookie need (addrs ++ [d.src]) arrivals

/-- `accept_udp_streams` on the arrivals at the server's socket. -/
def acceptUdpStreams (expectedCookie : Bytes) (n : Nat) (arrivals : List Datagram) :
    Option (List SocketAddr × List Datagram) :=
  acceptUdpLoop expectedCookie n [] arrivals

/-! ## Per-stream accounting -/

structure StreamState where
  receipt : StreamReceipt
  maxSeq : BitVec 64
  lastTransitMs : Option ℚ
  sawSentinel : Bool

/-- `StreamState::new`: nothing received, `max_seq = -1`. -/
def StreamState.new : StreamState where
  receipt := StreamReceipt.empty
  maxSeq := BitVec.ofInt 64 (-1)
  lastTransitMs := none
  sawSentinel := false

/-- `u64::saturating_add`. -/
def saturatingAdd64 (a b : Nat) : Nat := min (a + b) (2 ^ 64 - 1)

/-- `jitter::update`: one step of the RFC 1889 moving average, over exact rationals. -/
def jitterUpdate (prevJitter d : ℚ) : ℚ := prevJitter + (|d| - prevJitter) / 16

namespace StreamState

/-- First and last byte times, byte and packet counts, the omit window. -/
def countBytes (omitWindow now len : Nat) (s : StreamState) : StreamState :=
  let first := s.receipt.firstByteAt.getD now
  let inOmit := decide (now - first < omitWindow)
  { s with
    receipt :=
      { s.receipt with
        firstByteAt := some first
        lastByteAt := some now
        bytes := s.receipt.bytes + len
        packets := s.receipt.packets + 1
        bytesOmit := if inOmit then s.receipt.bytesOmit + len else s.receipt.bytesOmit
        firstMeasuredAt :=
          if inOmit then s.receipt.firstMeasuredAt
          else some (s.receipt.firstMeasuredAt.getD now) } }

/-- Sequence accounting: a number at or below the maximum is out of order, a jump ahead charges the
    whole gap to `lost`.  All arithmetic is the machine's (`i64`, reinterpreted as `u64`). -/
def countSeq (seq : BitVec 64) (s : StreamState) : StreamState :=
  if seq.toInt ≤ s.maxSeq.toInt then
    { s with receipt := { s.receipt with ooo := s.receipt.ooo + 1 } }
  else
    let lost :=
      if (s.maxSeq + 1).toInt < seq.toInt then
        saturatingAdd64 s.receipt.lost (seq - s.maxSeq - 1).toNat
      else s.receipt.lost
    { s with receipt := { s.receipt with lost := lost }, maxSeq := seq }

/-- Transit time against the previous datagram's, in milliseconds. -/
def countJitter (now : Nat) (hdr : UdpHeader) (s : StreamState) : StreamState :=
  let first := s.receipt.firstByteAt.getD now
  let recvMs : ℚ := ((now - first : Nat) : ℚ) / 1000000
  let sendMs : ℚ := (hdr.tvSec.toNat : ℚ) * 1000 + (hdr.tvUsec.toNat : ℚ) / 1000
  let transit := recvMs - sendMs
  { s with
    receipt :=
      match s.lastTransitMs with
      | some prev => { s.receipt with jitterMs := jitterUpdate s.receipt.jitterMs (transit - prev) }
      | none => s.receipt
    lastTransitMs := some transit }

/-- What one datagram of at least header length does to its stream. -/
def receive (omitWindow now : Nat) (payload : Bytes) (s : StreamState) : StreamState :=
  match UdpHeader.decode (payload.take udpHeaderLen) with
  | .error _ => s
  | .ok hdr =>
    if hdr.isSentinel then { s with sawSentinel := true }
    else countJitter now hdr (countSeq hdr.seq (countBytes omitWindow now payload.length s))

end StreamState

/-! ## The receiver loop -/

/-- The datagram branch of the loop body: short datagrams and unregistered sources are skipped. -/
def receiveDatagram (omitWindow now : Nat) (d : Datagram) (states : Table SocketAddr StreamState) :
    Table SocketAddr StreamState :=
  if d.payload.length < udpHeaderLen then states
  else states.modify d.src (StreamState.receive omitWindow now d.payload)

/-- The outcome of one `recv_from`; `wouldBlock` also covers a timeout and carries the value of
    the stop flag that this branch loads. -/
inductive RecvOutcome
  | datagram (now : Nat) (d : Datagram)
  | wouldBlock (stop : Bool)
  | failed

/-- One iteration of the loop: the stop flag at its top, the two clock readings of the grace
    period (arming it, checking it), and what `recv_from` returned. -/
structure Tick where
  stop : Bool
  armAt : Nat
  checkAt : Nat
  outcome : RecvOutcome

structure Receiver where
  states : Table SocketAddr StreamState
  graceDeadline : Option Nat

def graceNanos : Nat := 500000000

/-- The check at the top of the loop: does the raised stop flag end it? -/
def Receiver.checkStop (t : Tick) (r : Receiver) : Receiver × Bool :=
  if t.stop then
    let deadline := r.graceDeadline.getD (t.armAt + graceNanos)
    ({ r with graceDeadline := some deadline },
      r.states.entries.all (fun e => e.2.sawSentinel) || decide (deadline ≤ t.checkAt))
  else (r, false)

/-- One iteration: the receiver afterwards, and whether the loop is left. -/
def Receiver.tick (omitWindow : Nat) (t : Tick) (r : Receiver) : Receiver × Bool :=
  let (r, leave) := r.checkStop t
  if leave then (r, true)
  else
    match t.outcome with
    | .datagram now d => ({ r with states := receiveDatagram omitWindow now d r.states }, false)
    | .wouldBlock stop => (r, stop)
    | .failed => (r, true)

/-- Iterate until a tick leaves the loop. -/
def Receiver.loop (omitWindow : Nat) : List Tick → Receiver → Option Receiver
  | [], _ => none
  | t :: ts, r =>
    match r.tick omitWindow t with
    | (r', true) => some r'
    | (r', false) => Receiver.loop omitWindow ts r'

/-- The initial states: one fresh entry per registered address. -/
def initialStates (streamOrder : List SocketAddr) : Table SocketAddr StreamState :=
  streamOrder.foldl (fun m a => m.insert a StreamState.new) ∅

/-- The receipts in registration order, each state taken out of the map once. -/
def collectReceipts : List SocketAddr → Table SocketAddr StreamState → List StreamReceipt
  | [], _ => []
  | a :: as, states =>
    ((states.lookup a).map StreamState.receipt).getD StreamReceipt.empty ::
      collectReceipts as (states.erase a)

/-- `run_udp_receiver`. -/
def runUdpReceiver (streamOrder : List SocketAddr) (omitWindow : Nat) (ticks : List Tick) :
    Option (List StreamReceipt) :=
  (Receiver.loop omitWindow ticks ⟨initialStates streamOrder, none⟩).map fun r =>
    collectReceipts streamOrder r.states

/-! ## Demultiplexing -/

/-- A datagram with the instant at which the receiver read it. -/
structure Arrival where
  now : Nat
  datagram : Datagram

/-- All the given arrivals, one after the other. -/
def receiveAll (omitWindow : Nat) (as : List Arrival) (states : Table SocketAddr StreamState) :
    Table SocketAddr StreamState :=
  as.foldl (fun m a => receiveDatagram omitWindow a.now a.datagram m) states

/-- What one arrival of a stream's own address does to it. -/
def receiveArrival (omitWindow : Nat) (s : StreamState) (a : Arrival) : StreamState :=
  if a.datagram.payload.length < udpHeaderLen then s
  else StreamState.receive omitWindow a.now a.datagram.payload s

theorem lookup_receiveDatagram (omitWindow now : Nat) (d : Datagram)
    (states : Table SocketAddr StreamState) (a : SocketAddr) :
    (receiveDatagram omitWindow now d states).lookup a =
      if d.src = a then (states.lookup a).map (receiveArrival omitWindow · ⟨now, d⟩)
      else states.lookup a := by
  unfold receiveDatagram receiveArrival
  by_cases hlen : d.payload.length < udpHeaderLen
  · simp only [if_pos hlen, Option.map_id', ite_self]
  · simp only [if_neg hlen]
    by_cases hsrc : d.src = a
    · subst hsrc
      rw [if_pos rfl, Table.lookup_modify_self]
    · rw [if_neg hsrc, Table.lookup_modify_ne _ _ (Ne.symm hsrc)]

/-- **Demultiplexing.**  A registered stream sees exactly the arrivals of its own address. -/
theorem lookup_receiveAll (omitWindow : Nat) (as : List Arrival) (a : SocketAddr) :
    ∀ states : Table SocketAddr StreamState,
      (receiveAll omitWindow as states).lookup a =
        (states.lookup a).map fun s =>
          (as.filter fun x => x.datagram.src = a).foldl (receiveArrival omitWindow) s := by
  induction as with
  | nil =>
    intro states
    exact Option.map_id'.symm
  | cons x as ih =>
    intro states
    show (receiveAll omitWindow as
      (receiveDatagram omitWindow x.now x.datagram states)).lookup a = _
    rw [ih, lookup_receiveDatagram]
    by_cases hsrc : x.datagram.src = a
    · rw [if_pos hsrc, List.filter_cons_of_pos (by simpa using hsrc), Option.map_map]
      rfl
    · rw [if_neg hsrc, List.filter_cons_of_neg (by simpa using hsrc)]

/-- Every registered address starts fresh. -/
theorem lookup_initialStates {streamOrder : List SocketAddr} {a : SocketAddr}
    (h : a ∈ streamOrder) :
    (initialStates streamOrder).lookup a = some StreamState.new := by
  have hfold : ∀ (as : List SocketAddr) (m : Table SocketAddr StreamState),
      (a ∈ as ∨ m.lookup a = some StreamState.new) →
      (as.foldl (fun m a => m.insert a StreamState.new) m).lookup a = some StreamState.new := by
    intro as
    induction as with
    | nil =>
      rintro m (hmem | hm)
      · exact absurd hmem List.not_mem_nil
      · exact hm
    | cons b as ih =>
      intro m hor
      refine ih _ ?_
      by_cases hab : a = b
      · subst hab
        exact Or.inr (AList.lookup_insert m)
      · rcases hor with hmem | hm
        · exact Or.inl ((List.mem_cons.mp hmem).resolve_left hab)
        · exact Or.inr (by rw [AList.lookup_insert_ne hab, hm])
  exact hfold streamOrder ∅ (Or.inl h)

/-- With distinct addresses, taking the states out one by one reads each of them. -/
theorem collectReceipts_eq_map : ∀ (order : List SocketAddr)
    (states : Table SocketAddr StreamState),
    order.Nodup → collectReceipts order states =
      order.map fun a => ((states.lookup a).map StreamState.receipt).getD StreamReceipt.empty := by
  intro order
  induction order with
  | nil => intro states _; rfl
  | cons a as ih =>
    intro states hnd
    obtain ⟨hna, hnd'⟩ := List.nodup_cons.mp hnd
    rw [collectReceipts, ih _ hnd', List.map_cons]
    congr 1
    apply List.map_congr_left
    intro b hb
    have hba : b ≠ a := fun h => hna (h ▸ hb)
    rw [AList.lookup_erase_ne hba]

end Rperf3
