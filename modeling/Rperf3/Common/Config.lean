/-
  `common/test.rs`, `common/direction.rs`, `common/transport_kind.rs` and the two receipt records.

  `Config` keeps the fields that some modelled function reads; presentation-only fields (title,
  logfile, affinity, format unit, zero-copy stub) are left out.  `Instant`s and `Duration`s are
  naturals counting NANOSECONDS, the resolution of the standard library's clocks.
-/
import Rperf3.Common.Wire

namespace Rperf3

/-- A peer's address; an IP address is its number. -/
structure SocketAddr where
  ip : Nat
  port : Nat
  deriving DecidableEq, Repr

/-- Nanoseconds per second. -/
def nanos : Nat := 1000000000

/-- `Duration::from_secs`. -/
def fromSecs (s : Nat) : Nat := s * nanos

/-! ## Direction and transport -/

inductive Direction
  | forward | reverse | bidirectional
  deriving DecidableEq, Repr

namespace Direction

def isReverse : Direction → Bool
  | reverse => true
  | _ => false

def isBidirectional : Direction → Bool
  | bidirectional => true
  | _ => false

def clientSends : Direction → Bool
  | forward | bidirectional => true
  | reverse => false

def clientReceives : Direction → Bool
  | reverse | bidirectional => true
  | forward => false

end Direction

inductive TransportKind
  | tcp | udp
  deriving DecidableEq, Repr

def TransportKind.isUdp : TransportKind → Bool
  | udp => true
  | tcp => false

/-! ## Runtime configuration -/

/-- Runtime configuration of one test. -/
structure Config where
  host : String
  port : Nat
  time : Nat
  parallel : Nat
  len : Nat
  omitSecs : Nat
  transport : TransportKind
  bandwidth : Nat
  oneOff : Bool
  maxConcurrent : Nat
  direction : Direction
  json : Bool
  windowSize : Option Nat
  mss : Option Nat
  congestion : Option String
  tos : Option Nat
  totalBytes : Option Nat
  totalBlocks : Option Nat
  deriving DecidableEq, Repr

/-- `Config::with_host`: TCP, 10 s, one stream, 128 KiB writes. -/
def Config.withHost (host : String) : Config where
  host := host
  port := 5201
  time := 10
  parallel := 1
  len := defaultTcpLen
  omitSecs := 0
  transport := .tcp
  bandwidth := 0
  oneOff := false
  maxConcurrent := 1
  direction := .forward
  json := false
  windowSize := none
  mss := none
  congestion := none
  tos := none
  totalBytes := none
  totalBlocks := none

/-! ## Receipts -/

/-- What a client stream thread reports on exit. -/
structure ClientStreamReceipt where
  streamId : Nat
  bytesSent : Nat
  bytesOmit : Nat
  firstSendAt : Option Nat
  firstMeasuredAt : Option Nat
  lastSendAt : Option Nat
  retransmits : Nat
  jitterMs : ℚ
  lost : Nat
  ooo : Nat
  packets : Nat
  deriving DecidableEq

/-- `ClientStreamReceipt::empty`. -/
def ClientStreamReceipt.empty (streamId : Nat) : ClientStreamReceipt where
  streamId := streamId
  bytesSent := 0
  bytesOmit := 0
  firstSendAt := none
  firstMeasuredAt := none
  lastSendAt := none
  retransmits := 0
  jitterMs := 0
  lost := 0
  ooo := 0
  packets := 0

/-- What a server reader or sender thread observed. -/
structure StreamReceipt where
  bytes : Nat
  bytesOmit : Nat
  firstByteAt : Option Nat
  firstMeasuredAt : Option Nat
  lastByteAt : Option Nat
  jitterMs : ℚ
  lost : Nat
  ooo : Nat
  packets : Nat
  deriving DecidableEq

/-- `StreamReceipt::empty`. -/
def StreamReceipt.empty : StreamReceipt where
  bytes := 0
  bytesOmit := 0
  firstByteAt := none
  firstMeasuredAt := none
  lastByteAt := none
  jitterMs := 0
  lost := 0
  ooo := 0
  packets := 0

/-- The byte account of the server's threads: `n` bytes at `now`, the omit window counted from the
    first byte. -/
def StreamReceipt.recordBytes (omitWindow now n : Nat) (r : StreamReceipt) : StreamReceipt :=
  let first := r.firstByteAt.getD now
  let inOmit := decide (now - first < omitWindow)
  { r with
    firstByteAt := some first
    lastByteAt := some now
    bytes := r.bytes + n
    bytesOmit := if inOmit then r.bytesOmit + n else r.bytesOmit
    firstMeasuredAt :=
      if inOmit then r.firstMeasuredAt else some (r.firstMeasuredAt.getD now) }

end Rperf3
