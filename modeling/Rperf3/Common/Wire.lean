/-
  The control channel's vocabulary: `common/mod.rs` (`Message`), `common/wire.rs` (`ClientOptions`,
  `Results`) and the I/O errors the session drivers tell apart.

  The control channel carries three kinds of unit — a one-byte `Message`, a two-byte port number
  and a length-prefixed JSON body.  `Item` is one such unit; a channel is a FIFO list of items.
  Floating-point fields are exact rationals, machine integers are naturals: no function modelled
  here depends on their width except through the explicit `checkedAdd32`.
-/
import Mathlib.Algebra.Ring.Nat
import Mathlib.Data.Rat.Defs

namespace Rperf3

abbrev Bytes := List UInt8

/-! ## Errors -/

/-- The `io::ErrorKind`s that the modelled code produces or inspects. -/
inductive ErrorKind
  | invalidInput | invalidData | permissionDenied | unexpectedEof | connectionReset | brokenPipe
  | timedOut | wouldBlock | interrupted | writeZero | unsupported | other
  deriving DecidableEq, Repr

/-- An `io::Error`: its kind and its text. -/
structure IoError where
  kind : ErrorKind
  msg : String
  deriving DecidableEq, Repr

/-- `is_peer_closed`: the error kinds that mean "the peer closed the control channel". -/
def isPeerClosed (e : IoError) : Bool :=
  match e.kind with
  | .unexpectedEof | .connectionReset | .brokenPipe => true
  | _ => false

/-! ## Control messages -/

/-- The one-byte control messages of `common/mod.rs`. -/
inductive Message
  | testStart | testRunning | resultRequest | testEnd | streamBegin | streamRunning | streamEnd
  | allStreamsEnd | paramExchange | createStreams | serverTerminate | clientTerminate
  | exchangeResults | displayResults | iperfStart | iperfDone | setDataPort
  | accessDenied | serverError
  deriving DecidableEq, Repr

/-! ## JSON payloads -/

def clientVersion : String := "3.1.3"

def defaultTcpLen : Nat := 131072

/-- Options sent during ParamExchange. -/
structure ClientOptions where
  tcp : Bool
  omitSecs : Nat
  time : Nat
  parallel : Nat
  len : Nat
  clientVersion : String
  udp : Bool
  bandwidth : Nat
  reverse : Bool
  bidirectional : Bool
  windowSize : Option Nat
  mss : Option Nat
  congestion : Option String
  tos : Option Nat
  totalBytes : Option Nat
  totalBlocks : Option Nat
  authtoken : Option String
  deriving DecidableEq, Repr

/-- `ClientOptions::tcp_defaults`. -/
def ClientOptions.tcpDefaults (timeSecs parallel len : Nat) : ClientOptions where
  tcp := true
  omitSecs := 0
  time := timeSecs
  parallel := parallel
  len := len
  clientVersion := Rperf3.clientVersion
  udp := false
  bandwidth := 0
  reverse := false
  bidirectional := false
  windowSize := none
  mss := none
  congestion := none
  tos := none
  totalBytes := none
  totalBlocks := none
  authtoken := none

/-- Per-stream accounting reported at ExchangeResults time. -/
structure StreamResults where
  id : Nat
  bytes : Nat
  retransmits : Int
  jitter : ℚ
  errors : Nat
  packets : Nat
  deriving DecidableEq

/-- Full results payload exchanged at the end of a test. -/
structure Results where
  cpuUtilTotal : ℚ
  cpuUtilUser : ℚ
  cpuUtilSystem : ℚ
  senderHasRetransmits : Int
  streams : List StreamResults
  deriving DecidableEq

/-- Process-CPU percentages, as `cpu::usage` returns them. -/
structure CpuUsage where
  totalPct : ℚ
  userPct : ℚ
  systemPct : ℚ
  deriving DecidableEq

/-- `CpuUsage::ZERO`. -/
def CpuUsage.zero : CpuUsage := ⟨0, 0, 0⟩

/-! ## The units of the control channel -/

/-- One unit of the control stream: `send_control_byte`, `send_u16_be` or `send_framed_json`. -/
inductive Item
  | byte (m : Message)
  | port (p : Nat)
  | options (o : ClientOptions)
  | results (r : Results)
  deriving DecidableEq

/-- `u32::checked_add`. -/
def checkedAdd32 (a b : Nat) : Option Nat :=
  if a + b < 2 ^ 32 then some (a + b) else none

end Rperf3
