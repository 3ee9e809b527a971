/-
  THE SEVEN DATA LOOPS, each by what its source has in place of the parameters.

  | loop                   | limits | pacer | rows       | flush | ends on              |
  |------------------------|--------|-------|------------|-------|----------------------|
  | `Stream::start`        | both   |       | not `json` | yes   | errors but EAGAIN    |
  | `Stream::start_udp`    | both   | yes   |            |       | errors               |
  | `Stream::start_recv`   |        |       | not `json` | yes   | end, errors but EINTR |
  | `start_udp_recv`       |        |       | not `json` | no    | errors but timeouts  |
  | `recv_stream_bytes`    |        |       | if asked   | yes   | end, errors but EINTR |
  | `run_tcp_send_streams` | both   |       | yes        | no    | errors but EAGAIN    |
  | `run_udp_send_streams` | none   | yes   | yes        | no    | errors               |
-/
import Rperf3.Common.TcpStream
import Rperf3.Server.StreamReader
import Rperf3.Server.UdpReverse
import Rperf3.Transfer.DataLoop

namespace Rperf3

open WindowTally

/-- `Duration::from_secs((time + omit) as u64)`; the sum is a `u32`. -/
def totalDuration (time omitSecs : Nat) : Nat := fromSecs ((time + omitSecs) % 2 ^ 32)

/-- The byte account in a client's receipt. -/
def ClientStreamReceipt.tally (r : ClientStreamReceipt) : Tally Nat :=
  ⟨r.bytesSent, r.bytesOmit, r.firstSendAt, r.firstMeasuredAt, r.lastSendAt⟩

/-- The byte account in a server's receipt. -/
def StreamReceipt.tally (r : StreamReceipt) : Tally Nat :=
  ⟨r.bytes, r.bytesOmit, r.firstByteAt, r.firstMeasuredAt, r.lastByteAt⟩

/-- A server's receipt after a datagram of `n` bytes. -/
def StreamReceipt.recordPacket (omitWindow now n : Nat) (r : StreamReceipt) : StreamReceipt :=
  { r.recordBytes omitWindow now n with packets := r.packets + 1 }

/-! ## The client's loops -/

/-- The receive buffers of the client. -/
def recvBufLen (cfg : Config) : Nat := max cfg.len 65536

/-- The loop of `Stream::start`. -/
def startLoop (cfg : Config) (streamId : Nat) : DataLoop ClientStreamReceipt where
  len := cfg.len
  budget := some (totalDuration cfg.time cfg.omitSecs)
  maxBytes := cfg.totalBytes
  maxBlocks := cfg.totalBlocks
  rate := none
  zeroEnds := false
  retries kind := kind = .wouldBlock
  omitWindow := fromSecs cfg.omitSecs
  reports := if cfg.json then none else some streamId
  flushes := true
  empty := .empty streamId
  record := recordTcp (fromSecs cfg.omitSecs)
  tally := ClientStreamReceipt.tally
  tally_empty := rfl
  tally_record _ _ _ := rfl

/-- The loop of `Stream::start_udp`. -/
def startUdpLoop (cfg : Config) (streamId : Nat) : DataLoop ClientStreamReceipt where
  len := cfg.len
  budget := some (totalDuration cfg.time cfg.omitSecs)
  maxBytes := cfg.totalBytes
  maxBlocks := cfg.totalBlocks
  rate := some cfg.bandwidth
  zeroEnds := false
  retries _ := false
  omitWindow := fromSecs cfg.omitSecs
  reports := none
  flushes := false
  empty := .empty streamId
  record := recordSend (fromSecs cfg.omitSecs)
  tally := ClientStreamReceipt.tally
  tally_empty := rfl
  tally_record _ _ _ := rfl

/-- The loop of `Stream::start_recv`. -/
def startRecvLoop (cfg : Config) (streamId : Nat) : DataLoop ClientStreamReceipt where
  len := recvBufLen cfg
  budget := some (totalDuration cfg.time cfg.omitSecs)
  maxBytes := none
  maxBlocks := none
  rate := none
  zeroEnds := true
  retries kind := kind = .interrupted
  omitWindow := fromSecs cfg.omitSecs
  reports := if cfg.json then none else some streamId
  flushes := true
  empty := .empty streamId
  record := recordTcp (fromSecs cfg.omitSecs)
  tally := ClientStreamReceipt.tally
  tally_empty := rfl
  tally_record _ _ _ := rfl

/-- The loop of `Stream::start_udp_recv`. -/
def startUdpRecvLoop (cfg : Config) (streamId : Nat) : DataLoop ClientStreamReceipt where
  len := recvBufLen cfg
  budget := some (totalDuration cfg.time cfg.omitSecs)
  maxBytes := none
  maxBlocks := none
  rate := none
  zeroEnds := false
  retries kind := kind = .wouldBlock ∨ kind = .timedOut
  omitWindow := fromSecs cfg.omitSecs
  reports := if cfg.json then none else some streamId
  flushes := false
  empty := .empty streamId
  record := recordSend (fromSecs cfg.omitSecs)
  tally := ClientStreamReceipt.tally
  tally_empty := rfl
  tally_record _ _ _ := rfl

/-! ## The server's loops -/

/-- The loop of `recv_stream_bytes`: no time test at all. -/
def recvStreamBytesLoop (omitWindow : Nat) (reporter : Option Nat) : DataLoop StreamReceipt where
  len := defaultTcpLen
  budget := none
  maxBytes := none
  maxBlocks := none
  rate := none
  zeroEnds := true
  retries kind := kind = .interrupted
  omitWindow := omitWindow
  reports := reporter
  flushes := true
  empty := .empty
  record := StreamReceipt.recordBytes omitWindow
  tally := StreamReceipt.tally
  tally_empty := rfl
  tally_record _ _ _ := rfl

/-- The loop of a `run_tcp_send_streams` thread. -/
def runTcpSendStreamsLoop (opts : ClientOptions) (streamId : Nat) : DataLoop StreamReceipt where
  len := opts.len
  budget := some (totalDuration opts.time opts.omitSecs)
  maxBytes := opts.totalBytes
  maxBlocks := opts.totalBlocks
  rate := none
  zeroEnds := false
  retries kind := kind = .wouldBlock
  omitWindow := fromSecs opts.omitSecs
  reports := some streamId
  flushes := false
  empty := .empty
  record := StreamReceipt.recordBytes (fromSecs opts.omitSecs)
  tally := StreamReceipt.tally
  tally_empty := rfl
  tally_record _ _ _ := rfl

/-- The loop of a `run_udp_send_streams` thread: `total_bytes` and `total_blocks` are not read. -/
def runUdpSendStreamsLoop (opts : ClientOptions) (streamId : Nat) : DataLoop StreamReceipt where
  len := reverseLen opts
  budget := some (totalDuration opts.time opts.omitSecs)
  maxBytes := none
  maxBlocks := none
  rate := some opts.bandwidth
  zeroEnds := false
  retries _ := false
  omitWindow := fromSecs opts.omitSecs
  reports := some streamId
  flushes := false
  empty := .empty
  record := StreamReceipt.recordPacket (fromSecs opts.omitSecs)
  tally := StreamReceipt.tally
  tally_empty := rfl
  tally_record _ _ _ := rfl

end Rperf3
