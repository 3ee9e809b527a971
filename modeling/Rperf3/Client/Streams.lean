/-
  `client.rs`: the options a client sends and the stream threads it starts.

  Every thread of `create_streams` opens ONE data connection (TCP: `connect` sends the cookie first;
  UDP: its own socket, whose first datagram is the cookie) and reports ONE receipt when it ends, so
  the number of threads is what both the server's stream count and the client's end-of-test count
  have to agree with.
-/
import Rperf3.Common.Config

namespace Rperf3

/-- `Config::host_port`. -/
def Config.hostPort (cfg : Config) : String := cfg.host ++ ":" ++ toString cfg.port

/-- `send_options`; `authtoken` is the token built from the public key and the user's password,
    if these are configured and loading and encryption succeed. -/
def sendOptions (cfg : Config) (authtoken : Option String) : ClientOptions :=
  { ClientOptions.tcpDefaults cfg.time cfg.parallel cfg.len with
    omitSecs := cfg.omitSecs
    udp := cfg.transport.isUdp
    bandwidth := cfg.bandwidth
    tcp := !cfg.transport.isUdp
    reverse := cfg.direction.isReverse
    bidirectional := cfg.direction.isBidirectional
    windowSize := cfg.windowSize
    mss := cfg.mss
    congestion := cfg.congestion
    tos := cfg.tos
    totalBytes := cfg.totalBytes
    totalBlocks := cfg.totalBlocks
    authtoken := authtoken }

/-! ## Stream threads -/

/-- `Stream::start`, `start_udp`, `start_recv`, `start_udp_recv`. -/
inductive StreamKind
  | tcpSend | udpSend | tcpRecv | udpRecv
  deriving DecidableEq, Repr

structure StreamThread where
  kind : StreamKind
  host : String
  streamId : Nat
  deriving DecidableEq, Repr

/-- The threads started for one stream id. -/
def streamThreads (cfg : Config) (dataHost : String) (streamId : Nat) : List StreamThread :=
  (if cfg.direction.clientSends then
    [if cfg.transport.isUdp then ⟨.udpSend, dataHost, streamId⟩
      else ⟨.tcpSend, cfg.hostPort, streamId⟩]
  else []) ++
  (if cfg.direction.clientReceives then
    [if cfg.transport.isUdp then ⟨.udpRecv, dataHost, streamId⟩
      else ⟨.tcpRecv, cfg.hostPort, streamId⟩]
  else [])

/-- `create_streams`: the threads it starts, in order. -/
def createStreams (cfg : Config) (dataPortOverride : Option Nat) : List StreamThread :=
  let dataHost := cfg.host ++ ":" ++ toString (dataPortOverride.getD cfg.port)
  (List.range' 1 (max cfg.parallel 1)).flatMap (streamThreads cfg dataHost)

/-- `expected_streams` of `client_loop`. -/
def expectedStreams (cfg : Config) : Nat :=
  max cfg.parallel 1 * (if cfg.direction.isBidirectional then 2 else 1)

theorem length_streamThreads (cfg : Config) (dataHost : String) (streamId : Nat) :
    (streamThreads cfg dataHost streamId).length =
      if cfg.direction.isBidirectional then 2 else 1 := by
  unfold streamThreads
  cases cfg.direction with
  | forward => rfl
  | reverse => rfl
  | bidirectional => rfl

/-- **The client waits for as many threads as it starts.** -/
theorem length_createStreams (cfg : Config) (dataPortOverride : Option Nat) :
    (createStreams cfg dataPortOverride).length = expectedStreams cfg := by
  unfold createStreams expectedStreams
  rw [List.length_flatMap,
    List.map_congr_left (fun streamId _ => length_streamThreads cfg _ streamId), List.map_const',
    List.length_range', List.sum_replicate_nat]

/-- As many threads as streams, except in a bidirectional test. -/
theorem expectedStreams_eq_iff {cfg : Config} (h : 1 ≤ cfg.parallel) :
    expectedStreams cfg = cfg.parallel ↔ cfg.direction ≠ .bidirectional := by
  unfold expectedStreams
  rw [Nat.max_eq_left h]
  cases cfg.direction with
  | forward => simp [Direction.isBidirectional]
  | reverse => simp [Direction.isBidirectional]
  | bidirectional =>
    simp only [Direction.isBidirectional, if_true, ne_eq, not_true, iff_false]
    omega

theorem expectedStreams_pos (cfg : Config) : 0 < expectedStreams cfg := by
  unfold expectedStreams
  split
  · omega
  · omega

theorem le_expectedStreams (cfg : Config) : cfg.parallel ≤ expectedStreams cfg := by
  unfold expectedStreams
  split
  · omega
  · omega

end Rperf3
