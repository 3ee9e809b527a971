/-
  `common/stream.rs`, the UDP sender thread (`Stream::start_udp`).

  The thread's environment is a list of `UdpTurn`s, one per loop iteration: whether the time is up,
  whether the token bucket asks for a pause, the wall clock, and what `send` returned.  `startUdp`
  gives the datagrams handed to the network and the receipt of the thread, `none` while it runs.

  `UdpSender` is the SHAPE of what such a thread emits — the cookie, data datagrams numbered
  `0 .. k-1`, the sentinel — with the bounds that make it so as fields.  `startUdp_emits` connects
  the two: every run whose cookie and sentinel are sent has that shape, with `k` the packet count
  of the thread's own receipt.
-/
import Rperf3.Common.Config
import Rperf3.Common.Cookie
import Rperf3.Common.UdpHeader

namespace Rperf3

/-- `build_payload`. -/
def buildPayload (len : Nat) : Bytes := List.replicate len 1

/-- The packet buffer after the header has been encoded into its front. -/
def dataPacket (len : Nat) (hdr : UdpHeader) : Bytes :=
  hdr.bytes ++ buildPayload (len - udpHeaderLen)

/-- The end-of-test datagram: a header with sequence number `-1`. -/
def sentinelPacket (tvSec tvUsec : BitVec 32) : Bytes :=
  (UdpHeader.mk tvSec tvUsec (BitVec.ofInt 64 (-1))).bytes

/-- What one iteration of the send loop meets. -/
structure UdpTurn where
  elapsed : Bool
  mustWait : Bool
  tvSec : BitVec 32
  tvUsec : BitVec 32
  sent : Except IoError Nat
  sentAt : Nat

/-- What the thread meets outside the loop. -/
structure UdpEnv where
  bound : Bool
  connected : Bool
  cookieSent : Bool
  turns : List UdpTurn
  sentinelSec : BitVec 32
  sentinelUsec : BitVec 32
  sentinelSent : Bool

/-- Do the byte or block limits end the loop? -/
def limitReached (len : Nat) (maxBytes maxBlocks : Option Nat) (bytesSent : Nat) : Bool :=
  maxBytes.any (· ≤ bytesSent) || maxBlocks.any (· ≤ bytesSent / len)

/-- The receipt after a successful send of `n` bytes at `sentAt`. -/
def recordSend (omitWindow sentAt n : Nat) (r : ClientStreamReceipt) : ClientStreamReceipt :=
  let first := r.firstSendAt.getD sentAt
  let inOmit := decide (sentAt - first < omitWindow)
  { r with
    firstSendAt := some first
    lastSendAt := some sentAt
    bytesSent := r.bytesSent + n
    packets := r.packets + 1
    bytesOmit := if inOmit then r.bytesOmit + n else r.bytesOmit
    firstMeasuredAt :=
      if inOmit then r.firstMeasuredAt else some (r.firstMeasuredAt.getD sentAt) }

/-- The send loop: the data datagrams sent and the receipt when it ends. -/
def udpSendLoop (len omitWindow : Nat) (maxBytes maxBlocks : Option Nat) :
    List UdpTurn → Nat → ClientStreamReceipt → Option (List Bytes × ClientStreamReceipt)
  | [], _, _ => none
  | t :: ts, seq, r =>
    if t.elapsed then some ([], r)
    else if limitReached len maxBytes maxBlocks r.bytesSent then some ([], r)
    else if t.mustWait then udpSendLoop len omitWindow maxBytes maxBlocks ts seq r
    else
      match t.sent with
      | .ok n =>
        if 0 < n then
          (udpSendLoop len omitWindow maxBytes maxBlocks ts (seq + 1)
              (recordSend omitWindow t.sentAt n r)).map fun (sent, r') =>
            (dataPacket len ⟨t.tvSec, t.tvUsec, BitVec.ofNat 64 seq⟩ :: sent, r')
        else udpSendLoop len omitWindow maxBytes maxBlocks ts seq r
      | .error _ => some ([], r)

/-- `Stream::start_udp`: the datagrams the thread emits and the receipt it reports. -/
def startUdp (cfg : Config) (cookie : Bytes) (streamId : Nat) (env : UdpEnv) :
    Option (List Bytes × ClientStreamReceipt) :=
  let receipt := ClientStreamReceipt.empty streamId
  if !env.bound then some ([], receipt)
  else if !env.connected then some ([], receipt)
  else if !env.cookieSent then some ([], receipt)
  else if cfg.len < udpHeaderLen then some ([cookie], receipt)
  else
    (udpSendLoop cfg.len (fromSecs cfg.omitSecs) cfg.totalBytes cfg.totalBlocks env.turns 0
        receipt).map fun (sent, r) =>
      (cookie :: sent ++
        (if env.sentinelSent then [sentinelPacket env.sentinelSec env.sentinelUsec] else []), r)

/-! ## The shape of a sender's emission -/

/-- A sender's data datagrams: one per clock reading, numbered from `seq`. -/
def dataPackets (len : Nat) : Nat → List (BitVec 32 × BitVec 32) → List Bytes
  | _, [] => []
  | seq, (s, u) :: stamps =>
    dataPacket len ⟨s, u, BitVec.ofNat 64 seq⟩ :: dataPackets len (seq + 1) stamps

/-- One UDP stream of a client: where it sends from and what it sends.  The sequence counter is an
    `i64` that is incremented after every send, so fewer than `2^63` datagrams are numbered. -/
structure UdpSender where
  addr : SocketAddr
  len : Nat
  stamps : List (BitVec 32 × BitVec 32)
  sentinelSec : BitVec 32
  sentinelUsec : BitVec 32
  header_le_len : udpHeaderLen ≤ len
  count_lt : stamps.length < 2 ^ 63

namespace UdpSender

/-- Number of data datagrams. -/
def count (s : UdpSender) : Nat := s.stamps.length

/-- The datagrams in sending order. -/
def emission (cookie : Bytes) (s : UdpSender) : List Bytes :=
  cookie :: dataPackets s.len 0 s.stamps ++ [sentinelPacket s.sentinelSec s.sentinelUsec]

end UdpSender

/-- What the loop sends is numbered consecutively, and counted in the receipt. -/
theorem udpSendLoop_eq {len omitWindow : Nat} {maxBytes maxBlocks : Option Nat} :
    ∀ (turns : List UdpTurn) (seq : Nat) (r : ClientStreamReceipt) {sent : List Bytes}
      {r' : ClientStreamReceipt},
      udpSendLoop len omitWindow maxBytes maxBlocks turns seq r = some (sent, r') →
      ∃ stamps, sent = dataPackets len seq stamps ∧ r'.packets = r.packets + stamps.length := by
  intro turns
  induction turns with
  | nil =>
    intro seq r sent r' h
    cases h
  | cons t ts ih =>
    intro seq r sent r' h
    rw [udpSendLoop] at h
    split at h
    · cases h
      exact ⟨[], rfl, rfl⟩
    split at h
    · cases h
      exact ⟨[], rfl, rfl⟩
    split at h
    · exact ih seq r h
    split at h
    · split at h
      · obtain ⟨⟨sent', r''⟩, hrest, heq⟩ := Option.map_eq_some_iff.mp h
        cases heq
        obtain ⟨stamps, rfl, hcount⟩ := ih (seq + 1) _ hrest
        refine ⟨(t.tvSec, t.tvUsec) :: stamps, rfl, ?_⟩
        rw [hcount, List.length_cons]
        show r.packets + 1 + stamps.length = _
        omega
      · exact ih seq r h
    · cases h
      exact ⟨[], rfl, rfl⟩

/-- **A finished sender thread emitted the shape**: cookie, `0 .. k-1`, sentinel, where `k` is the
    packet count of its receipt. -/
theorem startUdp_emits {cfg : Config} {cookie : Bytes} {streamId : Nat} {env : UdpEnv}
    {sent : List Bytes} {r : ClientStreamReceipt} (addr : SocketAddr)
    (hrun : startUdp cfg cookie streamId env = some (sent, r))
    (hbound : env.bound = true) (hconn : env.connected = true) (hcookie : env.cookieSent = true)
    (hsentinel : env.sentinelSent = true) (hlen : udpHeaderLen ≤ cfg.len)
    (hcount : r.packets < 2 ^ 63) :
    ∃ s : UdpSender, s.addr = addr ∧ s.emission cookie = sent ∧ s.count = r.packets := by
  unfold startUdp at hrun
  simp only [hbound, hconn, hcookie, hsentinel, Bool.not_true, Bool.false_eq_true, if_false,
    if_true, if_neg (Nat.not_lt.mpr hlen)] at hrun
  obtain ⟨⟨data, r'⟩, hloop, heq⟩ := Option.map_eq_some_iff.mp hrun
  cases heq
  obtain ⟨stamps, rfl, hpackets⟩ := udpSendLoop_eq env.turns 0 _ hloop
  have hempty : (ClientStreamReceipt.empty streamId).packets = 0 := rfl
  rw [hempty, Nat.zero_add] at hpackets
  exact ⟨⟨addr, cfg.len, stamps, env.sentinelSec, env.sentinelUsec, hlen, hpackets ▸ hcount⟩, rfl,
    rfl, hpackets.symm⟩

end Rperf3
