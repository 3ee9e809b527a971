/-
  The REVERSE direction over UDP: one server sender thread, one client receiver thread.

  The server's thread (`run_udp_send_streams`) numbers its datagrams and ends with a sentinel, just
  as a client sender does.  The client's receiver (`Stream::start_udp_recv`) never looks inside a
  datagram: everything that arrives on its socket is counted — also the stream acknowledgement that
  `accept_udp_streams` sends to every registered source, and the sentinel.  The server-style
  receiver on the same datagrams counts the data alone, which is what the sender counted.

  So the two receivers differ by exactly the acknowledgement (4 bytes) and the sentinel (16 bytes),
  whenever these arrive inside the client's window.
-/
import Rperf3.Server.UdpLoss

namespace Rperf3

/-! ## The server's sender thread -/

/-- `b"6789"`, the acknowledgement of a stream-init. -/
def udpStreamAck : Bytes := [54, 55, 56, 57]

/-- The send loop of a `run_udp_send_streams` thread: the data datagrams and the receipt. -/
def udpSendStreamLoop (len omitWindow : Nat) :
    List UdpTurn → Nat → StreamReceipt → Option (List Bytes × StreamReceipt)
  | [], _, _ => none
  | t :: ts, seq, r =>
    if t.elapsed then some ([], r)
    else if t.mustWait then udpSendStreamLoop len omitWindow ts seq r
    else
      match t.sent with
      | .ok n =>
        if 0 < n then
          (udpSendStreamLoop len omitWindow ts (seq + 1)
              { r.recordBytes omitWindow t.sentAt n with packets := r.packets + 1 }).map
            fun (sent, r') =>
              (dataPacket len ⟨t.tvSec, t.tvUsec, BitVec.ofNat 64 seq⟩ :: sent, r')
        else udpSendStreamLoop len omitWindow ts seq r
      | .error _ => some ([], r)

/-- What such a thread meets: the turns of its loop and the clock at the sentinel. -/
structure UdpSendEnv where
  turns : List UdpTurn
  sentinelSec : BitVec 32
  sentinelUsec : BitVec 32
  sentinelSent : Bool

/-- The datagram size of the reverse direction: never less than the header. -/
def reverseLen (opts : ClientOptions) : Nat := max opts.len udpHeaderLen

/-- One thread of `run_udp_send_streams`: its data datagrams, its last datagram if that could be
    sent, and its receipt. -/
def udpSendStream (opts : ClientOptions) (env : UdpSendEnv) :
    Option (List Bytes × List Bytes × StreamReceipt) :=
  (udpSendStreamLoop (reverseLen opts) (fromSecs opts.omitSecs) env.turns 0 .empty).map
    fun (sent, r) =>
      (sent, if env.sentinelSent then [sentinelPacket env.sentinelSec env.sentinelUsec] else [], r)

/-- A datagram socket sends a packet whole or not at all. -/
def WholeSends (len : Nat) (turns : List UdpTurn) : Prop :=
  ∀ t ∈ turns, ∀ n, t.sent = .ok n → n = 0 ∨ n = len

/-- What the loop sends is numbered consecutively and counted, packet by packet. -/
theorem udpSendStreamLoop_eq {len omitWindow : Nat} :
    ∀ (turns : List UdpTurn) (seq : Nat) (r : StreamReceipt) {sent : List Bytes}
      {r' : StreamReceipt}, WholeSends len turns →
      udpSendStreamLoop len omitWindow turns seq r = some (sent, r') →
      ∃ stamps, sent = dataPackets len seq stamps ∧
        r'.packets = r.packets + stamps.length ∧ r'.bytes = r.bytes + len * stamps.length := by
  intro turns
  induction turns with
  | nil =>
    intro seq r sent r' _ h
    cases h
  | cons t ts ih =>
    intro seq r sent r' hwhole h
    have hrest : WholeSends len ts := fun u hu => hwhole u (List.mem_cons_of_mem t hu)
    rw [udpSendStreamLoop] at h
    split at h
    · cases h
      exact ⟨[], rfl, rfl, rfl⟩
    split at h
    · exact ih seq r hrest h
    split at h
    · rename_i n hn
      split at h
      · rename_i hpos
        obtain ⟨⟨sent', r''⟩, hloop, heq⟩ := Option.map_eq_some_iff.mp h
        cases heq
        obtain ⟨stamps, rfl, hpackets, hbytes⟩ := ih (seq + 1) _ hrest hloop
        have hlen : n = len := (hwhole t List.mem_cons_self n hn).resolve_left (by omega)
        refine ⟨(t.tvSec, t.tvUsec) :: stamps, rfl, ?_, ?_⟩
        · rw [hpackets, List.length_cons]
          show r.packets + 1 + stamps.length = _
          omega
        · rw [hbytes, List.length_cons, Nat.mul_succ]
          show r.bytes + n + len * stamps.length = _
          omega
      · exact ih seq r hrest h
    · cases h
      exact ⟨[], rfl, rfl, rfl⟩

/-- **A server sender** sends numbered data, counts it, and ends with its sentinel if it can. -/
theorem udpSendStream_eq {opts : ClientOptions} {env : UdpSendEnv} {data last : List Bytes}
    {sender : StreamReceipt} (hsend : udpSendStream opts env = some (data, last, sender))
    (hwhole : WholeSends (reverseLen opts) env.turns) :
    ∃ stamps, data = dataPackets (reverseLen opts) 0 stamps ∧
      (∀ d ∈ last, d = sentinelPacket env.sentinelSec env.sentinelUsec) ∧
      sender.packets = stamps.length ∧ sender.bytes = reverseLen opts * stamps.length := by
  obtain ⟨⟨sent, r⟩, hloop, heq⟩ := Option.map_eq_some_iff.mp hsend
  simp only [Prod.mk.injEq] at heq
  obtain ⟨rfl, hlast, rfl⟩ := heq
  obtain ⟨stamps, hdata, hpackets, hbytes⟩ := udpSendStreamLoop_eq env.turns 0 _ hwhole hloop
  refine ⟨stamps, hdata, fun d hd => ?_, hpackets.trans (Nat.zero_add _),
    hbytes.trans (Nat.zero_add _)⟩
  rw [← hlast] at hd
  split at hd
  · exact List.mem_singleton.mp hd
  · exact absurd hd List.not_mem_nil

/-! ## The client's receiver thread -/

/-- What one `recv` of the client's receiver loop returned; `wouldBlock` covers a timeout. -/
inductive UdpRecvOutcome
  | datagram (now : Nat) (payload : Bytes)
  | wouldBlock
  | failed

structure UdpRecvTurn where
  elapsed : Bool
  outcome : UdpRecvOutcome

/-- What the thread meets outside the loop. -/
structure UdpRecvEnv where
  bound : Bool
  connected : Bool
  turns : List UdpRecvTurn

/-- The receive loop: every datagram counts, whatever is in it. -/
def udpRecvLoop (omitWindow : Nat) :
    List UdpRecvTurn → ClientStreamReceipt → Option ClientStreamReceipt
  | [], _ => none
  | t :: ts, r =>
    if t.elapsed then some r
    else
      match t.outcome with
      | .datagram now payload =>
        if payload.length = 0 then udpRecvLoop omitWindow ts r
        else udpRecvLoop omitWindow ts (recordSend omitWindow now payload.length r)
      | .wouldBlock => udpRecvLoop omitWindow ts r
      | .failed => some r

/-- `Stream::start_udp_recv`: the receipt the thread reports. -/
def startUdpRecv (cfg : Config) (streamId : Nat) (env : UdpRecvEnv) : Option ClientStreamReceipt :=
  if !env.bound then some (.empty streamId)
  else if !env.connected then some (.empty streamId)
  else udpRecvLoop (fromSecs cfg.omitSecs) env.turns (.empty streamId)

/-- The given datagrams arrive one after the other, idle rounds allowed, and then the time is up. -/
inductive Window : List Bytes → List UdpRecvTurn → Prop
  | datagram {t : UdpRecvTurn} {now : Nat} {payload : Bytes} {ds : List Bytes}
      {ts : List UdpRecvTurn} (htime : t.elapsed = false) (hout : t.outcome = .datagram now payload)
      (rest : Window ds ts) : Window (payload :: ds) (t :: ts)
  | idle {t : UdpRecvTurn} {ds : List Bytes} {ts : List UdpRecvTurn} (htime : t.elapsed = false)
      (hout : t.outcome = .wouldBlock) (rest : Window ds ts) : Window ds (t :: ts)
  | close {t : UdpRecvTurn} {ts : List UdpRecvTurn} (htime : t.elapsed = true) : Window [] (t :: ts)

/-- **The client counts every datagram of its window.** -/
theorem udpRecvLoop_window (omitWindow : Nat) {ds : List Bytes} {ts : List UdpRecvTurn}
    (h : Window ds ts) (hne : ∀ d ∈ ds, d ≠ []) :
    ∀ r : ClientStreamReceipt, ∃ r', udpRecvLoop omitWindow ts r = some r' ∧
      r'.packets = r.packets + ds.length ∧
      r'.bytesSent = r.bytesSent + (ds.map List.length).sum := by
  induction h with
  | datagram htime hout rest ih =>
    intro r
    rename_i t now payload ds ts
    have hpos : payload.length ≠ 0 := fun h0 =>
      hne payload List.mem_cons_self (List.eq_nil_of_length_eq_zero h0)
    obtain ⟨r', hrun, hpackets, hbytes⟩ := ih (fun d hd => hne d (List.mem_cons_of_mem _ hd))
      (recordSend omitWindow now payload.length r)
    refine ⟨r', ?_, ?_, ?_⟩
    · rw [udpRecvLoop, htime, hout]
      show (if payload.length = 0 then _ else _) = _
      rw [if_neg hpos]
      exact hrun
    · rw [hpackets, List.length_cons]
      show r.packets + 1 + ds.length = _
      omega
    · rw [hbytes, List.map_cons, List.sum_cons]
      show r.bytesSent + payload.length + _ = _
      omega
  | idle htime hout rest ih =>
    intro r
    rw [udpRecvLoop, htime, hout]
    exact ih hne r
  | close htime =>
    intro r
    rw [udpRecvLoop, htime]
    exact ⟨r, rfl, rfl, rfl⟩

/-- The thread as a whole, with its socket set up. -/
theorem startUdpRecv_window {cfg : Config} {streamId : Nat} {env : UdpRecvEnv}
    (hbound : env.bound = true) (hconn : env.connected = true) {ds : List Bytes}
    (hwindow : Window ds env.turns) (hne : ∀ d ∈ ds, d ≠ []) :
    ∃ client, startUdpRecv cfg streamId env = some client ∧ client.packets = ds.length ∧
      client.bytesSent = (ds.map List.length).sum := by
  obtain ⟨client, hrun, hpackets, hbytes⟩ :=
    udpRecvLoop_window (fromSecs cfg.omitSecs) hwindow hne (.empty streamId)
  refine ⟨client, ?_, hpackets.trans (Nat.zero_add _), hbytes.trans (Nat.zero_add _)⟩
  rw [startUdpRecv, hbound, hconn]
  exact hrun

/-! ## The server-style receiver on one stream -/

/-- A receiver with a single registered address, all arrivals from it. -/
theorem soleReceiver_volume {arrivals : List Arrival} {ticks : List Tick} {a : SocketAddr}
    (hticks : Delivers arrivals ticks) (hsrc : ∀ x ∈ arrivals, x.datagram.src = a)
    (omitWindow : Nat) :
    ∃ r, runUdpReceiver [a] omitWindow ticks = some [r] ∧
      r.packets = (dataPayloads arrivals).length ∧
      r.bytes = ((dataPayloads arrivals).map List.length).sum := by
  obtain ⟨⟨receipts, hrun⟩, hconsumed⟩ := delivers_run hticks [a] omitWindow
  have hown : (udpConsumed [a] omitWindow ticks).filter (fun x => x.datagram.src = a) =
      arrivals := by
    rw [hconsumed, List.filter_eq_self]
    exact fun x hx => decide_eq_true (hsrc x hx)
  have hreceipts := runUdpReceiver_receipt (List.nodup_singleton a) hrun
  rw [List.map_singleton, hown] at hreceipts
  obtain ⟨hbytes, hpackets⟩ := foldl_volume omitWindow arrivals StreamState.new
  exact ⟨_, hrun.trans (congrArg some hreceipts), hpackets.trans (Nat.zero_add _),
    hbytes.trans (Nat.zero_add _)⟩

/-! ## The two receivers -/

theorem length_sentinelPacket (s u : BitVec 32) : (sentinelPacket s u).length = 16 :=
  UdpHeader.length_bytes _

section Emission

variable {len : Nat} {stamps : List (BitVec 32 × BitVec 32)}

/-- Copies of one datagram. -/
theorem sum_length_of_eq {l : List Bytes} {b : Bytes} (h : ∀ d ∈ l, d = b) :
    (l.map List.length).sum = b.length * l.length := by
  rw [List.eq_replicate_of_mem h, List.map_replicate, List.sum_replicate_nat,
    List.length_replicate, Nat.mul_comm]

theorem sum_length_dataPackets (hlen : udpHeaderLen ≤ len) :
    ((dataPackets len 0 stamps).map List.length).sum = len * stamps.length := by
  rw [selection_bytes hlen (List.Sublist.refl _), length_dataPackets]

/-- Datagrams without data around the sender's own: only the latter are data. -/
theorem filter_data_emission (hk : stamps.length < 2 ^ 63) {before after : List Bytes}
    (hbefore : ∀ d ∈ before, dataSeq d = none) (hafter : ∀ d ∈ after, dataSeq d = none) :
    (before ++ dataPackets len 0 stamps ++ after).filter (fun p => (dataSeq p).isSome) =
      dataPackets len 0 stamps := by
  have hnone : ∀ {l : List Bytes}, (∀ d ∈ l, dataSeq d = none) →
      l.filter (fun p => (dataSeq p).isSome) = [] := by
    intro l hl
    rw [List.filter_eq_nil_iff]
    intro d hd
    rw [hl d hd]
    exact Bool.false_ne_true
  rw [List.filter_append, List.filter_append, hnone hbefore, hnone hafter,
    List.filter_eq_self.mpr fun d hd => isSome_dataSeq_of_mem hk hd, List.nil_append,
    List.append_nil]

end Emission

/-- **Where the two receivers agree.**  A server sender's datagrams reach the client, completely and
    in order, together with the stream acknowledgement (`ack`) and the sentinel (`fin`) where these
    are delivered.  The server-style receiver always reports what the sender counted; the client
    reports the same exactly when neither of the two was delivered. -/
theorem udpReceivers_agree_iff {opts : ClientOptions} {env : UdpSendEnv} {data last : List Bytes}
    {sender : StreamReceipt} (hsend : udpSendStream opts env = some (data, last, sender))
    (hwhole : WholeSends (reverseLen opts) env.turns) (hk : data.length < 2 ^ 63)
    {ack fin : List Bytes} (hack : ack = [udpStreamAck] ∨ ack = []) (hfin : fin = last ∨ fin = [])
    {cfg : Config} {streamId : Nat} {recvEnv : UdpRecvEnv} (hbound : recvEnv.bound = true)
    (hconn : recvEnv.connected = true) (hwindow : Window (ack ++ data ++ fin) recvEnv.turns)
    {arrivals : List Arrival} {a : SocketAddr} (hsrc : ∀ x ∈ arrivals, x.datagram.src = a)
    (hsame : arrivals.map (fun x => x.datagram.payload) = ack ++ data ++ fin)
    {ticks : List Tick} (hticks : Delivers arrivals ticks) (omitWindow : Nat) :
    ∃ client r, startUdpRecv cfg streamId recvEnv = some client ∧
      runUdpReceiver [a] omitWindow ticks = some [r] ∧
      r.packets = sender.packets ∧ r.bytes = sender.bytes ∧
      client.packets = r.packets + ack.length + fin.length ∧
      client.bytesSent = r.bytes + 4 * ack.length + 16 * fin.length ∧
      (client.packets = r.packets ∧ client.bytesSent = r.bytes ↔ ack = [] ∧ fin = []) := by
  obtain ⟨stamps, rfl, hlast, hpackets, hbytes⟩ := udpSendStream_eq hsend hwhole
  have hlen : udpHeaderLen ≤ reverseLen opts := Nat.le_max_right _ _
  rw [length_dataPackets] at hk
  -- what the extra datagrams are
  have hack' : ∀ d ∈ ack, d = udpStreamAck := by
    rcases hack with rfl | rfl
    · exact fun d hd => List.mem_singleton.mp hd
    · exact fun d hd => absurd hd List.not_mem_nil
  have hfin' : ∀ d ∈ fin, d = sentinelPacket env.sentinelSec env.sentinelUsec := by
    rcases hfin with rfl | rfl
    · exact hlast
    · exact fun d hd => absurd hd List.not_mem_nil
  have hne : ∀ d ∈ ack ++ dataPackets (reverseLen opts) 0 stamps ++ fin, d ≠ [] := by
    intro d hd
    rw [← List.length_pos_iff]
    rcases List.mem_append.mp hd with hd | hd
    · rcases List.mem_append.mp hd with hd | hd
      · rw [hack' d hd]
        decide
      · rw [length_of_mem_dataPackets hlen hd]
        exact Nat.lt_of_lt_of_le (by decide) hlen
    · rw [hfin' d hd, length_sentinelPacket]
      decide
  have hdata : dataPayloads arrivals = dataPackets (reverseLen opts) 0 stamps := by
    rw [dataPayloads, hsame]
    exact filter_data_emission hk (fun d hd => by rw [hack' d hd]; rfl)
      (fun d hd => by rw [hfin' d hd]; exact dataSeq_sentinelPacket _ _)
  obtain ⟨client, hclient, hcp, hcb⟩ := startUdpRecv_window hbound hconn hwindow hne
  obtain ⟨r, hrun, hrp, hrb⟩ := soleReceiver_volume hticks hsrc omitWindow
  rw [hdata, length_dataPackets] at hrp
  rw [hdata, sum_length_dataPackets hlen] at hrb
  rw [List.length_append, List.length_append, length_dataPackets] at hcp
  rw [List.map_append, List.map_append, List.sum_append, List.sum_append, sum_length_of_eq hack',
    sum_length_of_eq hfin', sum_length_dataPackets hlen, length_sentinelPacket,
    show udpStreamAck.length = 4 from rfl] at hcb
  refine ⟨client, r, hclient, hrun, by omega, by omega, by omega, by omega, ?_⟩
  rw [← List.length_eq_zero_iff, ← List.length_eq_zero_iff (l := fin)]
  omega

/-! ## One datagram -/

/-- A reverse test with header-only datagrams. -/
def reverseOptions : ClientOptions :=
  { ClientOptions.tcpDefaults 10 1 16 with tcp := false, udp := true, reverse := true }

/-- A sender that gets one datagram and its sentinel out. -/
def oneSend : UdpSendEnv where
  turns := [⟨false, false, 0, 0, .ok 16, 0⟩, ⟨true, false, 0, 0, .ok 0, 0⟩]
  sentinelSec := 0
  sentinelUsec := 0
  sentinelSent := true

/-- The acknowledgement, the datagram and the sentinel. -/
def oneSendDelivered : List Bytes :=
  [udpStreamAck, dataPacket 16 ⟨0, 0, 0⟩, sentinelPacket 0 0]

/-- A client window in which they arrive. -/
def oneSendWindow : UdpRecvEnv where
  bound := true
  connected := true
  turns := oneSendDelivered.map (fun d => ⟨false, .datagram 0 d⟩) ++ [⟨true, .wouldBlock⟩]

theorem window_oneSend : Window oneSendDelivered oneSendWindow.turns :=
  .datagram rfl rfl (.datagram rfl rfl (.datagram rfl rfl (.close rfl)))

/-- The same datagrams as arrivals at a server-style receiver. -/
def oneSendArrivals : List Arrival := oneSendDelivered.map fun d => ⟨0, lonePeer, d⟩

theorem oneSendArrivals_src : ∀ x ∈ oneSendArrivals, x.datagram.src = lonePeer := by
  intro x hx
  obtain ⟨d, -, rfl⟩ := List.mem_map.mp hx
  rfl

/-- One datagram is sent and counted once by the sender and by the server-style receiver; the
    client, which is also sent the acknowledgement and the sentinel, reports three packets. -/
theorem client_counts_ack_and_sentinel :
    ∃ sender client r,
      udpSendStream reverseOptions oneSend =
        some ([dataPacket 16 ⟨0, 0, 0⟩], [sentinelPacket 0 0], sender) ∧
      sender.packets = 1 ∧ sender.bytes = 16 ∧
      startUdpRecv (.withHost "localhost") 1 oneSendWindow = some client ∧
      client.packets = 3 ∧ client.bytesSent = 36 ∧
      runUdpReceiver [lonePeer] 0 (feed oneSendArrivals) = some [r] ∧
      r.packets = 1 ∧ r.bytes = 16 := by
  obtain ⟨r, hrun, hpackets, hbytes⟩ :=
    soleReceiver_volume (delivers_feed oneSendArrivals) oneSendArrivals_src 0
  have hdata : dataPayloads oneSendArrivals = [dataPacket 16 ⟨0, 0, 0⟩] := by decide +kernel
  rw [hdata] at hpackets hbytes
  exact ⟨_, _, r, rfl, rfl, rfl, rfl, rfl, rfl, hrun, hpackets, hbytes⟩

theorem udpReceivers_agree_iff_oneSend :
    ∃ client r, startUdpRecv (.withHost "localhost") 1 oneSendWindow = some client ∧
      runUdpReceiver [lonePeer] 0 (feed oneSendArrivals) = some [r] ∧
      client.packets = r.packets + 2 ∧ client.bytesSent = r.bytes + 20 := by
  have hsend : udpSendStream reverseOptions oneSend =
    some ([dataPacket 16 ⟨0, 0, 0⟩], [sentinelPacket 0 0], _) := rfl
  have hwhole : WholeSends (reverseLen reverseOptions) oneSend.turns := by
    intro t ht n hn
    simp only [oneSend, List.mem_cons, List.not_mem_nil, or_false] at ht
    rcases ht with rfl | rfl
    · exact Or.inr (Except.ok.inj hn).symm
    · exact Or.inl (Except.ok.inj hn).symm
  obtain ⟨client, r, hclient, hrun, -, -, hpackets, hbytes, -⟩ :=
    udpReceivers_agree_iff hsend hwhole (by decide)
      (show [udpStreamAck] = [udpStreamAck] ∨ [udpStreamAck] = [] from .inl rfl) (.inl rfl) rfl rfl
      window_oneSend oneSendArrivals_src rfl (delivers_feed oneSendArrivals) 0
  exact ⟨client, r, hclient, hrun, hpackets, hbytes⟩

end Rperf3
