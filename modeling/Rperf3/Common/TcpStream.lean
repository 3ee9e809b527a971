/-
  `common/mod.rs` (`connect`) and `common/stream.rs` (`Stream::start`): the client's TCP sender
  thread.

  The thread's environment is what its calls meet: whether the connection opens, what the ONE `send`
  of the cookie takes, and a list of `TcpTurn`s, one per iteration of the send loop.  `startTcp`
  gives the bytes the thread puts on its connection and how it ends, `none` while it runs.

  `startTcp_bytes` is the account: a thread that reports has written exactly as many payload bytes
  as its receipt counts.
-/
import Mathlib.Data.List.TakeDrop
import Rperf3.Lib.ShortIO
import Rperf3.Common.Stream

namespace Rperf3

open ShortIO

/-! ## Connecting -/

/-- `connect`: open the connection and send the cookie with a single `send`.  Any count that `send`
    returns is success; the value is what has been written. -/
def connect (opened : Bool) (cookieSend : Answer IoError) (cookie : Bytes) : Option Bytes :=
  if !opened then none
  else
    match cookieSend with
    | .accepts n => some (cookie.take n)
    | .fails _ => none

theorem connect_eq_some {opened : Bool} {cookieSend : Answer IoError} {cookie written : Bytes} :
    connect opened cookieSend cookie = some written ↔
      opened = true ∧ ∃ n, cookieSend = .accepts n ∧ written = cookie.take n := by
  cases opened with
  | false => exact ⟨nofun, fun h => nomatch h.1⟩
  | true =>
    cases cookieSend with
    | fails e => exact ⟨nofun, fun ⟨_, _, h, _⟩ => nomatch h⟩
    | accepts n =>
      refine ⟨fun h => ⟨rfl, n, rfl, (Option.some.inj h).symm⟩, ?_⟩
      rintro ⟨-, m, hm, rfl⟩
      cases hm
      rfl

/-- What `connect` writes is the cookie or the beginning of it. -/
theorem connect_part {opened : Bool} {cookieSend : Answer IoError} {cookie written : Bytes}
    (h : connect opened cookieSend cookie = some written) : written <+: cookie := by
  obtain ⟨-, n, -, rfl⟩ := connect_eq_some.mp h
  exact List.take_prefix n cookie

/-- When `connect` vouches for the whole cookie. -/
theorem connect_whole_iff (opened : Bool) (cookieSend : Answer IoError) (cookie : Bytes) :
    (∀ written, connect opened cookieSend cookie = some written → written = cookie) ↔
      (opened = true → ∀ n, cookieSend = .accepts n → cookie.length ≤ n) := by
  constructor
  · rintro h rfl n rfl
    have hlen := congrArg List.length (h _ rfl)
    rw [List.length_take] at hlen
    omega
  · rintro h written hconnect
    obtain ⟨hopened, n, hn, rfl⟩ := connect_eq_some.mp hconnect
    exact List.take_of_length_le (h hopened n hn)

/-- The one `send` takes a part of the cookie. -/
def ShortSend (cookieSend : Answer IoError) (cookie : Bytes) : Prop :=
  ∃ n, cookieSend = .accepts n ∧ 0 < n ∧ n < cookie.length

theorem connect_cut_iff {opened : Bool} {cookieSend : Answer IoError} {cookie written : Bytes}
    (h : connect opened cookieSend cookie = some written) :
    written ≠ [] ∧ written ≠ cookie ↔ ShortSend cookieSend cookie := by
  obtain ⟨-, n, rfl, rfl⟩ := connect_eq_some.mp h
  have hempty : cookie.take n ≠ [] ↔ 0 < n ∧ cookie ≠ [] := by
    rw [Ne, List.take_eq_nil_iff, not_or, Nat.pos_iff_ne_zero]
  have hall : cookie.take n ≠ cookie ↔ n < cookie.length := by
    rw [Ne, List.take_eq_self_iff, Nat.not_le]
  rw [hempty, hall]
  constructor
  · rintro ⟨⟨hn, -⟩, hlt⟩
    exact ⟨n, rfl, hn, hlt⟩
  · rintro ⟨m, hm, hpos, hlt⟩
    cases hm
    exact ⟨⟨hpos, List.ne_nil_of_length_pos (by omega)⟩, hlt⟩

/-! ## The send loop -/

/-- What one iteration of the send loop meets. -/
structure TcpTurn where
  elapsed : Bool
  sent : Answer IoError
  sentAt : Nat

/-- The receipt after `n` bytes at `sentAt`; a TCP stream counts no packets. -/
def recordTcp (omitWindow sentAt n : Nat) (r : ClientStreamReceipt) : ClientStreamReceipt :=
  { recordSend omitWindow sentAt n r with packets := r.packets }

/-- How a stream thread ends: with a receipt, or by a panic that nobody reports. -/
inductive ThreadEnd
  | reported (r : ClientStreamReceipt)
  | panicked
  deriving DecidableEq

/-- The send loop: the payload bytes written and how the thread ends.  The block limit divides by
    the block length. -/
def tcpSendLoop (len omitWindow : Nat) (maxBytes maxBlocks : Option Nat) :
    List TcpTurn → ClientStreamReceipt → Option (Bytes × ThreadEnd)
  | [], _ => none
  | t :: ts, r =>
    if t.elapsed then some ([], .reported r)
    else if maxBytes.any (· ≤ r.bytesSent) then some ([], .reported r)
    else if maxBlocks.isSome && len = 0 then some ([], .panicked)
    else if maxBlocks.any (· ≤ r.bytesSent / len) then some ([], .reported r)
    else
      match t.sent with
      | .accepts m =>
        let n := min m len
        if 0 < n then
          (tcpSendLoop len omitWindow maxBytes maxBlocks ts (recordTcp omitWindow t.sentAt n r)).map
            fun (sent, e) => ((buildPayload len).take n ++ sent, e)
        else tcpSendLoop len omitWindow maxBytes maxBlocks ts r
      | .fails e =>
        if e.kind = .wouldBlock then tcpSendLoop len omitWindow maxBytes maxBlocks ts r
        else some ([], .reported r)

/-- What the thread meets outside the loop: the connection and the cookie, the switch to blocking
    mode and the retransmit count at the end. -/
structure TcpEnv where
  opened : Bool
  cookieSend : Answer IoError
  blocking : Bool
  turns : List TcpTurn
  retransmits : Nat

/-- What a finished thread leaves behind: the part of the cookie and the payload on its connection,
    and how it ended. -/
structure TcpRun where
  cookie : Bytes
  payload : Bytes
  outcome : ThreadEnd
  deriving DecidableEq

/-- The kernel's retransmit count goes into the receipt last. -/
def ThreadEnd.withRetransmits (n : Nat) : ThreadEnd → ThreadEnd
  | reported r => reported { r with retransmits := n }
  | panicked => panicked

/-- `Stream::start`. -/
def startTcp (cfg : Config) (cookie : Bytes) (streamId : Nat) (env : TcpEnv) : Option TcpRun :=
  let receipt := ClientStreamReceipt.empty streamId
  match connect env.opened env.cookieSend cookie with
  | none => some ⟨[], [], .reported receipt⟩
  | some written =>
    if !env.blocking then some ⟨written, [], .reported receipt⟩
    else
      (tcpSendLoop cfg.len (fromSecs cfg.omitSecs) cfg.totalBytes cfg.totalBlocks env.turns
          receipt).map fun (payload, e) => ⟨written, payload, e.withRetransmits env.retransmits⟩

/-- How a thread comes to what it leaves behind. -/
theorem startTcp_cases {cfg : Config} {cookie : Bytes} {streamId : Nat} {env : TcpEnv}
    {run : TcpRun} (h : startTcp cfg cookie streamId env = some run) :
    (connect env.opened env.cookieSend cookie = none ∧ run.cookie = [] ∧ run.payload = []) ∨
      connect env.opened env.cookieSend cookie = some run.cookie ∧
        (env.blocking = false ∧ run.payload = [] ∨ env.blocking = true ∧
          ∃ e, tcpSendLoop cfg.len (fromSecs cfg.omitSecs) cfg.totalBytes cfg.totalBlocks env.turns
            (ClientStreamReceipt.empty streamId) = some (run.payload, e)) := by
  unfold startTcp at h
  split at h
  · rename_i hconnect
    cases h
    exact .inl ⟨hconnect, rfl, rfl⟩
  · rename_i written hconnect
    rw [hconnect]
    cases hblocking : env.blocking with
    | false =>
      rw [hblocking] at h
      cases h
      exact .inr ⟨rfl, .inl ⟨rfl, rfl⟩⟩
    | true =>
      rw [hblocking] at h
      obtain ⟨⟨payload, e⟩, hloop, rfl⟩ := Option.map_eq_some_iff.mp h
      exact .inr ⟨rfl, .inr ⟨rfl, e, hloop⟩⟩

theorem startTcp_cookie {cfg : Config} {cookie : Bytes} {streamId : Nat} {env : TcpEnv}
    {run : TcpRun} (h : startTcp cfg cookie streamId env = some run) : run.cookie <+: cookie := by
  rcases startTcp_cases h with ⟨-, hnil, -⟩ | ⟨hconnect, -⟩
  · rw [hnil]
    exact List.nil_prefix
  · exact connect_part hconnect

/-! ## Which threads write payload -/

/-- An iteration after which the loop tries again: nothing was taken. -/
def TcpTurn.Idle (t : TcpTurn) : Prop :=
  t.elapsed = false ∧ (t.sent = .accepts 0 ∨ ∃ e, t.sent = .fails e ∧ e.kind = .wouldBlock)

/-- An iteration of a thread with time left whose `send` takes something. -/
def TcpTurn.Taken (t : TcpTurn) : Prop := t.elapsed = false ∧ t.sent.takes = true

/-- The limits let the thread send, and some iteration does after idle ones only. -/
def SendsPayload (len : Nat) (maxBytes maxBlocks : Option Nat) (turns : List TcpTurn) : Prop :=
  0 < len ∧ maxBytes ≠ some 0 ∧ maxBlocks ≠ some 0 ∧
    ∃ pre t post, turns = pre ++ t :: post ∧ (∀ u ∈ pre, u.Idle) ∧ t.Taken

section SendsPayload

variable {len omitWindow : Nat} {maxBytes maxBlocks : Option Nat} {t : TcpTurn}
  {turns : List TcpTurn}

theorem sendsPayload_cons : SendsPayload len maxBytes maxBlocks (t :: turns) ↔
    (0 < len ∧ maxBytes ≠ some 0 ∧ maxBlocks ≠ some 0 ∧ t.Taken) ∨
      t.Idle ∧ SendsPayload len maxBytes maxBlocks turns := by
  constructor
  · rintro ⟨hlen, hbytes, hblocks, pre, u, post, hsplit, hidle, htaken⟩
    cases pre with
    | nil =>
      cases hsplit
      exact .inl ⟨hlen, hbytes, hblocks, htaken⟩
    | cons v pre =>
      cases hsplit
      exact .inr ⟨hidle _ List.mem_cons_self, hlen, hbytes, hblocks, pre, u, post, rfl,
        fun x hx => hidle x (List.mem_cons_of_mem _ hx), htaken⟩
  · rintro (⟨hlen, hbytes, hblocks, htaken⟩ |
      ⟨hhead, hlen, hbytes, hblocks, pre, u, post, rfl, hidle, htaken⟩)
    · exact ⟨hlen, hbytes, hblocks, [], t, turns, rfl, fun _ h => absurd h List.not_mem_nil, htaken⟩
    · exact ⟨hlen, hbytes, hblocks, t :: pre, u, post, rfl,
        List.forall_mem_cons.mpr ⟨hhead, hidle⟩, htaken⟩

theorem TcpTurn.Idle.not_taken (h : t.Idle) : ¬ t.Taken := by
  rintro ⟨-, htakes⟩
  rcases h.2 with hsent | ⟨e, hsent, -⟩
  · rw [hsent] at htakes
    cases htakes
  · rw [hsent] at htakes
    cases htakes

/-- An idle iteration leaves it to the ones that follow. -/
theorem TcpTurn.Idle.sendsPayload_iff (h : t.Idle) :
    SendsPayload len maxBytes maxBlocks (t :: turns) ↔
      SendsPayload len maxBytes maxBlocks turns := by
  rw [sendsPayload_cons, or_iff_right fun hs => h.not_taken hs.2.2.2, and_iff_right h]

/-- An error that is not "would block" ends the loop. -/
theorem not_sendsPayload_of_fails {e : IoError} (hsent : t.sent = .fails e)
    (hkind : e.kind ≠ .wouldBlock) : ¬ SendsPayload len maxBytes maxBlocks (t :: turns) := by
  intro hs
  rcases sendsPayload_cons.mp hs with ⟨-, -, -, -, htaken⟩ | ⟨⟨-, hzero | ⟨e', he', hk⟩⟩, -⟩
  · rw [hsent] at htaken
    cases htaken
  · rw [hsent] at hzero
    cases hzero
  · rw [hsent] at he'
    cases he'
    exact hkind hk

theorem not_elapsed_of_sendsPayload (h : SendsPayload len maxBytes maxBlocks (t :: turns)) :
    t.elapsed = false := by
  rcases sendsPayload_cons.mp h with ⟨-, -, -, htaken⟩ | ⟨hidle, -⟩
  · exact htaken.1
  · exact hidle.1

theorem any_le_zero_iff {limit : Option Nat} : limit.any (· ≤ 0) = true ↔ limit = some 0 := by
  constructor
  · intro h
    obtain ⟨n, rfl, hn⟩ := (Option.any_eq_true _ _).mp h
    rw [Nat.le_zero.mp (of_decide_eq_true hn)]
  · rintro rfl
    rfl

/-- **When a thread writes payload**, in terms of the answers it gets. -/
theorem tcpSendLoop_payload_iff {r : ClientStreamReceipt} (hr : r.bytesSent = 0) {payload : Bytes}
    {e : ThreadEnd}
    (h : tcpSendLoop len omitWindow maxBytes maxBlocks turns r = some (payload, e)) :
    payload ≠ [] ↔ SendsPayload len maxBytes maxBlocks turns := by
  induction turns with
  | nil => cases h
  | cons t ts ih =>
    rw [tcpSendLoop, hr, Nat.zero_div] at h
    split at h
    · rename_i helapsed
      cases h
      refine iff_of_false (fun h => h rfl) fun hs => ?_
      exact Bool.false_ne_true ((not_elapsed_of_sendsPayload hs).symm.trans helapsed)
    rename_i helapsed
    split at h
    · rename_i hbytes
      cases h
      exact iff_of_false (fun h => h rfl) fun hs => hs.2.1 (any_le_zero_iff.mp hbytes)
    rename_i hbytes
    split at h
    · rename_i hzero
      cases h
      have hlen : len = 0 := of_decide_eq_true (Bool.and_eq_true_iff.mp hzero).2
      exact iff_of_false (fun h => h rfl) fun hs => absurd hs.1 (by omega)
    split at h
    · rename_i hblocks
      cases h
      exact iff_of_false (fun h => h rfl) fun hs => hs.2.2.1 (any_le_zero_iff.mp hblocks)
    rename_i hblocks
    have helapsed' : t.elapsed = false := Bool.eq_false_iff.mpr helapsed
    split at h
    · rename_i m hsent
      dsimp only at h
      split at h
      · -- the call takes something
        rename_i hpos
        obtain ⟨⟨sent, e'⟩, -, heq⟩ := Option.map_eq_some_iff.mp h
        cases heq
        have htake : (buildPayload len).take (min m len) ≠ [] := by
          refine List.ne_nil_of_length_pos ?_
          rw [List.length_take, buildPayload, List.length_replicate]
          omega
        refine iff_of_true (List.append_ne_nil_of_left_ne_nil htake _)
          (sendsPayload_cons.mpr (.inl ⟨by omega, ?_, ?_, ?_⟩))
        · exact fun hzero => hbytes (any_le_zero_iff.mpr hzero)
        · exact fun hzero => hblocks (any_le_zero_iff.mpr hzero)
        · obtain ⟨k, rfl⟩ := Nat.exists_eq_add_one.mpr (show 0 < m by omega)
          exact ⟨helapsed', by rw [hsent]; rfl⟩
      · rename_i hzero
        rw [ih h]
        rcases Nat.eq_zero_or_pos m with rfl | hm
        · exact (TcpTurn.Idle.sendsPayload_iff ⟨helapsed', .inl hsent⟩).symm
        · -- an empty buffer: nothing is ever sent
          have hlen : ¬ 0 < len := by omega
          exact iff_of_false (fun hs => hlen hs.1) fun hs => hlen hs.1
    · rename_i err hsent
      split at h
      · rename_i hkind
        rw [ih h]
        exact (TcpTurn.Idle.sendsPayload_iff ⟨helapsed', .inr ⟨err, hsent, hkind⟩⟩).symm
      · rename_i hkind
        cases h
        exact iff_of_false (fun h => h rfl) (not_sendsPayload_of_fails hsent hkind)

end SendsPayload

/-! ## What a thread counts -/

/-- Every byte the loop writes is counted once. -/
theorem tcpSendLoop_bytes {len omitWindow : Nat} {maxBytes maxBlocks : Option Nat} :
    ∀ (turns : List TcpTurn) (r : ClientStreamReceipt) {payload : Bytes} {r' : ClientStreamReceipt},
      tcpSendLoop len omitWindow maxBytes maxBlocks turns r = some (payload, .reported r') →
      r'.bytesSent = r.bytesSent + payload.length ∧ r'.streamId = r.streamId := by
  intro turns
  induction turns with
  | nil =>
    intro r payload r' h
    cases h
  | cons t ts ih =>
    intro r payload r' h
    rw [tcpSendLoop] at h
    split at h
    · cases h
      exact ⟨rfl, rfl⟩
    split at h
    · cases h
      exact ⟨rfl, rfl⟩
    split at h
    · cases h
    split at h
    · cases h
      exact ⟨rfl, rfl⟩
    split at h
    · rename_i m _
      dsimp only at h
      split at h
      · -- `n` bytes accepted: the first `n` of the payload buffer
        obtain ⟨⟨sent, e⟩, hrest, heq⟩ := Option.map_eq_some_iff.mp h
        cases heq
        obtain ⟨hbytes, hid⟩ := ih _ hrest
        refine ⟨?_, hid⟩
        rw [hbytes, List.length_append, List.length_take, buildPayload, List.length_replicate]
        show r.bytesSent + min m len + sent.length =
          r.bytesSent + (min (min m len) len + sent.length)
        omega
      · exact ih r h
    · split at h
      · exact ih r h
      · cases h
        exact ⟨rfl, rfl⟩

/-- **A reporting thread counted what it wrote**, under its own stream id. -/
theorem startTcp_bytes {cfg : Config} {cookie : Bytes} {streamId : Nat} {env : TcpEnv}
    {written payload : Bytes} {r : ClientStreamReceipt}
    (h : startTcp cfg cookie streamId env = some ⟨written, payload, .reported r⟩) :
    r.bytesSent = payload.length ∧ r.streamId = streamId := by
  unfold startTcp at h
  split at h
  · cases h
    exact ⟨rfl, rfl⟩
  · split at h
    · cases h
      exact ⟨rfl, rfl⟩
    · obtain ⟨⟨sent, e⟩, hloop, heq⟩ := Option.map_eq_some_iff.mp h
      cases e with
      | panicked => cases heq
      | reported r₀ =>
        cases heq
        obtain ⟨hbytes, hid⟩ := tcpSendLoop_bytes env.turns _ hloop
        exact ⟨hbytes.trans (Nat.zero_add _), hid⟩

end Rperf3
