/-
  READ DEADLINES on data sockets: what the two ways of collecting streams leave behind.

  Both paths put the handshake timeout on a data socket while they read its cookie.  The listener
  path (`accept_streams_via_listener`) takes it off again; the concurrent path sets it in the accept
  loop and hands the socket on through the session's channel (`accept_streams_from_channel`), which
  touches no socket option.

  1. `deadlineWorld` — the arriving connections together with the read deadline of every socket.
     `listener_clears_deadline`, `channel_keeps_deadline`: what a successful collection leaves.
  2. `readTurns` — the `recv` calls of a reader on a socket with a given deadline, for a stream that
     arrives in timed chunks.  `recvStreamBytes_readTurns`: the reader counts the chunks up to the
     first idle gap that exceeds the deadline, because a timed-out `recv` ends its loop.
  3. So the two paths count the same exactly when no chunk follows a gap longer than the timeout.
-/
import Mathlib.Logic.Function.Basic
import Rperf3.Server.AcceptStreams
import Rperf3.Server.StreamReader

namespace Rperf3

open Effect Effect.Prog

/-! ## Socket options -/

/-- Connections waiting to be taken — in the listener's backlog or in a session's channel — and the
    read deadline of every socket. -/
structure Sockets where
  waiting : List Conn
  deadline : Conn → Option Nat

/-- The world of `arrivalWorld` with the deadlines kept; a zero timeout is refused. -/
def deadlineWorld : (o : Op) → Sockets → Option (Except Stop o.Ok × Sockets)
  | .setTimeouts _ (some 0), w =>
    some (.error (.io ⟨.invalidInput, "cannot set a 0 duration timeout"⟩), w)
  | .setTimeouts c t, w => some (.ok (), { w with deadline := Function.update w.deadline c t })
  | o, w => (arrivalWorld o w.waiting).map fun aw => (aw.1, { w with waiting := aw.2 })

/-- `run_concurrent_accept_loop`, from `accept` to the cookie in hand. -/
def acceptConnection (timeout : Option Nat) : Session (Conn × Bytes) := do
  let c ← acceptDataConn
  setTimeouts c timeout
  let cookie ← readCookie c timeout
  pure (c, cookie)

/-- `n` rounds of that. -/
def acceptConnections (timeout : Option Nat) : Nat → Session (List (Conn × Bytes))
  | 0 => pure []
  | n + 1 => do
    let taken ← acceptConnection timeout
    let rest ← acceptConnections timeout n
    pure (taken :: rest)

/-- A successful `set_read_timeout` is remembered; nothing else changes. -/
theorem setTimeouts_run {c : Conn} {t : Option Nat} {w w' : Sockets} {u : Unit}
    (h : (setTimeouts c t).runIn deadlineWorld w = some (.ok u, w')) :
    w' = { w with deadline := Function.update w.deadline c t } := by
  have hanswer : deadlineWorld (.setTimeouts c t) w = some (.ok u, w') :=
    (runIn_perform _ _).symm.trans h
  match t, hanswer with
  | none, hanswer =>
    cases hanswer
    rfl
  | some 0, hanswer => cases hanswer
  | some (_ + 1), hanswer =>
    cases hanswer
    rfl

/-- Accepting, reading cookies and receiving from the channel leave the deadlines alone. -/
theorem deadline_of_arrival {o : Op} {w w' : Sockets} {r : Except Stop o.Ok}
    (ho : deadlineWorld o w =
      (arrivalWorld o w.waiting).map fun aw => (aw.1, { w with waiting := aw.2 }))
    (h : (perform o : Session o.Ok).runIn deadlineWorld w = some (r, w')) :
    w'.deadline = w.deadline := by
  rw [runIn_perform, ho, Option.map_eq_some_iff] at h
  obtain ⟨aw, -, heq⟩ := h
  cases heq
  rfl

/-- **The listener path** hands over sockets without a read deadline. -/
theorem listener_clears_deadline (cookie : Bytes) (timeout : Option Nat) (n : Nat) :
    ∀ (i : Nat) {w w' : Sockets} {ds : List Conn},
      (acceptStreamsLoop cookie timeout i n).runIn deadlineWorld w = some (.ok ds, w') →
      (∀ c ∈ ds, w'.deadline c = none) ∧ ∀ c, w.deadline c = none → w'.deadline c = none := by
  induction n with
  | zero =>
    intro i w w' ds h
    cases h
    exact ⟨fun c hc => absurd hc List.not_mem_nil, fun c hc => hc⟩
  | succ n ih =>
    intro i w w' ds h
    rw [acceptStreamsLoop] at h
    obtain ⟨data, w₁, hacc, h⟩ := runIn_bind_eq_ok h
    obtain ⟨_, w₂, hset, h⟩ := runIn_bind_eq_ok h
    obtain ⟨got, w₃, hread, h⟩ := runIn_bind_eq_ok h
    split at h
    · cases h
    obtain ⟨_, w₄, hclear, h⟩ := runIn_bind_eq_ok h
    obtain ⟨rest, w₅, hrest, h⟩ := runIn_bind_eq_ok h
    cases h
    obtain ⟨hnone, hkeep⟩ := ih (i + 1) hrest
    have hw₁ := deadline_of_arrival rfl hacc
    have hw₂ := setTimeouts_run hset
    have hw₃ := deadline_of_arrival rfl hread
    have hw₄ := setTimeouts_run hclear
    have hcleared : ∀ c, (c = data ∨ w.deadline c = none) → w₄.deadline c = none := by
      intro c hc
      simp only [hw₄, hw₃, hw₂, hw₁]
      by_cases hdata : c = data
      · rw [hdata, Function.update_self]
      · rw [Function.update_of_ne hdata, Function.update_of_ne hdata]
        exact hc.resolve_left hdata
    refine ⟨fun c hc => ?_, fun c hc => hkeep c (hcleared c (Or.inr hc))⟩
    rcases List.mem_cons.mp hc with rfl | hc
    · exact hkeep _ (hcleared _ (Or.inl rfl))
    · exact hnone c hc

/-- The accept loop leaves the timeout on every socket it has read a cookie from. -/
theorem acceptConnections_deadline (timeout : Option Nat) (n : Nat) :
    ∀ {w w' : Sockets} {ps : List (Conn × Bytes)},
      (acceptConnections timeout n).runIn deadlineWorld w = some (.ok ps, w') →
      (∀ p ∈ ps, w'.deadline p.1 = timeout) ∧
        ∀ c, w.deadline c = timeout → w'.deadline c = timeout := by
  induction n with
  | zero =>
    intro w w' ps h
    cases h
    exact ⟨fun p hp => absurd hp List.not_mem_nil, fun c hc => hc⟩
  | succ n ih =>
    intro w w' ps h
    rw [acceptConnections] at h
    obtain ⟨taken, w₁, htaken, h⟩ := runIn_bind_eq_ok h
    obtain ⟨rest, w₂, hrest, h⟩ := runIn_bind_eq_ok h
    cases h
    rw [acceptConnection] at htaken
    obtain ⟨c, u₁, hacc, htaken⟩ := runIn_bind_eq_ok htaken
    obtain ⟨_, u₂, hset, htaken⟩ := runIn_bind_eq_ok htaken
    obtain ⟨cookie, u₃, hread, htaken⟩ := runIn_bind_eq_ok htaken
    cases htaken
    obtain ⟨hall, hkeep⟩ := ih hrest
    have hu₁ := deadline_of_arrival rfl hacc
    have hu₂ := setTimeouts_run hset
    have hu₃ := deadline_of_arrival rfl hread
    have hset' : ∀ d, (d = c ∨ w.deadline d = timeout) → w₁.deadline d = timeout := by
      intro d hd
      simp only [hu₃, hu₂, hu₁]
      by_cases hdc : d = c
      · rw [hdc, Function.update_self]
      · rw [Function.update_of_ne hdc]
        exact hd.resolve_left hdc
    refine ⟨fun p hp => ?_, fun d hd => hkeep d (hset' d (Or.inr hd))⟩
    rcases List.mem_cons.mp hp with rfl | hp
    · exact hkeep _ (hset' _ (Or.inl rfl))
    · exact hall p hp

/-- The channel hands the sockets over as they are. -/
theorem channel_keeps_deadline (timeout : Option Nat) (n : Nat) :
    ∀ {w w' : Sockets} {ds : List Conn},
      (acceptStreamsFromChannel timeout n).runIn deadlineWorld w = some (.ok ds, w') →
      w.waiting = ds ++ w'.waiting ∧ w'.deadline = w.deadline := by
  induction n with
  | zero =>
    intro w w' ds h
    cases h
    exact ⟨rfl, rfl⟩
  | succ n ih =>
    intro w w' ds h
    rw [acceptStreamsFromChannel] at h
    obtain ⟨stream, w₁, hrecv, h⟩ := runIn_bind_eq_ok h
    obtain ⟨rest, w₂, hrest, h⟩ := runIn_bind_eq_ok h
    cases h
    obtain ⟨hwait, hdead⟩ := ih hrest
    have hanswer : deadlineWorld (.recvDataStream timeout) w = some (.ok stream, w₁) :=
      (runIn_perform _ _).symm.trans hrecv
    obtain ⟨waiting, deadline⟩ := w
    match waiting, timeout, hanswer with
    | c :: cs, _, hanswer =>
      cases hanswer
      exact ⟨congrArg (stream :: ·) hwait, hdead⟩
    | [], some _, hanswer => cases hanswer
    | [], none, hanswer => cases hanswer

/-! ## Reading a stream that arrives in timed chunks -/

/-- Some bytes, and how long nothing arrived before them. -/
structure TimedChunk where
  idle : Nat
  size : Nat
  size_pos : 0 < size

/-- Does a `recv` that waits this long run into the deadline? -/
def overdue (deadline : Option Nat) (idle : Nat) : Bool := deadline.any (· < idle)

/-- What `recv` returns when the deadline passes. -/
def timeoutError : IoError := ⟨.wouldBlock, "Resource temporarily unavailable (os error 11)"⟩

/-- The `recv` results that take a chunk of `size` bytes out of the socket, buffer by buffer. -/
def bufferfuls (size : Nat) : List Nat :=
  List.replicate (size / defaultTcpLen) defaultTcpLen ++
    if size % defaultTcpLen = 0 then [] else [size % defaultTcpLen]

/-- The `recv` calls of a reader up to the first that ends its loop: the chunks one after the other,
    then, after `endIdle`, the end of the stream. -/
def readTurns (deadline : Option Nat) (endIdle : Nat) : Nat → List TimedChunk → List RecvTurn
  | now, [] =>
    if overdue deadline endIdle then [⟨now, .error timeoutError⟩] else [⟨now + endIdle, .ok 0⟩]
  | now, ch :: chs =>
    if overdue deadline ch.idle then [⟨now, .error timeoutError⟩]
    else (bufferfuls ch.size).map (fun n => ⟨now + ch.idle, .ok n⟩) ++
      readTurns deadline endIdle (now + ch.idle) chs

theorem sum_bufferfuls (size : Nat) : (bufferfuls size).sum = size := by
  have hsplit := Nat.div_add_mod size defaultTcpLen
  rw [bufferfuls, List.sum_append, List.sum_replicate_nat]
  split
  · rw [List.sum_nil]
    rw [Nat.mul_comm] at hsplit
    omega
  · rw [List.sum_singleton]
    rw [Nat.mul_comm] at hsplit
    omega

theorem bufferfuls_pos {size n : Nat} (h : n ∈ bufferfuls size) : 0 < n := by
  rcases List.mem_append.mp h with h | h
  · rw [List.eq_of_mem_replicate h]
    decide
  · split at h
    · exact absurd h List.not_mem_nil
    · rw [List.mem_singleton.mp h]
      omega

/-- Successful reads are counted and the loop goes on. -/
theorem recvStreamLoop_reads (omitWindow now : Nat) (ts : List RecvTurn) :
    ∀ (ns : List Nat) (r : StreamReceipt), (∀ n ∈ ns, 0 < n) →
      ∃ r', r'.bytes = r.bytes + ns.sum ∧
        recvStreamLoop omitWindow (ns.map (fun n => ⟨now, .ok n⟩) ++ ts) r =
          recvStreamLoop omitWindow ts r'
  | [], r, _ => ⟨r, rfl, rfl⟩
  | 0 :: _, _, h => absurd (h 0 List.mem_cons_self) (Nat.lt_irrefl 0)
  | (n + 1) :: ns, r, h => by
    obtain ⟨r', hbytes, hrun⟩ := recvStreamLoop_reads omitWindow now ts ns
      (r.recordBytes omitWindow now (n + 1)) fun m hm => h m (List.mem_cons_of_mem _ hm)
    refine ⟨r', ?_, hrun⟩
    rw [hbytes, List.sum_cons]
    show r.bytes + (n + 1) + ns.sum = _
    omega

/-- The chunks that arrive before a gap exceeds the deadline. -/
def timely (deadline : Option Nat) (chs : List TimedChunk) : List TimedChunk :=
  chs.takeWhile fun ch => !overdue deadline ch.idle

/-- **What the reader counts**: the chunks up to the first gap that exceeds the deadline. -/
theorem recvStreamLoop_readTurns (omitWindow : Nat) (deadline : Option Nat) (endIdle : Nat) :
    ∀ (chs : List TimedChunk) (now : Nat) (r : StreamReceipt),
      ∃ r', recvStreamLoop omitWindow (readTurns deadline endIdle now chs) r = some r' ∧
        r'.bytes = r.bytes + ((timely deadline chs).map TimedChunk.size).sum
  | [], now, r => by
    rw [readTurns]
    split
    · exact ⟨r, rfl, rfl⟩
    · exact ⟨r, rfl, rfl⟩
  | ch :: chs, now, r => by
    rw [readTurns, timely, List.takeWhile_cons]
    cases hover : overdue deadline ch.idle with
    | true => exact ⟨r, rfl, rfl⟩
    | false =>
      obtain ⟨r₁, hbytes₁, hrun₁⟩ := recvStreamLoop_reads omitWindow (now + ch.idle)
        (readTurns deadline endIdle (now + ch.idle) chs) (bufferfuls ch.size) r
        fun n hn => bufferfuls_pos hn
      obtain ⟨r', hrun, hbytes⟩ :=
        recvStreamLoop_readTurns omitWindow deadline endIdle chs (now + ch.idle) r₁
      refine ⟨r', hrun₁.trans hrun, ?_⟩
      rw [sum_bufferfuls] at hbytes₁
      show r'.bytes = r.bytes + ((ch :: timely deadline chs).map TimedChunk.size).sum
      rw [hbytes, hbytes₁, List.map_cons, List.sum_cons, Nat.add_assoc]

/-- The reader counts everything exactly when no chunk is overdue. -/
theorem sum_timely_eq_iff (deadline : Option Nat) : ∀ chs : List TimedChunk,
    ((timely deadline chs).map TimedChunk.size).sum = (chs.map TimedChunk.size).sum ↔
      ∀ ch ∈ chs, overdue deadline ch.idle = false
  | [] => ⟨fun _ ch hch => absurd hch List.not_mem_nil, fun _ => rfl⟩
  | ch :: chs => by
    have ih := sum_timely_eq_iff deadline chs
    rw [timely, List.takeWhile_cons, List.forall_mem_cons]
    cases hover : overdue deadline ch.idle with
    | true =>
      have := ch.size_pos
      simp only [Bool.not_true, Bool.false_eq_true, if_false, List.map_nil, List.sum_nil,
        List.map_cons, List.sum_cons, false_and, iff_false, reduceCtorEq]
      omega
    | false =>
      simp only [Bool.not_false, if_true, List.map_cons, List.sum_cons, Nat.add_left_cancel_iff,
        true_and]
      exact ih

/-! ## The two paths -/

/-- **Slow streams.**  The same connections, collected by the listener path and by the accept loop
    and the channel, with the handshake timeout `h`; on one of them a stream arrives in timed
    chunks.  The reader of the listener path always counts all of it.  The reader of the concurrent
    path counts the same exactly when no chunk follows a gap longer than `h`. -/
theorem slow_streams_agree_iff {cookie : Bytes} {h n : Nat} {w wl wa wc : Sockets}
    {ds ds' : List Conn} {taken : List (Conn × Bytes)}
    (hlistener : (acceptStreamsViaListener cookie n (some h)).runIn deadlineWorld w =
      some (.ok ds, wl))
    (haccept : (acceptConnections (some h) n).runIn deadlineWorld w = some (.ok taken, wa))
    (hchannel : (acceptStreamsFromChannel (some h) n).runIn deadlineWorld
      ⟨taken.map Prod.fst, wa.deadline⟩ = some (.ok ds', wc))
    {c : Conn} (hc : c ∈ ds) (hc' : c ∈ ds') (omitWindow now endIdle : Nat)
    (chunks : List TimedChunk) :
    ∃ single concurrent,
      recvStreamBytes omitWindow (readTurns (wl.deadline c) endIdle now chunks) = some single ∧
      recvStreamBytes omitWindow (readTurns (wc.deadline c) endIdle now chunks) =
        some concurrent ∧
      single.bytes = (chunks.map TimedChunk.size).sum ∧
      (concurrent.bytes = single.bytes ↔ ∀ ch ∈ chunks, ch.idle ≤ h) := by
  have hnone : wl.deadline c = none := by
    rw [acceptStreamsViaListener] at hlistener
    obtain ⟨_, w₁, _, hloop⟩ := runIn_bind_eq_ok hlistener
    exact (listener_clears_deadline cookie (some h) n 0 hloop).1 c hc
  have hsome : wc.deadline c = some h := by
    obtain ⟨hwait, hdead⟩ := channel_keeps_deadline (some h) n hchannel
    have hmem : c ∈ taken.map Prod.fst := by
      rw [show taken.map Prod.fst = ds' ++ wc.waiting from hwait]
      exact List.mem_append_left _ hc'
    obtain ⟨p, hp, rfl⟩ := List.mem_map.mp hmem
    rw [hdead]
    exact (acceptConnections_deadline (some h) n haccept).1 p hp
  obtain ⟨single, hsingle, hsb⟩ :=
    recvStreamLoop_readTurns omitWindow (wl.deadline c) endIdle chunks now .empty
  obtain ⟨concurrent, hconcurrent, hcb⟩ :=
    recvStreamLoop_readTurns omitWindow (wc.deadline c) endIdle chunks now .empty
  have hall : ((timely none chunks).map TimedChunk.size).sum = (chunks.map TimedChunk.size).sum :=
    (sum_timely_eq_iff none chunks).mpr fun ch _ => rfl
  rw [hnone, hall] at hsb
  rw [hsome] at hcb
  have hempty : StreamReceipt.empty.bytes = 0 := rfl
  refine ⟨single, concurrent, hsingle, hconcurrent, by omega, ?_⟩
  rw [show concurrent.bytes = single.bytes ↔ ((timely (some h) chunks).map TimedChunk.size).sum =
    (chunks.map TimedChunk.size).sum by omega, sum_timely_eq_iff]
  simp only [overdue, Option.any_some, decide_eq_false_iff_not, Nat.not_lt]

/-! ### A sender that pauses -/

/-- One data connection in the backlog, no deadline anywhere. -/
def oneWaiting : Sockets := ⟨[ownConn], fun _ => none⟩

/-- Three bytes at once and five more after a pause of ten seconds. -/
def pausedChunks : List TimedChunk := [⟨0, 3, by decide⟩, ⟨fromSecs 10, 5, by decide⟩]

theorem oneWaiting_listener : ∃ wl, (acceptStreamsViaListener sessionCookie 1
    (some (fromSecs 5))).runIn deadlineWorld oneWaiting = some (.ok [ownConn], wl) ∧
      wl.deadline ownConn = none := ⟨_, rfl, rfl⟩

theorem oneWaiting_concurrent : ∃ wa wc, (acceptConnections (some (fromSecs 5)) 1).runIn
    deadlineWorld oneWaiting = some (.ok [(ownConn, sessionCookie)], wa) ∧
      (acceptStreamsFromChannel (some (fromSecs 5)) 1).runIn deadlineWorld
        ⟨[ownConn], wa.deadline⟩ = some (.ok [ownConn], wc) ∧
      wc.deadline ownConn = some (fromSecs 5) := ⟨_, _, rfl, rfl, rfl⟩

/-- With a handshake timeout of five seconds the single-session reader counts eight bytes, the
    concurrent one three. -/
theorem pause_cuts_concurrent_stream :
    ∃ wl wa wc,
      (acceptStreamsViaListener sessionCookie 1 (some (fromSecs 5))).runIn deadlineWorld
        oneWaiting = some (.ok [ownConn], wl) ∧
      (acceptConnections (some (fromSecs 5)) 1).runIn deadlineWorld oneWaiting =
        some (.ok [(ownConn, sessionCookie)], wa) ∧
      (acceptStreamsFromChannel (some (fromSecs 5)) 1).runIn deadlineWorld
        ⟨[ownConn], wa.deadline⟩ = some (.ok [ownConn], wc) ∧
      (recvStreamBytes 0 (readTurns (wl.deadline ownConn) 0 0 pausedChunks)).map
        StreamReceipt.bytes = some 8 ∧
      (recvStreamBytes 0 (readTurns (wc.deadline ownConn) 0 0 pausedChunks)).map
        StreamReceipt.bytes = some 3 := by
  obtain ⟨wl, hlistener, hnone⟩ := oneWaiting_listener
  obtain ⟨wa, wc, haccept, hchannel, hsome⟩ := oneWaiting_concurrent
  refine ⟨wl, wa, wc, hlistener, haccept, hchannel, ?_, ?_⟩
  · rw [hnone]
    decide +kernel
  · rw [hsome]
    decide +kernel

theorem slow_streams_agree_iff_paused :
    ∃ single concurrent : StreamReceipt, single.bytes = 8 ∧
      (concurrent.bytes = single.bytes ↔ ∀ ch ∈ pausedChunks, ch.idle ≤ fromSecs 5) := by
  obtain ⟨wl, hlistener, _⟩ := oneWaiting_listener
  obtain ⟨wa, wc, haccept, hchannel, _⟩ := oneWaiting_concurrent
  obtain ⟨single, concurrent, -, -, hbytes, hiff⟩ := slow_streams_agree_iff hlistener haccept
    hchannel List.mem_cons_self List.mem_cons_self 0 0 0 pausedChunks
  exact ⟨single, concurrent, hbytes, hiff⟩

end Rperf3
