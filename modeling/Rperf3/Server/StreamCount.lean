/-
  Does the server collect as many data streams as the client opens?

  The two sides compute the number independently: the client starts one thread per stream id and
  direction, the server collects `opts.parallel` streams before `TestStart`.  For every accepted
  configuration and each of the collecting functions (`accept_streams_via_listener`,
  `accept_streams_from_channel`, `accept_udp_streams`) the server takes exactly `parallel` streams;
  something is left over — in the listener's backlog, in the session's channel, or a UDP source that
  nobody registered — exactly in a BIDIRECTIONAL test, where the client opens twice as many.
-/
import Rperf3.Client.Streams
import Rperf3.Server.AcceptStreams
import Rperf3.Server.UdpLossless

namespace Rperf3

open Effect Effect.Prog

/-! ## The channel -/

/-- `accept_streams_from_channel` takes the first `n` streams of the channel. -/
theorem acceptStreamsFromChannel_ok (timeout : Option Nat) (n : Nat) : ∀ cs : List Conn,
    n ≤ cs.length → (acceptStreamsFromChannel timeout n).runIn arrivalWorld cs =
      some (.ok (cs.take n), cs.drop n) := by
  induction n with
  | zero => intro cs _; rfl
  | succ n ih =>
    intro cs hlen
    cases cs with
    | nil => exact absurd hlen (Nat.not_succ_le_zero n)
    | cons c cs =>
      show Prog.runIn arrivalWorld (Prog.onResult (acceptStreamsFromChannel timeout n) _) cs = _
      rw [runIn_onResult, ih cs (Nat.le_of_succ_le_succ hlen)]
      rfl

/-! ## Agreement -/

theorem drop_eq_nil_iff_count {cfg : Config} {token : Option String} {α : Type} {cs : List α}
    (hval : validateOptions (sendOptions cfg token) = .ok ())
    (hlen : cs.length = expectedStreams cfg) :
    cs.drop (sendOptions cfg token).parallel = [] ↔ cfg.direction ≠ .bidirectional := by
  have hpar : 1 ≤ cfg.parallel := ((validateOptions_ok_iff _).mp hval).1.1
  have hle := le_expectedStreams cfg
  rw [← expectedStreams_eq_iff hpar, List.drop_eq_nil_iff, hlen]
  show expectedStreams cfg ≤ cfg.parallel ↔ _
  omega

/-- With one source per stream-init, every source is among the first `n` exactly when there are no
    more than `n` inits. -/
theorem registered_iff_drop_eq_nil {cookie : Bytes} {arrivals : List Datagram} (n : Nat)
    (hinits : ((arrivals.filter (isInit cookie)).map Datagram.src).Nodup) :
    (∀ d ∈ arrivals, isInit cookie d = true →
      d.src ∈ ((arrivals.filter (isInit cookie)).take n).map Datagram.src) ↔
    (arrivals.filter (isInit cookie)).drop n = [] := by
  have hsplit := List.take_append_drop n (arrivals.filter (isInit cookie))
  constructor
  · intro hall
    rw [List.eq_nil_iff_forall_not_mem]
    intro d hd
    -- a source of its own among the later inits would occur twice
    obtain ⟨hmem, hinit⟩ := List.mem_filter.mp (List.mem_of_mem_drop hd)
    rw [← hsplit, List.map_append] at hinits
    exact (List.nodup_append.mp hinits).2.2 _ (hall d hmem hinit) _
      (List.mem_map.mpr ⟨d, hd, rfl⟩) rfl
  · intro hnil d hd hinit
    rw [hnil, List.append_nil] at hsplit
    rw [hsplit]
    exact List.mem_map.mpr ⟨d, List.mem_filter.mpr ⟨hd, hinit⟩, rfl⟩

/-- **Stream-count agreement.**  `conns` are the client's data connections in any order of arrival,
    one per TCP thread; `arrivals` are datagrams whose stream-inits come from distinct sources, one
    per UDP thread.  The server collects `parallel` of them, and they are all of them if and only if
    the test is not bidirectional. -/
theorem stream_count_agreement_iff (cfg : Config) (token : Option String) (port : Option Nat)
    (cookie : Bytes) (timeout : Option Nat)
    (hval : validateOptions (sendOptions cfg token) = .ok ())
    (conns : List Conn) (hconns : conns.length = (createStreams cfg port).length)
    (hcookie : ∀ c ∈ conns, presentsCookie cookie timeout c)
    (arrivals : List Datagram)
    (hinits : ((arrivals.filter (isInit cookie)).map Datagram.src).Nodup)
    (hcount : (arrivals.filter (isInit cookie)).length = (createStreams cfg port).length) :
    ((createStreams cfg port).length = (sendOptions cfg token).parallel ↔
      cfg.direction ≠ .bidirectional) ∧
    (∃ streams backlog,
      (acceptStreamsViaListener cookie (sendOptions cfg token).parallel timeout).runIn
        arrivalWorld conns = some (.ok streams, backlog) ∧
      streams.length = (sendOptions cfg token).parallel ∧
      (backlog = [] ↔ cfg.direction ≠ .bidirectional)) ∧
    (∃ streams channel,
      (acceptStreamsFromChannel timeout (sendOptions cfg token).parallel).runIn
        arrivalWorld conns = some (.ok streams, channel) ∧
      streams.length = (sendOptions cfg token).parallel ∧
      (channel = [] ↔ cfg.direction ≠ .bidirectional)) ∧
    (∃ addrs rest,
      acceptUdpStreams cookie (sendOptions cfg token).parallel arrivals = some (addrs, rest) ∧
      addrs.length = (sendOptions cfg token).parallel ∧
      ((∀ d ∈ arrivals, isInit cookie d = true → d.src ∈ addrs) ↔
        cfg.direction ≠ .bidirectional)) := by
  rw [length_createStreams] at hconns hcount ⊢
  have hpar : 1 ≤ cfg.parallel := ((validateOptions_ok_iff _).mp hval).1.1
  have hle : (sendOptions cfg token).parallel ≤ expectedStreams cfg := le_expectedStreams cfg
  have htake : (conns.take (sendOptions cfg token).parallel).length =
      (sendOptions cfg token).parallel := by
    rw [List.length_take]
    omega
  refine ⟨expectedStreams_eq_iff hpar, ?_, ?_, ?_⟩
  · refine ⟨_, _, (acceptStreams_ok_iff cookie timeout _ conns _ _).mpr
      ⟨(List.take_append_drop _ conns).symm, htake, ?_⟩, htake, drop_eq_nil_iff_count hval hconns⟩
    exact fun c hc => hcookie c (List.mem_of_mem_take hc)
  · exact ⟨_, _, acceptStreamsFromChannel_ok timeout _ conns (by omega), htake,
      drop_eq_nil_iff_count hval hconns⟩
  · obtain ⟨taken, rest, -, hacc, -, -⟩ :=
      acceptUdpLoop_spec cookie arrivals (sendOptions cfg token).parallel [] (by omega) hinits
    refine ⟨_, rest, hacc, ?_, ?_⟩
    · rw [List.nil_append, List.length_map, List.length_take]
      omega
    · rw [List.nil_append, ← drop_eq_nil_iff_count hval hcount]
      exact registered_iff_drop_eq_nil _ hinits

/-! ### A bidirectional test with one stream -/

def bidirConfig : Config := { Config.withHost "127.0.0.1" with direction := .bidirectional }

/-- Its two connections. -/
def bidirConns : List Conn :=
  [⟨⟨2130706433, 40001⟩, ⟨[sessionCookie], .stalls⟩⟩,
    ⟨⟨2130706433, 40002⟩, ⟨[sessionCookie], .stalls⟩⟩]

/-- The client opens two connections, the server takes one; the other stays in the backlog. -/
theorem bidir_connection_left_over :
    validateOptions (sendOptions bidirConfig none) = .ok () ∧
    (createStreams bidirConfig none).length = 2 ∧ bidirConns.length = 2 ∧
    (acceptStreamsViaListener sessionCookie (sendOptions bidirConfig none).parallel
      (some (fromSecs 30))).runIn arrivalWorld bidirConns =
        some (.ok (bidirConns.take 1), bidirConns.drop 1) := by
  refine ⟨(validateOptions_ok_iff _).mpr (by decide), length_createStreams _ _, rfl, ?_⟩
  refine (acceptStreams_ok_iff _ _ _ _ _ _).mpr ⟨rfl, rfl, fun c hc => ?_⟩
  rw [List.mem_singleton.mp hc]
  exact presentsCookie_of_prefix (by decide) _ (List.append_nil _).symm

theorem stream_count_agreement_iff_bidir :
    (createStreams bidirConfig none).length = (sendOptions bidirConfig none).parallel ↔
      bidirConfig.direction ≠ .bidirectional :=
  (stream_count_agreement_iff bidirConfig none none sessionCookie none
    ((validateOptions_ok_iff _).mpr (by decide)) bidirConns
    (length_createStreams bidirConfig none).symm
    (fun c hc => presentsCookie_of_prefix (by decide) _ (by
      rcases List.mem_cons.mp hc with rfl | hc
      · exact (List.append_nil _).symm
      · rw [List.mem_singleton.mp hc]
        exact (List.append_nil _).symm))
    [⟨⟨2130706433, 40001⟩, sessionCookie⟩, ⟨⟨2130706433, 40002⟩, sessionCookie⟩] (by decide)
    (by decide)).1

end Rperf3
