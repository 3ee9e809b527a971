/-
  CUT UNITS: who writes behind a unit that the socket took only in part.

  Every connection the program writes to is a `Connection`: the control and data connections of a
  client, those of a server, and the connections the accept loop turns away.  A control writer is a
  program; its sends and the outcomes it saw must be those of one socket (`OnSocket`), under an
  ARBITRARY schedule of `send` answers, and it may have come any distance (`Steps`).

  Whether anything is written behind a cut unit is a matter of the answers (`Connection.Spoiled`):
  a call in the middle of a unit is refused, or the one call for the cookie is short, and a later
  call goes through.  It happens behind three kinds of units: the cookie, which is sent with a
  single `send` whose count nobody looks at, and the two JSON frames, whose failures are logged or
  dropped.
-/
import Rperf3.Common.TcpStream
import Rperf3.Common.UnitLog
import Rperf3.Protocol.TornFrames
import Rperf3.Server.AcceptStreams

namespace Rperf3

open BigEndian Effect Effect.Prog Effect.Discipline ShortIO

/-! ## Control connections -/

section Connections

variable (js : Codecs)

/-- A client's control connection, at any time of any run of the loop.  Call number 0 is the one for
    the cookie. -/
structure ClientControl where
  answers : Nat → Answer IoError
  cfg : Config
  token : Option String
  cookie : Bytes
  written : Bytes
  rounds : Nat
  transcript : List (Event ClientOp ClientOp.Ok IoError)
  rest : ClientM (Option Test)
  connected : connect true (answers 0) cookie = some written
  steps : Steps (Test.clientLoop cfg token rounds (Test.new true) 0 false) transcript rest
  socket : OnSocket js answers id (clientSends transcript) ⟨1, written⟩

/-- The control connection of a session, at any time of any run of its driver. -/
structure ServerControl where
  answers : Nat → Answer IoError
  entry : Entry
  auth : AuthConfig
  cookie : Bytes
  timeout : Option Nat
  transcript : Transcript
  rest : Session Nat
  steps : Steps (sessionProgram entry auth cookie timeout) transcript rest
  socket : OnSocket js answers .io (serverSends transcript) Sink.fresh

variable {js}

namespace ClientControl

variable (c : ClientControl js)

/-- What the client has tried to send after the cookie. -/
def items : List Item := (clientSends c.transcript).map Prod.fst

def log : List (UnitWrite js) :=
  ⟨.cookie c.cookie, c.written, connect_part c.connected⟩ ::
    controlLog js c.answers c.items ⟨1, c.written⟩

/-- The socket now. -/
def sink : Sink UInt8 := sinkAfter js c.answers c.items ⟨1, c.written⟩

/-- The call for the cookie is short and a later one goes through, or a unit after it is broken
    off. -/
def Spoiled : Prop :=
  (ShortSend (c.answers 0) c.cookie ∧ ∃ k, 1 ≤ k ∧ k < c.sink.calls ∧ (c.answers k).takes = true) ∨
    BrokenOff js c.answers c.items ⟨1, c.written⟩

end ClientControl

namespace ServerControl

variable (c : ServerControl js)

/-- What the session has tried to send. -/
def items : List Item := (serverSends c.transcript).map Prod.fst

def log : List (UnitWrite js) := controlLog js c.answers c.items Sink.fresh

/-- The socket now. -/
def sink : Sink UInt8 := sinkAfter js c.answers c.items Sink.fresh

def Spoiled : Prop := BrokenOff js c.answers c.items Sink.fresh

end ServerControl

/-! ## Every connection the program writes to -/

variable (js) in
/-- The connections of the program.  A sender thread that still runs has written what it would have
    written if its time were up.  `refused`: `connect` failed, and nothing was written; `receiver`:
    the client's receiver threads only send the cookie. -/
inductive Connection
  | clientControl (c : ClientControl js)
  | serverControl (c : ServerControl js)
  | refused
  | receiver (opened : Bool) (cookieSend : Answer IoError) (cookie written : Bytes)
      (h : connect opened cookieSend cookie = some written)
  | sender (cfg : Config) (cookie : Bytes) (streamId : Nat) (env : TcpEnv) (run : TcpRun)
      (h : startTcp cfg cookie streamId env = some run)
  | serverData (payload : Bytes)
  | turnedAway (answers : Nat → Answer IoError)

namespace Connection

/-- The attempts to write a unit. -/
def log : Connection js → List (UnitWrite js)
  | clientControl c => c.log
  | serverControl c => c.log
  | refused => []
  | receiver _ _ cookie written h => [⟨.cookie cookie, written, connect_part h⟩]
  | sender _ cookie _ _ run h => [⟨.cookie cookie, run.cookie, startTcp_cookie h⟩,
      ⟨.payload run.payload, run.payload, List.prefix_rfl⟩]
  | serverData payload => [⟨.payload payload, payload, List.prefix_rfl⟩]
  | turnedAway answers => controlLog js answers [.byte .accessDenied] Sink.fresh

/-- The bytes on the connection. -/
def bytes : Connection js → Bytes
  | clientControl c => c.sink.written
  | serverControl c => c.sink.written
  | refused => []
  | receiver _ _ _ written _ => written
  | sender _ _ _ _ run _ => run.cookie ++ run.payload
  | serverData payload => payload
  | turnedAway answers => (sinkAfter js answers [.byte .accessDenied] Sink.fresh).written

/-- The answers that make something be written behind a cut unit.  On a data connection: the call
    for the cookie is short, and the thread comes to send. -/
def Spoiled : Connection js → Prop
  | clientControl c => c.Spoiled
  | serverControl c => c.Spoiled
  | sender cfg cookie _ env _ _ =>
    env.opened = true ∧ ShortSend env.cookieSend cookie ∧ env.blocking = true ∧
      SendsPayload cfg.len cfg.totalBytes cfg.totalBlocks env.turns
  | _ => False

theorem bytes_eq_writtenBytes : ∀ c : Connection js, c.bytes = writtenBytes c.log
  | clientControl c => written_sinkAfter c.items _
  | serverControl c => written_sinkAfter c.items _
  | refused => rfl
  | receiver _ _ _ _ _ => (List.append_nil _).symm
  | sender _ _ _ _ run _ => congrArg (run.cookie ++ ·) (List.append_nil run.payload).symm
  | serverData _ => (List.append_nil _).symm
  | turnedAway _ => written_sinkAfter _ _

end Connection

end Connections

/-! ## What may stand behind a cut unit -/

/-- The units behind which something may still be written although they were cut. -/
def WireUnit.mayTear : WireUnit → Bool
  | .cookie _ | .item (.options _) | .item (.results _) => true
  | _ => false

variable {js : Codecs}

section Behind

variable {pre post : List (UnitWrite js)} {w : UnitWrite js}

theorem ClientControl.mayTear (c : ClientControl js) (hsplit : c.log = pre ++ w :: post)
    (hcut : w.Cut) : w.unit.mayTear = true := by
  cases pre with
  | nil =>
    cases hsplit
    rfl
  | cons x pre =>
    obtain ⟨before, i, after, hitems, rfl, -⟩ := controlLog_split (List.cons.inj hsplit).2
    obtain ⟨hbyte, before', e, after', hsends, -⟩ := exists_send_of_cut c.socket hitems hcut
    have hport := clientSends_noPort c.steps (noPort_clientLoop _ _ _ _ _ _)
      (i := i) (r := .error e) (by rw [hsends]; exact List.mem_append_right _ List.mem_cons_self)
    show (WireUnit.item i).mayTear = true
    cases i with
    | byte m => exact absurd rfl (hbyte m)
    | port p => exact absurd rfl (hport p)
    | options o => rfl
    | results r => rfl

/-- **Behind a cut unit of a session** there is nothing, or `DisplayResults` behind a results
    frame. -/
theorem ServerControl.cut (c : ServerControl js) {before after : List Item} {i : Item}
    (hitems : c.items = before ++ i :: after)
    (hcut : (i.unitWrite js c.answers (sinkAfter js c.answers before Sink.fresh)).Cut) :
    after = [] ∨ (∃ r, i = .results r) ∧ after = [.byte .displayResults] := by
  obtain ⟨hbyte, before', e, after', hsends, rfl⟩ := exists_send_of_cut c.socket hitems hcut
  have hallows := wp_steps (fun _ _ _ => trivial) c.steps (wp_sessionProgram _ _ _ _)
  rcases sends_after_failure hallows hsends hbyte with rfl | ⟨hresults, a, rfl⟩
  · exact .inl rfl
  · exact .inr ⟨hresults, rfl⟩

theorem ServerControl.mayTear (c : ServerControl js) (hsplit : c.log = pre ++ w :: post)
    (hcut : w.Cut) (hpost : post ≠ []) : w.unit.mayTear = true := by
  obtain ⟨before, i, after, hitems, rfl, rfl⟩ := controlLog_split hsplit
  rcases c.cut hitems hcut with rfl | ⟨⟨r, rfl⟩, -⟩
  · exact absurd rfl hpost
  · rfl

theorem post_eq_nil_of_singleton {x : UnitWrite js} (h : [x] = pre ++ w :: post) : post = [] := by
  have hlen : 1 = (pre ++ w :: post).length := congrArg List.length h
  rw [List.length_append, List.length_cons] at hlen
  exact List.eq_nil_of_length_eq_zero (by omega)

/-- On any connection, only a cut cookie or JSON frame can be followed by anything. -/
theorem Connection.mayTear (c : Connection js) (hsplit : c.log = pre ++ w :: post) (hcut : w.Cut)
    (hpost : post ≠ []) : w.unit.mayTear = true := by
  cases c with
  | clientControl c => exact c.mayTear hsplit hcut
  | serverControl c => exact c.mayTear hsplit hcut hpost
  | refused => exact absurd hsplit.symm (List.append_ne_nil_of_right_ne_nil pre nofun)
  | receiver _ _ _ _ _ => exact absurd (post_eq_nil_of_singleton hsplit) hpost
  | sender _ _ _ _ _ _ =>
    cases pre with
    | nil =>
      cases hsplit
      rfl
    | cons x pre => exact absurd (post_eq_nil_of_singleton (List.cons.inj hsplit).2) hpost
  | serverData _ => exact absurd (post_eq_nil_of_singleton hsplit) hpost
  | turnedAway _ => exact absurd (post_eq_nil_of_singleton hsplit) hpost

end Behind

/-! ## When nothing is written behind a cut unit -/

theorem clean_singleton (w : UnitWrite js) : Clean [w] :=
  ⟨fun _ _ h => absurd h List.not_mem_nil, trivial⟩

theorem ClientControl.clean_iff_not_spoiled (c : ClientControl js) :
    Clean c.log ↔ ¬ c.Spoiled := by
  have hcookie : (⟨.cookie c.cookie, c.written, connect_part c.connected⟩ : UnitWrite js).Cut ↔
      ShortSend (c.answers 0) c.cookie := connect_cut_iff c.connected
  have hlater := exists_part_iff js c.answers c.items ⟨1, c.written⟩
  rw [log, Clean, clean_controlLog_iff, hcookie, Spoiled, not_or, not_and]
  refine and_congr_left' (imp_congr_right fun _ => ?_)
  rw [sink, ← hlater]
  simp only [not_exists, not_and, not_not]

/-- The sessions that spoil their connection: call `k` is refused in the middle of a results frame,
    and the next one, for `DisplayResults`, goes through. -/
theorem ServerControl.spoiled_iff (c : ServerControl js) : c.Spoiled ↔
    ∃ before r k, c.items = before ++ [.results r, .byte .displayResults] ∧
      (sinkAfter js c.answers before Sink.fresh).calls < k ∧
      k + 1 = (sinkAfter js c.answers (before ++ [.results r]) Sink.fresh).calls ∧
      (c.answers k).takes = false ∧ (c.answers (k + 1)).takes = true := by
  have hafter (before : List Item) (i : Item) :
      sinkAfter js c.answers (before ++ [i]) Sink.fresh =
        (i.write js c.answers (sinkAfter js c.answers before Sink.fresh)).2 :=
    sinkAfter_append before [i] _
  constructor
  · rintro ⟨before, i, after, k, k', hitems, hk, hk', hrefused, hj, hj', htaken⟩
    rw [hafter] at hk'
    obtain ⟨hwrote, -, hcut⟩ := write_spec js c.answers i (sinkAfter js c.answers before Sink.fresh)
    have hlast := hwrote.refused k (Nat.le_of_lt hk) hk' hrefused
    rcases c.cut hitems (hcut.mpr ⟨k, hk, hk', hrefused⟩) with rfl | ⟨⟨r, rfl⟩, rfl⟩
    · rw [hitems] at hj'
      exact absurd hj' (Nat.not_lt.mpr hj)
    · refine ⟨before, r, k, hitems, hk, by rw [hafter]; exact hlast, hrefused, ?_⟩
      -- the byte has one call: if it is refused there is no other
      rw [hitems, List.append_cons, hafter] at hj'
      obtain ⟨hbyte, -, -⟩ := write_spec js c.answers (.byte .displayResults)
        (sinkAfter js c.answers (before ++ [.results r]) Sink.fresh)
      rw [hafter, ← hlast] at hj
      by_contra hnot
      have hone := hbyte.refused (k + 1) (by rw [hafter, hlast]) (by omega)
        (Bool.eq_false_iff.mpr hnot)
      obtain rfl : k' = k + 1 := by omega
      exact hnot htaken
  · rintro ⟨before, r, k, hitems, hk, hlast, hrefused, htaken⟩
    refine ⟨before, .results r, [.byte .displayResults], k, k + 1, hitems, hk, by omega, hrefused,
      by omega, ?_, htaken⟩
    rw [hitems, List.append_cons, hafter, hlast]
    exact (writes_writeAll c.answers writeZeroError _).calls_lt (List.cons_ne_nil _ _) _

/-- **A connection is clean unless its answers spoil it.** -/
theorem Connection.clean_iff_not_spoiled : ∀ c : Connection js, Clean c.log ↔ ¬ c.Spoiled
  | clientControl c => c.clean_iff_not_spoiled
  | serverControl c => clean_controlLog_iff c.items _
  | refused => iff_of_true trivial not_false
  | receiver _ _ _ _ _ => iff_of_true (clean_singleton _) not_false
  | serverData _ => iff_of_true (clean_singleton _) not_false
  | turnedAway _ => iff_of_true (clean_singleton _) not_false
  | sender cfg cookie streamId env run h => by
    have hpair : Clean (sender cfg cookie streamId env run h : Connection js).log ↔
        ¬ ((run.cookie ≠ [] ∧ run.cookie ≠ cookie) ∧ run.payload ≠ []) := by
      rw [log, Clean, iff_true_intro (clean_singleton _), and_true, List.forall_mem_singleton,
        not_and_not_right]
      rfl
    rw [hpair, Spoiled]
    refine not_congr ?_
    rcases startTcp_cases h with ⟨hnone, hcookie, -⟩ | ⟨hconnect, hloop⟩
    · refine iff_of_false (fun hcut => hcut.1.1 hcookie) ?_
      rintro ⟨hopened, ⟨n, hn, -⟩, -⟩
      rw [hopened, hn] at hnone
      cases hnone
    · have hopened := (connect_eq_some.mp hconnect).1
      rw [connect_cut_iff hconnect, and_iff_right hopened]
      refine and_congr_right fun _ => ?_
      rcases hloop with ⟨hblocking, hpayload⟩ | ⟨hblocking, e, hloop⟩
      · exact iff_of_false (fun hne => hne hpayload) fun hs =>
          Bool.false_ne_true (hblocking.symm.trans hs.1)
      · rw [tcpSendLoop_payload_iff rfl hloop, and_iff_right hblocking]

/-- **Cut units.**  `connect` vouches for the whole cookie exactly if its one `send` cannot take
    less.  Nothing is written behind a cut unit of a connection exactly if its `send` answers do not
    spoil it; a session's answers do exactly if a call in the middle of the results frame is refused
    and the next call, for `DisplayResults`, goes through.  Only behind a cookie or a JSON frame
    does it happen at all.  The bytes of a connection that is not spoiled are complete units, with
    at most the last one incomplete. -/
theorem clean_connection_iff (js : Codecs) :
    (∀ (opened : Bool) (cookieSend : Answer IoError) (cookie : Bytes),
      (∀ written, connect opened cookieSend cookie = some written → written = cookie) ↔
        (opened = true → ∀ n, cookieSend = .accepts n → cookie.length ≤ n)) ∧
    (∀ c : Connection js, Clean c.log ↔ ¬ c.Spoiled) ∧
    (∀ c : ServerControl js, c.Spoiled ↔
      ∃ before r k, c.items = before ++ [.results r, .byte .displayResults] ∧
        (sinkAfter js c.answers before Sink.fresh).calls < k ∧
        k + 1 = (sinkAfter js c.answers (before ++ [.results r]) Sink.fresh).calls ∧
        (c.answers k).takes = false ∧ (c.answers (k + 1)).takes = true) ∧
    (∀ (c : Connection js) (pre post : List (UnitWrite js)) (w : UnitWrite js),
      c.log = pre ++ w :: post → w.Cut → post ≠ [] → w.unit.mayTear = true) ∧
    ∀ c : Connection js, ¬ c.Spoiled → ∃ (whole : List WireUnit) (part : Bytes),
      c.bytes = whole.flatMap (WireUnit.bytes js) ++ part ∧
      whole.Sublist (c.log.map UnitWrite.unit) ∧
      (part = [] ∨ ∃ w ∈ c.log, w.Cut ∧ part = w.part) := by
  refine ⟨connect_whole_iff, Connection.clean_iff_not_spoiled, ServerControl.spoiled_iff,
    fun c pre post w => c.mayTear, fun c hc => ?_⟩
  rw [c.bytes_eq_writtenBytes]
  exact (c.clean_iff_not_spoiled.mpr hc).bytes

/-! ## Runs that go on -/

section Runs

variable {answers : Nat → Answer IoError} {s : Sink UInt8}

theorem write_byte {m : Message} {n : Nat} (h : answers s.calls = .accepts (n + 1)) :
    (Item.byte m).write js answers s = (.ok (), ⟨s.calls + 1, s.written ++ [m.code]⟩) :=
  writeAll_whole (List.cons_ne_nil _ _) h (Nat.le_add_left 1 n)

/-- The bytes `ms` go out, whatever is sent after them. -/
theorem sinkAfter_bytes {n : Nat} (ms : List Message) {s : Sink UInt8}
    (h : ∀ k, s.calls ≤ k → k < s.calls + ms.length → answers k = .accepts (n + 1)) :
    sinkAfter js answers (ms.map Item.byte) s =
      ⟨s.calls + ms.length, s.written ++ ms.map Message.code⟩ := by
  induction ms generalizing s with
  | nil => rw [List.map_nil, List.map_nil, List.append_nil]; rfl
  | cons m ms ih =>
    rw [List.length_cons] at h
    rw [List.map_cons, sinkAfter, write_byte (h s.calls (Nat.le_refl _) (by omega)), ih]
    · rw [List.map_cons, List.length_cons, List.append_assoc, Nat.add_right_comm, Nat.add_assoc]
      rfl
    · intro k hk hk'
      exact h k (Nat.le_of_succ_le hk) (by dsimp only at hk'; omega)

theorem onSocket_bytes {ε : Type} {io : IoError → ε} {n : Nat} (ms : List Message) {s : Sink UInt8}
    (h : ∀ k, s.calls ≤ k → k < s.calls + ms.length → answers k = .accepts (n + 1)) :
    OnSocket js answers io (ms.map fun m => (.byte m, .ok ())) s := by
  induction ms generalizing s with
  | nil => trivial
  | cons m ms ih =>
    rw [List.length_cons] at h
    have hbyte : (Item.byte m).write js answers s =
        (.ok (), ⟨s.calls + 1, s.written ++ [m.code]⟩) :=
      write_byte (h s.calls (Nat.le_refl _) (by omega))
    refine ⟨by rw [hbyte]; rfl, ?_⟩
    rw [hbyte]
    refine ih fun k hk hk' => h k (Nat.le_of_succ_le hk) ?_
    dsimp only at hk'
    omega

/-- A results frame whose length is refused. -/
theorem write_results_refused {r : Results} {body : Bytes} {e : IoError}
    (hbody : js.results.toVec r = .ok body) (hlen : body.length < 2 ^ 32)
    (hfails : answers s.calls = .fails e) :
    (Item.results r).write js answers s = (.error e, ⟨s.calls + 1, s.written ++ []⟩) := by
  show (sendFramedJson (Sink.send answers) js.results r).on s = _
  have hbe : (toBE 4 body.length).length = 4 := length_toBE 4 _
  have hfirst : (writeAll (Sink.send answers) writeZeroError (toBE 4 body.length)).on s =
      (.error e, ⟨s.calls + 1, s.written⟩) :=
    writeAll_fails (List.ne_nil_of_length_pos (by omega)) hfails
  rw [sendFramedJson_eq _ hbody hlen, on_bind_error hfirst, List.append_nil]

/-- The length goes out, the body does not. -/
theorem write_results_cut {r : Results} {body : Bytes} {n : Nat} {e : IoError}
    (hbody : js.results.toVec r = .ok body) (hne : body ≠ []) (hlen : body.length < 2 ^ 32)
    (hsent : answers s.calls = .accepts n) (hn : 4 ≤ n)
    (hfails : answers (s.calls + 1) = .fails e) :
    (Item.results r).write js answers s =
      (.error e, ⟨s.calls + 2, s.written ++ toBE 4 body.length⟩) := by
  show (sendFramedJson (Sink.send answers) js.results r).on s = _
  have hbe : (toBE 4 body.length).length = 4 := length_toBE 4 _
  have hwhole : (writeAll (Sink.send answers) writeZeroError (toBE 4 body.length)).on s =
      (.ok (), ⟨s.calls + 1, s.written ++ toBE 4 body.length⟩) :=
    writeAll_whole (List.ne_nil_of_length_pos (by omega)) hsent (by omega)
  rw [sendFramedJson_eq _ hbody hlen, on_bind_ok hwhole]
  exact writeAll_fails hne hfails

/-- Some bytes, a results frame that fails, and one more byte. -/
def tornSends {ε : Type} (ms : List Message) (r : Results) (e : ε) (m : Message) :
    List (Item × Except ε Unit) :=
  ms.map (fun m => (.byte m, .ok ())) ++ [(.results r, .error e), (.byte m, .ok ())]

theorem tornSends_items {ε : Type} (ms : List Message) (r : Results) (e : ε) (m : Message) :
    (tornSends ms r e m).map Prod.fst = ms.map Item.byte ++ [.results r, .byte m] := by
  rw [tornSends, List.map_append, List.map_map]
  rfl

/-- **A run with a failed frame**: all other calls go through, and `part` of the frame stands
    between the bytes before it and the last one. -/
theorem failedFrame {ε : Type} (io : IoError → ε) (ms : List Message) (m : Message) {n calls : Nat}
    {r : Results} {e : IoError} {part : Bytes}
    (hbytes : ∀ k, s.calls ≤ k → k < s.calls + ms.length → answers k = .accepts (n + 1))
    (hframe : (Item.results r).write js answers
        ⟨s.calls + ms.length, s.written ++ ms.map Message.code⟩ =
      (.error e, ⟨calls, s.written ++ ms.map Message.code ++ part⟩))
    (hlast : answers calls = .accepts (n + 1)) :
    OnSocket js answers io (tornSends ms r (io e) m) s ∧
      sinkAfter js answers (ms.map Item.byte ++ [.results r]) s =
        ⟨calls, s.written ++ ms.map Message.code ++ part⟩ ∧
      sinkAfter js answers (ms.map Item.byte ++ [.results r, .byte m]) s =
        ⟨calls + 1, s.written ++ ms.map Message.code ++ part ++ [m.code]⟩ := by
  have hbefore : sinkAfter js answers (ms.map Item.byte) s =
      ⟨s.calls + ms.length, s.written ++ ms.map Message.code⟩ := sinkAfter_bytes ms hbytes
  have hbyte : (Item.byte m).write js answers ⟨calls, s.written ++ ms.map Message.code ++ part⟩ =
      (.ok (), ⟨calls + 1, s.written ++ ms.map Message.code ++ part ++ [m.code]⟩) :=
    write_byte hlast
  have hitems : (ms.map fun m => ((Item.byte m, .ok ()) : Item × Except ε Unit)).map Prod.fst =
      ms.map Item.byte := List.map_map
  refine ⟨onSocket_append.mpr ⟨onSocket_bytes ms hbytes, ?_⟩, ?_, ?_⟩
  · rw [hitems, hbefore]
    refine ⟨by rw [hframe]; rfl, ?_, trivial⟩
    rw [hframe, hbyte]
    rfl
  · rw [sinkAfter_append, hbefore, sinkAfter, hframe]
    rfl
  · rw [sinkAfter_append, hbefore, sinkAfter, hframe, sinkAfter, hbyte]
    rfl

/-- A socket whose `send` fails once. -/
def failsOnce (k : Nat) (e : IoError) : Nat → Answer IoError :=
  fun i => if i = k then .fails e else .accepts 64

theorem failsOnce_ne {k i : Nat} {e : IoError} (h : i ≠ k) : failsOnce k e i = .accepts 64 :=
  if_neg h

theorem failsOnce_self {k i : Nat} (e : IoError) (h : i = k) : failsOnce k e i = .fails e :=
  if_pos h

/-- **The torn run**: the call for the body of the frame fails, and the last byte stands where the
    body should. -/
theorem tornRun {ε : Type} (io : IoError → ε) (ms : List Message) (e : IoError) (m : Message)
    {k : Nat} {r : Results} {body : Bytes} (hbody : js.results.toVec r = .ok body)
    (hne : body ≠ []) (hlen : body.length < 2 ^ 32) (hk : k = s.calls + ms.length + 1) :
    OnSocket js (failsOnce k e) io (tornSends ms r (io e) m) s ∧
      BrokenOff js (failsOnce k e) (ms.map Item.byte ++ [.results r, .byte m]) s ∧
      (sinkAfter js (failsOnce k e) (ms.map Item.byte ++ [.results r, .byte m]) s).written =
        s.written ++ ms.map Message.code ++ toBE 4 body.length ++ [m.code] := by
  have hbytes : ∀ i, s.calls ≤ i → i < s.calls + ms.length → failsOnce k e i = .accepts 64 :=
    fun i _ hi => failsOnce_ne (by omega)
  have hframe : (Item.results r).write js (failsOnce k e)
      ⟨s.calls + ms.length, s.written ++ ms.map Message.code⟩ =
      (.error e,
        ⟨s.calls + ms.length + 2, s.written ++ ms.map Message.code ++ toBE 4 body.length⟩) :=
    write_results_cut hbody hne hlen (failsOnce_ne (by dsimp only; omega)) (by omega)
      (failsOnce_self e hk.symm)
  have hlast : failsOnce k e (s.calls + ms.length + 2) = .accepts 64 := failsOnce_ne (by omega)
  obtain ⟨hsocket, hcalls, hsink⟩ := failedFrame io ms m hbytes hframe hlast
  refine ⟨hsocket, ⟨ms.map Item.byte, .results r, [.byte m], k, k + 1, rfl, ?_, ?_, ?_, ?_, ?_, ?_⟩,
    by rw [hsink]⟩
  · rw [sinkAfter_bytes ms hbytes]
    dsimp only
    omega
  · rw [hcalls]
    dsimp only
    omega
  · rw [failsOnce_self e rfl]
    rfl
  · rw [hcalls]
    dsimp only
    omega
  · rw [hsink]
    dsimp only
    omega
  · rw [failsOnce_ne (by omega)]
    rfl

end Runs

/-- A serialiser that prints every value as an empty object. -/
def braces : Codecs where
  options := ⟨fun _ => .ok [123, 125], fun _ => .error "not read here"⟩
  results := ⟨fun _ => .ok [123, 125], fun _ => .error "not read here"⟩

/-- A write that took too long. -/
def stalled : IoError := ⟨.wouldBlock, "Resource temporarily unavailable"⟩

/-- A TCP test over one stream, in which the server's results cannot be written. -/
def stalledSession : (o : Op) → Except Stop o.Ok
  | .send (.results _) => .error (.io stalled)
  | .send _ => .ok ()
  | .recvOptions => .ok (sendOptions (Config.withHost "127.0.0.1") none)
  | .recvDataStream _ => .ok ownConn
  | .tune _ _ => .ok ()
  | .setReadTimeout _ => .ok ()
  | .spawn _ => .ok ()
  | .awaitByte _ => .ok .testEnd
  | .join _ => .ok []
  | .cpuUsage _ => .ok .zero
  | .recvResults => .ok (buildClientResults [] .zero)
  | _ => .error (.io stalled)

/-- The transcript up to `DisplayResults`. -/
def stalledTranscript : Transcript :=
  ((sessionProgram .channel none sessionCookie none).follow stalledSession 17).1

/-- What the session sends before its results. -/
def beforeResults : List Message :=
  [.paramExchange, .createStreams, .testStart, .testRunning, .exchangeResults]

theorem stalledTranscript_sends : serverSends stalledTranscript =
    tornSends beforeResults (buildServerResults [] .zero) (.io stalled) .displayResults := rfl

/-- The server asks for results and goes on to `DisplayResults`; the client's results cannot be
    written. -/
def stalledLoop : List (Event ClientOp ClientOp.Ok IoError) :=
  [⟨.recvByte, .ok Message.exchangeResults⟩, ⟨.drainReceipts, .ok []⟩,
    ⟨.cpuUsage 0, .ok CpuUsage.zero⟩,
    ⟨.send (.results (buildClientResults [] .zero)), .error stalled⟩, ⟨.drainReceipts, .ok []⟩,
    ⟨.tryRecv, .ok none⟩, ⟨.recvByte, .ok Message.displayResults⟩,
    ⟨.send (.byte .iperfDone), .ok ()⟩]

theorem steps_stalledLoop : ∃ q, Steps
    (Test.clientLoop (Config.withHost "127.0.0.1") none 2 (Test.new true) 0 false) stalledLoop q :=
  ⟨_, .op _ (.op _ (.op _ (.op _ (.op _ (.op _ (.op _ (.op _ (.refl _))))))))⟩

/-- The control connection of that session on a socket whose call number `k` fails. -/
def stalledControl (k : Nat)
    (h : OnSocket braces (failsOnce k stalled) Stop.io
      (tornSends beforeResults (buildServerResults [] .zero) (.io stalled) .displayResults)
      Sink.fresh) : ServerControl braces where
  answers := failsOnce k stalled
  entry := .channel
  auth := none
  cookie := sessionCookie
  timeout := none
  transcript := stalledTranscript
  rest := _
  steps := steps_follow stalledSession 17 _
  socket := stalledTranscript_sends ▸ h

theorem stalledControl_items {k : Nat} (h) : (stalledControl k h).items =
    beforeResults.map Item.byte ++
      [.results (buildServerResults [] .zero), .byte .displayResults] := by
  show (serverSends stalledTranscript).map Prod.fst = _
  rw [stalledTranscript_sends]
  exact tornSends_items _ _ _ _

/-- A sender thread whose cookie is cut after ten bytes and that then sends three. -/
def shortCookieEnv : TcpEnv :=
  ⟨true, .accepts 10, true, [⟨false, .accepts 3, 0⟩, ⟨true, .accepts 0, 0⟩], 0⟩

/-- `connect` vouches for ten bytes of a cookie and payload follows; a server writes
    `DisplayResults`, a client `IperfDone` into a results frame. -/
theorem byte_follows_cut_frame :
    (sessionCookie.length = 37 ∧
      connect true (.accepts 10) sessionCookie = some (sessionCookie.take 10)) ∧
    (∃ c : Connection braces, ¬ Clean c.log ∧
      c.bytes = sessionCookie.take 10 ++ (buildPayload 4).take 3) ∧
    (∃ c : ServerControl braces, ¬ Clean c.log ∧
      c.sink.written = [9, 10, 1, 2, 13, 0, 0, 0, 2, 14]) ∧
    ∃ c : ClientControl braces, ¬ Clean c.log ∧
      c.sink.written = sessionCookie ++ [0, 0, 0, 2, 16] := by
  refine ⟨⟨rfl, rfl⟩, ?_, ?_, ?_⟩
  · obtain ⟨run, hrun, hwrites⟩ : ∃ run, startTcp { Config.withHost "127.0.0.1" with len := 4 }
        sessionCookie 1 shortCookieEnv = some run ∧
        (run.cookie, run.payload) = (sessionCookie.take 10, (buildPayload 4).take 3) :=
      Option.map_eq_some_iff.mp (by decide)
    obtain ⟨hcookie, hpayload⟩ := Prod.mk.inj hwrites
    refine ⟨.sender _ _ _ _ run hrun, ?_, ?_⟩
    · rw [Connection.clean_iff_not_spoiled, not_not]
      refine ⟨rfl, ⟨10, rfl, by decide, by decide⟩, rfl, by decide, by decide, by decide, ?_⟩
      exact ⟨[], ⟨false, .accepts 3, 0⟩, _, rfl, fun _ h => absurd h List.not_mem_nil, rfl, rfl⟩
    · show run.cookie ++ run.payload = _
      rw [hcookie, hpayload]
  · have hbody : braces.results.toVec (buildServerResults [] .zero) = .ok [123, 125] := rfl
    obtain ⟨hsocket, hbroken, hbytes⟩ := tornRun Stop.io beforeResults stalled .displayResults
      (k := 6) (s := Sink.fresh) hbody (List.cons_ne_nil _ _) (by decide) rfl
    refine ⟨stalledControl 6 hsocket, ?_, ?_⟩
    · rw [ServerControl.log, clean_controlLog_iff, not_not, stalledControl_items]
      exact hbroken
    · rw [ServerControl.sink, stalledControl_items]
      exact hbytes
  · have hbody : braces.results.toVec (buildClientResults [] .zero) = .ok [123, 125] := rfl
    obtain ⟨hsocket, hbroken, hbytes⟩ := tornRun id [] stalled .iperfDone
      (k := 2) (s := ⟨1, sessionCookie⟩) hbody (List.cons_ne_nil _ _) (by decide) rfl
    obtain ⟨q, hsteps⟩ := steps_stalledLoop
    let c : ClientControl braces := ⟨failsOnce 2 stalled, _, none, sessionCookie, sessionCookie, 2,
      stalledLoop, q, rfl, hsteps, hsocket⟩
    refine ⟨c, ?_, ?_⟩
    · rw [c.clean_iff_not_spoiled, not_not]
      exact .inr hbroken
    · exact hbytes

/-- The same session when the call for the LENGTH of the results frame fails: nothing of the frame
    is written, `DisplayResults` is, and the connection carries whole units. -/
theorem clean_connection_iff_refusedFrame :
    (∀ written, connect true (.accepts 37) sessionCookie = some written →
      written = sessionCookie) ∧
    ∃ c : ServerControl braces, (c.answers 5).takes = false ∧
      c.sink.written = [9, 10, 1, 2, 13, 14] ∧ ¬ c.Spoiled ∧ Clean c.log ∧
      ∃ (whole : List WireUnit) (part : Bytes),
        c.sink.written = whole.flatMap (WireUnit.bytes braces) ++ part ∧
        whole.Sublist (c.log.map UnitWrite.unit) ∧
        (part = [] ∨ ∃ w ∈ c.log, w.Cut ∧ part = w.part) := by
  have hcookie := ((clean_connection_iff braces).1 true (.accepts 37) sessionCookie).mpr
    fun _ n hn => by cases hn; decide
  have hbody : braces.results.toVec (buildServerResults [] .zero) = .ok [123, 125] := rfl
  have hbytes : ∀ i, 0 ≤ i → i < 0 + beforeResults.length →
      failsOnce 5 stalled i = .accepts 64 := by
    intro i _ hi
    exact failsOnce_ne (Nat.ne_of_lt hi)
  have hframe := write_results_refused (s := ⟨5, beforeResults.map Message.code⟩) hbody (by decide)
    (failsOnce_self stalled rfl)
  obtain ⟨hsocket, hcalls, hsink⟩ := failedFrame Stop.io beforeResults .displayResults
    (s := Sink.fresh) hbytes hframe (failsOnce_ne (by decide))
  have hsent : (stalledControl 5 hsocket).sink.written = [9, 10, 1, 2, 13, 14] := by
    rw [ServerControl.sink, stalledControl_items]
    exact congrArg Sink.written hsink
  refine ⟨hcookie, stalledControl 5 hsocket, rfl, hsent, ?_⟩
  have hnot : ¬ (stalledControl 5 hsocket).Spoiled := by
    rw [(clean_connection_iff braces).2.2.1]
    rintro ⟨before, r, k, hitems, hk, -, hrefused, -⟩
    rw [stalledControl_items] at hitems
    obtain ⟨rfl, -⟩ := List.append_inj' hitems rfl
    -- the bytes before the frame are the calls 0 to 4, and only call 5 is refused
    rw [show (stalledControl 5 hsocket).answers = failsOnce 5 stalled from rfl] at hk hrefused
    rw [sinkAfter_bytes beforeResults hbytes] at hk
    rw [failsOnce_ne (Nat.ne_of_gt (show 5 < k from hk))] at hrefused
    cases hrefused
  exact ⟨hnot, ((clean_connection_iff braces).2.1 (.serverControl _)).mpr hnot,
    (clean_connection_iff braces).2.2.2.2 (.serverControl (stalledControl 5 hsocket)) hnot⟩

end Rperf3
