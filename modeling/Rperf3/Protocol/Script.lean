/-
  The CONTROL DIALOGUE of a test, as two scripts and one discipline.

      server → client   ParamExchange  [SetDataPort port]  CreateStreams  TestStart  TestRunning
                        ExchangeResults  results  DisplayResults
      client → server   options  TestEnd  results  IperfDone

  * `Stage` is a place in the first line, `Reply` a place in the second; `serverScript` and
    `clientScript` say which unit leads from where to where.

  * A server session is at a pair of places: how far it has written and how far it has read.
    `dialogue opts` is the discipline a session must keep for the two lines to fit together: it
    writes along the script, asks for the results only after it has read `TestEnd`, and READS ONLY
    WHERE THE CLIENT OWES IT A REPLY — after `ParamExchange`, during the transfer, after its own
    results and after `DisplayResults`, once each.  Everything a session does besides reading and
    writing the control channel (sockets, threads, clocks) is of no concern to it.
-/
import Rperf3.Lib.Fifo
import Rperf3.Server.Session

namespace Rperf3

open Transition Effect Effect.Prog

/-! ## The two scripts -/

/-- How far the server's side of the dialogue has got: the last unit written (or read). -/
inductive Stage
  | idle | asked | portAnnounced | portSent | created | started | running | exchange | reported
  | display
  deriving DecidableEq, Repr

/-- How far the client's side of the dialogue has got. -/
inductive Reply
  | nothing | options | testEnd | results | iperfDone
  deriving DecidableEq, Repr

def serverScriptStep : Item → Stage → Option Stage
  | .byte .paramExchange, .idle => some .asked
  | .byte .setDataPort, .asked => some .portAnnounced
  | .port _, .portAnnounced => some .portSent
  | .byte .createStreams, .asked => some .created
  | .byte .createStreams, .portSent => some .created
  | .byte .testStart, .created => some .started
  | .byte .testRunning, .started => some .running
  | .byte .exchangeResults, .running => some .exchange
  | .results _, .exchange => some .reported
  | .byte .displayResults, .reported => some .display
  | _, _ => none

/-- What the server writes, in order. -/
def serverScript : System Stage Item where
  init s := s = .idle
  step := serverScriptStep

/-- `opts` are the options this client sends. -/
def clientScriptStep (opts : ClientOptions) : Item → Reply → Option Reply
  | .options o, .nothing => if o = opts then some .options else none
  | .byte .testEnd, .options => some .testEnd
  | .results _, .testEnd => some .results
  | .byte .iperfDone, .results => some .iperfDone
  | _, _ => none

/-- What the client writes, in order. -/
def clientScript (opts : ClientOptions) : System Reply Item where
  init r := r = .nothing
  step := clientScriptStep opts

/-- The messages of the server's script, with the places they lead from and to. -/
theorem serverScript_byte {m : Message} {s t : Stage}
    (hstep : serverScript.step (.byte m) s = some t) :
    (m = .paramExchange ∧ s = .idle ∧ t = .asked) ∨
    (m = .setDataPort ∧ s = .asked ∧ t = .portAnnounced) ∨
    (m = .createStreams ∧ (s = .asked ∨ s = .portSent) ∧ t = .created) ∨
    (m = .testStart ∧ s = .created ∧ t = .started) ∨
    (m = .testRunning ∧ s = .started ∧ t = .running) ∨
    (m = .exchangeResults ∧ s = .running ∧ t = .exchange) ∨
    (m = .displayResults ∧ s = .reported ∧ t = .display) := by
  generalize hi : Item.byte m = i at hstep
  replace hstep : serverScriptStep i s = some t := hstep
  unfold serverScriptStep at hstep
  -- one goal per line of the script; those that carry a body are not messages
  split at hstep
  all_goals cases hi
  all_goals cases hstep
  all_goals simp

/-- A port and a results body each have one place in the script. -/
theorem serverScript_kind {i : Item} {s t : Stage} (hstep : serverScript.step i s = some t) :
    ((∃ m, i = .byte m) ∧ s ≠ .portAnnounced ∧ s ≠ .exchange) ∨
    ((∃ n, i = .port n) ∧ s = .portAnnounced) ∨ ((∃ r, i = .results r) ∧ s = .exchange) := by
  replace hstep : serverScriptStep i s = some t := hstep
  unfold serverScriptStep at hstep
  split at hstep
  all_goals cases hstep
  all_goals simp

/-- What a client owes first: its options. -/
theorem clientScript_options {opts o : ClientOptions} {t : Reply}
    (hstep : (clientScript opts).step (.options o) .nothing = some t) :
    o = opts ∧ t = .options := by
  replace hstep : (if o = opts then some Reply.options else none) = some t := hstep
  split at hstep
  · rename_i ho
    exact ⟨ho, (Option.some.inj hstep).symm⟩
  · cases hstep

/-- The bytes a client owes: `TestEnd` after its options, `IperfDone` after its results. -/
theorem clientScript_byte {opts : ClientOptions} {m : Message} {r t : Reply}
    (hstep : (clientScript opts).step (.byte m) r = some t) :
    (m = .testEnd ∧ r = .options ∧ t = .testEnd) ∨
    (m = .iperfDone ∧ r = .results ∧ t = .iperfDone) := by
  generalize hi : Item.byte m = i at hstep
  replace hstep : clientScriptStep opts i r = some t := hstep
  unfold clientScriptStep at hstep
  split at hstep
  · cases hi
  all_goals cases hi
  all_goals cases hstep
  all_goals simp

/-- What a client owes, by what it has sent. -/
theorem clientScript_kind {opts : ClientOptions} {i : Item} {r t : Reply}
    (hstep : (clientScript opts).step i r = some t) :
    ((∃ o, i = .options o) ∧ r = .nothing) ∨
    ((∃ m, i = .byte m) ∧ (r = .options ∨ r = .results)) ∨
    ((∃ x, i = .results x) ∧ r = .testEnd) := by
  replace hstep : clientScriptStep opts i r = some t := hstep
  unfold clientScriptStep at hstep
  split at hstep
  · simp
  all_goals cases hstep
  all_goals simp

/-- The server has asked for the results. -/
def Stage.isReporting : Stage → Bool
  | .exchange | .reported | .display => true
  | _ => false

/-- The client has announced the end of the test. -/
def Reply.isEnded : Reply → Bool
  | .testEnd | .results | .iperfDone => true
  | _ => false

theorem isReporting_of_step {i : Item} {s t : Stage} (hstep : serverScript.step i s = some t)
    (hs : s.isReporting = true) : t.isReporting = true := by
  replace hstep : serverScriptStep i s = some t := hstep
  unfold serverScriptStep at hstep
  split at hstep
  all_goals cases hstep
  all_goals first | rfl | cases hs

/-- The only way into the reporting stages is `ExchangeResults`. -/
theorem isReporting_enter {i : Item} {s t : Stage} (hstep : serverScript.step i s = some t)
    (ht : t.isReporting = true) : s.isReporting = true ∨ i = .byte .exchangeResults := by
  replace hstep : serverScriptStep i s = some t := hstep
  unfold serverScriptStep at hstep
  split at hstep
  all_goals cases hstep
  all_goals first | exact Or.inl rfl | exact Or.inr rfl | cases ht

theorem isEnded_of_step {opts : ClientOptions} {i : Item} {r t : Reply}
    (hstep : (clientScript opts).step i r = some t) (hr : r.isEnded = true) :
    t.isEnded = true := by
  replace hstep : clientScriptStep opts i r = some t := hstep
  unfold clientScriptStep at hstep
  split at hstep
  · cases hr
  all_goals cases hstep
  all_goals rfl

/-! ## The discipline of a server session -/

/-- How far a session has written and read. -/
structure Place where
  wrote : Stage
  read : Reply
  deriving DecidableEq, Repr

/-- Does the operation read the control channel? -/
def Op.isControlRead : Op → Bool
  | .recvOptions | .recvResults | .awaitByte _ => true
  | _ => false

/-- Does the operation leave the control channel alone? -/
def Op.isQuiet : Op → Bool
  | .send _ | .recvOptions | .recvResults | .awaitByte _ => false
  | _ => true

def dialogueMay (p : Place) : Op → Prop
  | .send i => (serverScript.step i p.wrote).isSome = true ∧
      (i = .byte .exchangeResults → p.read.isEnded = true)
  | .recvOptions => p = ⟨.asked, .nothing⟩
  | .awaitByte stops => p = ⟨.running, .options⟩ ∧ stops = [.testEnd] ∨
      p = ⟨.display, .results⟩ ∧ stops = [.iperfDone, .clientTerminate]
  | .recvResults => p = ⟨.reported, .testEnd⟩
  | _ => True

/-- Writes succeed and reads return a unit the client may have sent there. -/
def dialogueAnswers (opts : ClientOptions) : (o : Op) → Except Stop o.Ok → Prop
  | .send _, r => r = .ok ()
  | .recvOptions, r => r = .ok opts
  | .awaitByte stops, r => ∃ m ∈ stops, r = .ok m
  | .recvResults, r => ∃ x, r = .ok x
  | _, _ => True

def dialogueNext (p : Place) : Op → Place
  | .send i => { p with wrote := (serverScript.step i p.wrote).getD p.wrote }
  | .recvOptions => { p with read := .options }
  | .awaitByte stops => { p with read := if stops = [.testEnd] then .testEnd else .iperfDone }
  | .recvResults => { p with read := .results }
  | _ => p

/-- The discipline of a session whose client sends the options `opts`. -/
def dialogue (opts : ClientOptions) : Discipline Op Op.Ok Stop Place where
  may := dialogueMay
  answers _ := dialogueAnswers opts
  next p o _ := dialogueNext p o

theorem neutral_of_isQuiet {opts : ClientOptions} {o : Op} (h : o.isQuiet = true) :
    (dialogue opts).Neutral o := by
  intro p
  cases o with
  | send i => cases h
  | recvOptions => cases h
  | recvResults => cases h
  | awaitByte stops => cases h
  | _ => exact ⟨trivial, fun _ => rfl⟩

end Rperf3
