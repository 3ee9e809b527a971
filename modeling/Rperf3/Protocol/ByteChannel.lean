/-
  The control connection BYTE BY BYTE: what a receiver of `wire.rs` finds on it.

  A unit of the control channel is some bytes.  They arrive a few at a time, a reader parses
  whatever stands at the front of what has arrived, and nothing marks where a unit begins.

  * `recv_unit`, `recv_part` — on the bytes of a unit a receiver of that kind returns what they
    read back as (`Item.readBack`) and leaves what follows; on a strict prefix of them it runs dry,
    and on a blocking socket waits.
  * `Pipe` — one direction of the connection; `Carries` says which units its bytes are, and
    `Carries.recv` what the next read finds.
-/
import Rperf3.Client.Exit
import Rperf3.Common.UnitLog

namespace Rperf3

open ShortIO BigEndian

/-! ## Receivers on what has arrived -/

/-- `recv` on the open control socket. -/
def arrivedBytes (n : Nat) : Sock Bytes IoError Bytes := arrivedRecv wouldBlockError n

theorem readExact_arrivedBytes (n : Nat) (bs : Bytes) :
    (readExact arrivedBytes eofError n).on bs =
      if n ≤ bs.length then (.ok (bs.take n), bs.drop n) else (.error wouldBlockError, []) :=
  readExact_arrived _ _ n bs

theorem readExact_arrivedBytes_ok {n : Nat} {bs rest : Bytes} (hn : bs.length = n) :
    (readExact arrivedBytes eofError n).on (bs ++ rest) = (.ok bs, rest) := by
  rw [readExact_arrivedBytes, if_pos (by rw [List.length_append]; omega), List.take_left' hn,
    List.drop_left' hn]

theorem readExact_arrivedBytes_dry {n : Nat} {bs : Bytes} (h : bs.length < n) :
    (readExact arrivedBytes eofError n).on bs = (.error wouldBlockError, []) := by
  rw [readExact_arrivedBytes, if_neg (Nat.not_le.mpr h)]

/-- The four kinds of unit a reader can ask for. -/
inductive UnitKind
  | byte | port | options | results
  deriving DecidableEq, Repr

def Item.kind : Item → UnitKind
  | .byte _ => .byte
  | .port _ => .port
  | .options _ => .options
  | .results _ => .results

/-- The receiver of `wire.rs` for a kind of unit. -/
def UnitKind.recv (js : Codecs) : UnitKind → Sock Bytes IoError Item
  | .byte => do return .byte (← recvControlByte arrivedBytes)
  | .port => do return .port (← recvU16Be arrivedBytes).toNat
  | .options => do return .options (← recvFramedJson arrivedBytes js.options)
  | .results => do return .results (← recvFramedJson arrivedBytes js.results)

/-- What is printed can be parsed.  The options come back as they were; the results hold `f64`
    fields, which `serde_json` need not read back to the last bit, so they only come back as some
    results. -/
structure Codecs.Lawful (js : Codecs) : Prop where
  options : ∀ o body, js.options.toVec o = .ok body → js.options.fromSlice body = .ok o
  results : ∀ r body, js.results.toVec r = .ok body → ∃ r', js.results.fromSlice body = .ok r'

/-- The results that are parsed where `r` was printed. -/
def Codecs.reparse (js : Codecs) (r : Results) : Results :=
  match js.results.toVec r with
  | .ok body => (js.results.fromSlice body).toOption.getD r
  | .error _ => r

/-- What a reader makes of a unit. -/
def Item.readBack (js : Codecs) : Item → Item
  | .results r => .results (js.reparse r)
  | i => i

/-- A JSON body that prints and that the receiver takes. -/
def bodyFits {T : Type} (json : Json T) (value : T) : Bool :=
  match json.toVec value with
  | .ok body => body.length ≤ maxJsonFrameLen
  | .error _ => false

/-- The unit can cross the connection. -/
def Item.sendable (js : Codecs) : Item → Bool
  | .byte _ => true
  | .port p => p < 2 ^ 16
  | .options o => bodyFits js.options o
  | .results r => bodyFits js.results r

def Item.bytes (js : Codecs) (i : Item) : Bytes := (i.wire js).encode

section Receivers

variable {js : Codecs}

theorem recvFramedJson_arrived {T : Type} (json : Json T) {value : T} {body rest : Bytes}
    (hparse : json.fromSlice body = .ok value) (hlen : body.length ≤ maxJsonFrameLen) :
    (recvFramedJson arrivedBytes json).on (toBE 4 body.length ++ body ++ rest) =
      (.ok value, rest) := by
  have hn : body.length < 2 ^ 32 := Nat.lt_of_le_of_lt hlen (by decide)
  rw [recvFramedJson, List.append_assoc, on_bind_ok (readExact_arrivedBytes_ok (length_toBE 4 _)),
    ofBE_length_prefix hn, if_neg (Nat.not_lt.mpr hlen), on_bind_ok (readExact_arrivedBytes_ok rfl),
    hparse]
  rfl

theorem recvFramedJson_dry {T : Type} (json : Json T) {body bs : Bytes}
    (hlen : body.length ≤ maxJsonFrameLen) (hpre : bs <+: toBE 4 body.length ++ body)
    (hne : bs ≠ toBE 4 body.length ++ body) :
    (recvFramedJson arrivedBytes json).on bs = (.error wouldBlockError, []) := by
  have hlt : bs.length < (toBE 4 body.length ++ body).length := by
    rcases Nat.lt_or_ge bs.length (toBE 4 body.length ++ body).length with h | h
    · exact h
    · exact absurd (hpre.eq_of_length_le h) hne
  rw [List.length_append, length_toBE] at hlt
  rcases Nat.lt_or_ge bs.length 4 with h4 | h4
  · rw [recvFramedJson, on_bind_error (readExact_arrivedBytes_dry h4)]
  · -- the length is there in full, the body is not
    obtain ⟨part, rfl⟩ : toBE 4 body.length <+: bs :=
      List.prefix_of_prefix_length_le (List.prefix_append _ _) hpre (by rw [length_toBE]; exact h4)
    have hn : body.length < 2 ^ 32 := Nat.lt_of_le_of_lt hlen (by decide)
    rw [List.length_append, length_toBE] at hlt
    have hpart : part.length < body.length := by omega
    rw [recvFramedJson, on_bind_ok (readExact_arrivedBytes_ok (length_toBE 4 _)),
      ofBE_length_prefix hn, if_neg (Nat.not_lt.mpr hlen),
      on_bind_error (readExact_arrivedBytes_dry hpart)]

theorem bodyFits_iff {T : Type} {json : Json T} {value : T} :
    bodyFits json value = true ↔
      ∃ body, json.toVec value = .ok body ∧ body.length ≤ maxJsonFrameLen := by
  unfold bodyFits
  cases json.toVec value with
  | error e => simp
  | ok body => simp

theorem encode_json {T : Type} {json : Json T} {value : T} {body : Bytes}
    (hbody : json.toVec value = .ok body) :
    (WireItem.json json value).encode = toBE 4 body.length ++ body := by
  rw [WireItem.encode, hbody]

theorem bytes_options {o : ClientOptions} {body : Bytes} (h : js.options.toVec o = .ok body) :
    Item.bytes js (.options o) = toBE 4 body.length ++ body := encode_json h

theorem bytes_results {r : Results} {body : Bytes} (h : js.results.toVec r = .ok body) :
    Item.bytes js (.results r) = toBE 4 body.length ++ body := encode_json h

theorem reparse_eq {r r' : Results} {body : Bytes} (hbody : js.results.toVec r = .ok body)
    (hparse : js.results.fromSlice body = .ok r') : js.reparse r = r' := by
  simp only [Codecs.reparse, hbody, hparse, Except.toOption, Option.getD_some]

theorem kind_readBack (i : Item) : (i.readBack js).kind = i.kind := by
  cases i <;> rfl

/-- **A complete unit** is read back and the bytes behind it stay. -/
theorem recv_unit (hjs : js.Lawful) {i : Item} (hi : i.sendable js = true) (rest : Bytes) :
    (i.kind.recv js).on (i.bytes js ++ rest) = (.ok (i.readBack js), rest) := by
  cases i with
  | byte m =>
    have hbyte : (recvControlByte arrivedBytes).on ([m.code] ++ rest) = (.ok m, rest) := by
      rw [recvControlByte, on_bind_ok (readExact_arrivedBytes_ok (n := 1) rfl)]
      simp only [List.headD_cons, m.tryFrom_code]
      rfl
    exact on_bind_ok hbyte
  | port p =>
    have hp : p < 2 ^ 16 := of_decide_eq_true hi
    have hback : (UInt16.ofNat p).toNat = p := UInt16.toNat_ofNat_of_lt' hp
    have hport : (recvU16Be arrivedBytes).on (toBE 2 (UInt16.ofNat p).toNat ++ rest) =
        (.ok (UInt16.ofNat p), rest) := by
      rw [recvU16Be, on_bind_ok (readExact_arrivedBytes_ok (length_toBE 2 _)), ofBE_toBE, hback,
        Nat.mod_eq_of_lt (by omega)]
      rfl
    refine (on_bind_ok hport).trans ?_
    rw [hback]
    rfl
  | options o =>
    obtain ⟨body, hbody, hlen⟩ := bodyFits_iff.mp hi
    rw [bytes_options hbody]
    exact on_bind_ok (recvFramedJson_arrived _ (hjs.options o body hbody) hlen)
  | results r =>
    obtain ⟨body, hbody, hlen⟩ := bodyFits_iff.mp hi
    obtain ⟨r', hparse⟩ := hjs.results r body hbody
    rw [bytes_results hbody, Item.readBack, reparse_eq hbody hparse]
    exact on_bind_ok (recvFramedJson_arrived _ hparse hlen)

/-- The receiver of the kind runs dry on nothing. -/
theorem recv_nil (k : UnitKind) : (k.recv js).on [] = (.error wouldBlockError, []) := by
  have hdry : ∀ n, 0 < n →
      (readExact arrivedBytes eofError n).on [] = (.error wouldBlockError, []) :=
    fun n hn => readExact_arrivedBytes_dry hn
  cases k with
  | byte => exact on_bind_error (on_bind_error (hdry 1 (by decide)))
  | port => exact on_bind_error (on_bind_error (hdry 2 (by decide)))
  | options => exact on_bind_error (on_bind_error (hdry 4 (by decide)))
  | results => exact on_bind_error (on_bind_error (hdry 4 (by decide)))

/-- **A unit that has arrived in part** is waited for. -/
theorem recv_part {i : Item} (hi : i.sendable js = true) {bs : Bytes} (hpre : bs <+: i.bytes js)
    (hne : bs ≠ i.bytes js) : (i.kind.recv js).on bs = (.error wouldBlockError, []) := by
  cases i with
  | byte m =>
    -- one byte has no proper part but nothing
    have hnil : bs = [] := by
      rcases List.prefix_cons_iff.mp hpre with hnil | ⟨t, rfl, ht⟩
      · exact hnil
      · rw [List.prefix_nil.mp ht] at hne
        exact absurd rfl hne
    rw [hnil]
    exact recv_nil .byte
  | port p =>
    have hlt : bs.length < 2 := by
      rcases Nat.lt_or_ge bs.length 2 with h | h
      · exact h
      · refine absurd (hpre.eq_of_length_le ?_) hne
        rw [show Item.bytes js (.port p) = toBE 2 (UInt16.ofNat p).toNat from rfl, length_toBE]
        exact h
    exact on_bind_error (on_bind_error (readExact_arrivedBytes_dry hlt))
  | options o =>
    obtain ⟨body, hbody, hlen⟩ := bodyFits_iff.mp hi
    rw [bytes_options hbody] at hpre hne
    exact on_bind_error (recvFramedJson_dry _ hlen hpre hne)
  | results r =>
    obtain ⟨body, hbody, hlen⟩ := bodyFits_iff.mp hi
    rw [bytes_results hbody] at hpre hne
    exact on_bind_error (recvFramedJson_dry _ hlen hpre hne)

end Receivers

/-! ## The connection -/

/-- One direction of a connection: the bytes that have reached the reader, and those under way. -/
structure Pipe where
  arrived : Bytes
  flight : Bytes
  deriving DecidableEq, Repr

namespace Pipe

def empty : Pipe := ⟨[], []⟩

def stream (p : Pipe) : Bytes := p.arrived ++ p.flight

/-- Some bytes arrive. -/
def deliver (n : Nat) (p : Pipe) : Pipe := ⟨p.arrived ++ p.flight.take n, p.flight.drop n⟩

/-- Units are written, if all of them can be.  Every `write` takes all it is given: a control write
    that fails, or is cut short, is not in the system. -/
def write (js : Codecs) (items : List Item) (p : Pipe) : Option Pipe :=
  if items.all (Item.sendable js) then
    some { p with flight := p.flight ++ items.flatMap (Item.bytes js) }
  else none

theorem stream_deliver (n : Nat) (p : Pipe) : (p.deliver n).stream = p.stream := by
  show p.arrived ++ p.flight.take n ++ p.flight.drop n = _
  rw [List.append_assoc, List.take_append_drop]
  rfl

/-- The bytes of the pipe are those of the units `items`. -/
structure Carries (js : Codecs) (items : List Item) (p : Pipe) : Prop where
  sendable : ∀ i ∈ items, i.sendable js = true
  stream : p.stream = items.flatMap (Item.bytes js)

variable {js : Codecs} {items : List Item} {p q : Pipe}

theorem Carries.write {more : List Item} (h : Carries js items p)
    (hw : p.write js more = some q) : Carries js (items ++ more) q := by
  unfold Pipe.write at hw
  split at hw
  · rename_i hall
    cases hw
    refine ⟨fun i hi => ?_, ?_⟩
    · rcases List.mem_append.mp hi with hi | hi
      · exact h.sendable i hi
      · exact List.all_eq_true.mp hall i hi
    · show p.arrived ++ (p.flight ++ more.flatMap (Item.bytes js)) = _
      rw [← List.append_assoc, show p.arrived ++ p.flight = _ from h.stream, List.flatMap_append]
  · cases hw

theorem write_nil : p.write js [] = some p := by
  show some { p with flight := p.flight ++ [] } = _
  rw [List.append_nil]

/-- **What a reader of the right kind finds**: the next unit, or part of it. -/
theorem Carries.recv (hjs : js.Lawful) {i : Item} (h : Carries js (i :: items) p) :
    (∃ rest, (i.kind.recv js).on p.arrived = (.ok (i.readBack js), rest) ∧
      Carries js items { p with arrived := rest }) ∨
    ((i.kind.recv js).on p.arrived = (.error wouldBlockError, []) ∧ p.flight ≠ []) := by
  have hi := h.sendable i List.mem_cons_self
  have hstream : p.arrived ++ p.flight = i.bytes js ++ items.flatMap (Item.bytes js) := h.stream
  rcases List.append_eq_append_iff.mp hstream with ⟨more, hbytes, hflight⟩ | ⟨rest, harrived, hrest⟩
  · -- the unit ends in what is under way
    by_cases hmore : more = []
    · subst hmore
      rw [List.append_nil] at hbytes
      refine Or.inl ⟨[], ?_, ?_, ?_⟩
      · rw [← hbytes, ← List.append_nil (i.bytes js)]
        exact recv_unit hjs hi []
      · exact fun j hj => h.sendable j (List.mem_cons_of_mem i hj)
      · show [] ++ p.flight = _
        rw [hflight]
        rfl
    · refine Or.inr ⟨recv_part hi ⟨more, hbytes.symm⟩ fun heq => hmore ?_, fun hnil => hmore ?_⟩
      · rw [heq] at hbytes
        exact List.self_eq_append_right.mp hbytes
      · rw [hnil] at hflight
        exact (List.append_eq_nil_iff.mp hflight.symm).1
  · refine Or.inl ⟨rest, ?_, ?_, ?_⟩
    · rw [harrived]
      exact recv_unit hjs hi rest
    · exact fun j hj => h.sendable j (List.mem_cons_of_mem i hj)
    · exact hrest.symm

theorem Carries.nil (h : Carries js [] p) : p.arrived = [] ∧ p.flight = [] :=
  List.append_eq_nil_iff.mp h.stream

end Pipe

end Rperf3
