/-
  `common/wire.rs`, byte by byte — the CONTROL-CHANNEL CODEC.

  Three kinds of item cross a control socket: a one-byte `Message`, a two-byte big-endian number and
  a JSON body behind a four-byte big-endian length.  The senders run on any socket with a `send`,
  the receivers on any socket with a `recv` (the source's `&mut dyn Socket`); JSON text itself is a
  parameter (`Json`), of which only "parsing what was printed gives the value back" is ever used.

  1. each sender writes a prefix of the item's encoding, all of it exactly on success
     (`writes_send`), whatever the socket does;
  2. each receiver, on a stream that starts with the item's encoding, returns the item and leaves
     the rest (`recv_encode`); on a stream that ends inside it, reports `UnexpectedEof`
     (`recv_truncated`); a frame that announces too long a body is refused after its length
     (`recvFramedJson_oversize`);
  3. lists of items follow by induction: what was sent is read back item by item.
-/
import Rperf3.Lib.BigEndian
import Rperf3.Lib.ShortIO
import Rperf3.Common.Wire

namespace Rperf3

open ShortIO BigEndian

/-! ## Message codes -/

/-- The `#[repr(i8)]` value of a message. -/
def Message.discriminant : Message → Int8
  | .testStart => 1
  | .testRunning => 2
  | .resultRequest => 3
  | .testEnd => 4
  | .streamBegin => 5
  | .streamRunning => 6
  | .streamEnd => 7
  | .allStreamsEnd => 8
  | .paramExchange => 9
  | .createStreams => 10
  | .serverTerminate => 11
  | .clientTerminate => 12
  | .exchangeResults => 13
  | .displayResults => 14
  | .iperfStart => 15
  | .iperfDone => 16
  | .setDataPort => 17
  | .accessDenied => -1
  | .serverError => -2

/-- Every message, in the order of the source. -/
def Message.all : List Message :=
  [.testStart, .testRunning, .resultRequest, .testEnd, .streamBegin, .streamRunning, .streamEnd,
    .allStreamsEnd, .paramExchange, .createStreams, .serverTerminate, .clientTerminate,
    .exchangeResults, .displayResults, .iperfStart, .iperfDone, .setDataPort, .accessDenied,
    .serverError]

/-- `Message::try_from` on the byte read as an `i8`. -/
def Message.tryFrom (b : Int8) : Option Message := Message.all.find? (·.discriminant == b)

/-- `msg as u8`. -/
def Message.code (m : Message) : UInt8 := m.discriminant.toUInt8

theorem Message.tryFrom_code (m : Message) : Message.tryFrom m.code.toInt8 = some m := by
  cases m <;> decide

/-! ## Senders and receivers -/

/-- The largest JSON body `recv_framed_json` takes. -/
def maxJsonFrameLen : Nat := 16 * 1024 * 1024

/-- `read_exact` on a socket that ends too early. -/
def eofError : IoError := ⟨.unexpectedEof, "peer closed mid-frame"⟩

/-- `write_all` on a socket that takes nothing. -/
def writeZeroError : IoError := ⟨.writeZero, "socket returned 0-byte send"⟩

/-- `serde_json::to_vec` and `from_slice` at one type. -/
structure Json (T : Type) where
  toVec : T → Except String Bytes
  fromSlice : Bytes → Except String T

section Senders

variable {σ : Type} (send : Bytes → Sock σ IoError Nat)

/-- `send_control_byte`. -/
def sendControlByte (m : Message) : Sock σ IoError Unit := writeAll send writeZeroError [m.code]

/-- `send_u16_be`. -/
def sendU16Be (v : UInt16) : Sock σ IoError Unit := writeAll send writeZeroError (toBE 2 v.toNat)

/-- `send_framed_json`. -/
def sendFramedJson {T : Type} (json : Json T) (value : T) : Sock σ IoError Unit :=
  match json.toVec value with
  | .error e => throw ⟨.invalidData, e⟩
  | .ok body =>
    if body.length < 2 ^ 32 then do
      writeAll send writeZeroError (toBE 4 body.length)
      writeAll send writeZeroError body
    else throw ⟨.invalidInput, "payload too large"⟩

theorem sendFramedJson_eq {T : Type} {json : Json T} {value : T} {body : Bytes}
    (hbody : json.toVec value = .ok body) (hlen : body.length < 2 ^ 32) :
    sendFramedJson send json value = (do
      writeAll send writeZeroError (toBE 4 body.length)
      writeAll send writeZeroError body) := by
  rw [sendFramedJson, hbody]
  exact if_pos hlen

end Senders

section Receivers

variable {σ : Type} (recv : Nat → Sock σ IoError Bytes)

/-- `recv_control_byte`. -/
def recvControlByte : Sock σ IoError Message := do
  let buf ← readExact recv eofError 1
  let b := buf.headD 0
  match Message.tryFrom b.toInt8 with
  | some m => pure m
  | none => throw ⟨.invalidData, "unknown control byte: " ++ toString b.toNat⟩

/-- `recv_u16_be`. -/
def recvU16Be : Sock σ IoError UInt16 := do
  let buf ← readExact recv eofError 2
  pure (UInt16.ofNat (ofBE buf))

/-- The refusal of a frame whose announced body is over the limit. -/
def oversizeError (len : Nat) : IoError :=
  ⟨.invalidData, "JSON frame too large: " ++ toString len ++ " bytes"⟩

/-- `recv_framed_json`. -/
def recvFramedJson {T : Type} (json : Json T) : Sock σ IoError T := do
  let lenBuf ← readExact recv eofError 4
  let len := ofBE lenBuf
  if maxJsonFrameLen < len then throw (oversizeError len)
  else do
    let body ← readExact recv eofError len
    match json.fromSlice body with
    | .ok value => pure value
    | .error e => throw ⟨.invalidData, e⟩

end Receivers

/-! ## One item -/

/-- What can cross a control socket. -/
inductive WireItem : Type 1
  | message (m : Message)
  | u16 (v : UInt16)
  | json {T : Type} (json : Json T) (value : T)

namespace WireItem

/-- The type of what the matching receiver returns. -/
def Value : WireItem → Type
  | message _ => Message
  | u16 _ => UInt16
  | @json T _ _ => T

def value : (u : WireItem) → u.Value
  | message m => m
  | u16 v => v
  | json _ v => v

/-- The bytes of an item. -/
def encode : WireItem → Bytes
  | message m => [m.code]
  | u16 v => toBE 2 v.toNat
  | json j v =>
    match j.toVec v with
    | .ok body => toBE 4 body.length ++ body
    | .error _ => []

/-- The sender of an item. -/
def send {σ : Type} (sock : Bytes → Sock σ IoError Nat) : WireItem → Sock σ IoError Unit
  | message m => sendControlByte sock m
  | u16 v => sendU16Be sock v
  | json j v => sendFramedJson sock j v

/-- The receiver that matches an item. -/
def recv {σ : Type} (sock : Nat → Sock σ IoError Bytes) : (u : WireItem) → Sock σ IoError u.Value
  | message _ => recvControlByte sock
  | u16 _ => recvU16Be sock
  | json j _ => recvFramedJson sock j

/-- A JSON value prints to a body whose length fits the prefix, and parsing that body gives the
    value back.  Messages and numbers always qualify. -/
def Serialisable : WireItem → Prop
  | json j v => ∃ body, j.toVec v = .ok body ∧ j.fromSlice body = .ok v ∧ body.length < 2 ^ 32
  | _ => True

/-- The JSON body, if there is one, is within the receiver's limit. -/
def Short : WireItem → Prop
  | json j v => ∀ body, j.toVec v = .ok body → body.length ≤ maxJsonFrameLen
  | _ => True

/-- **Senders**: a prefix of the encoding, all of it exactly on success. -/
theorem writes_send (answers : Nat → Answer IoError) (u : WireItem) (hu : u.Serialisable) :
    Writes answers (u.send (Sink.send answers)) u.encode := by
  match u, hu with
  | message m, _ => exact writes_writeAll answers writeZeroError _
  | u16 v, _ => exact writes_writeAll answers writeZeroError _
  | json j v, ⟨body, hbody, _, hlen⟩ =>
    have henc : (json j v).encode = toBE 4 body.length ++ body := by rw [encode, hbody]
    rw [show (json j v).send (Sink.send answers) = _ from sendFramedJson_eq _ hbody hlen, henc]
    exact (writes_writeAll answers _ _).andThen (writes_writeAll answers _ _)

/-- The same without the assumption: a value that cannot be printed leaves nothing on the socket. -/
theorem writesPart_send (answers : Nat → Answer IoError) (u : WireItem) :
    WritesPart answers (u.send (Sink.send answers)) u.encode := by
  cases u with
  | message m => exact (writes_writeAll answers writeZeroError _).part
  | u16 v => exact (writes_writeAll answers writeZeroError _).part
  | json j v =>
    show WritesPart answers (sendFramedJson (Sink.send answers) j v) _
    cases hbody : j.toVec v with
    | error e =>
      rw [sendFramedJson, hbody]
      exact writesPart_throw _ _
    | ok body =>
      by_cases hlen : body.length < 2 ^ 32
      · rw [sendFramedJson_eq _ hbody hlen, encode, hbody]
        exact ((writes_writeAll answers _ _).andThen (writes_writeAll answers _ _)).part
      · rw [sendFramedJson, hbody]
        simp only [if_neg hlen]
        exact writesPart_throw _ _

/-- With progress at every `send` the item is sent. -/
theorem send_ok {answers : Nat → Answer IoError} (hans : Progresses answers) (u : WireItem)
    (hu : u.Serialisable) (s : Sink UInt8) : ((u.send (Sink.send answers)).on s).1 = .ok () := by
  match u, hu with
  | message m, _ => exact writeAll_ok hans _ _ s
  | u16 v, _ => exact writeAll_ok hans _ _ s
  | json j v, ⟨body, hbody, _, hlen⟩ =>
    rw [show (json j v).send (Sink.send answers) = _ from sendFramedJson_eq _ hbody hlen]
    rw [on_bind_ok (Prod.ext (writeAll_ok hans _ _ s) rfl)]
    exact writeAll_ok hans _ _ _

end WireItem

section

variable {σ : Type} {recv : Nat → Sock σ IoError Bytes} {stream : σ → Bytes}

theorem ofBE_length_prefix {n : Nat} (hn : n < 2 ^ 32) : ofBE (toBE 4 n) = n := by
  rw [ofBE_toBE]
  exact Nat.mod_eq_of_lt (by omega)

/-- What `recv_framed_json` does once the length has been read. -/
theorem recvFramedJson_length (hrecv : Faithful recv stream) {T : Type} (j : Json T) {s : σ}
    {n : Nat} {rest : Bytes} (hn : n < 2 ^ 32) (hs : stream s = toBE 4 n ++ rest) :
    ∃ s', stream s' = rest ∧ (recvFramedJson recv j).on s =
      Sock.on (if maxJsonFrameLen < n then throw (oversizeError n)
        else do
          let body ← readExact recv eofError n
          match j.fromSlice body with
          | .ok value => pure value
          | .error e => throw ⟨.invalidData, e⟩) s' := by
  obtain ⟨s', hread, hrest⟩ := readExact_ok hrecv eofError hs
  rw [length_toBE] at hread
  refine ⟨s', hrest, ?_⟩
  rw [recvFramedJson, on_bind_ok hread, ofBE_length_prefix hn]

/-- A frame that announces too long a body is refused with exactly its length read. -/
theorem recvFramedJson_oversize (hrecv : Faithful recv stream) {T : Type} (j : Json T) {s : σ}
    {n : Nat} {rest : Bytes} (hn : n < 2 ^ 32) (hmax : maxJsonFrameLen < n)
    (hs : stream s = toBE 4 n ++ rest) :
    ∃ s', (recvFramedJson recv j).on s = (.error (oversizeError n), s') ∧ stream s' = rest := by
  obtain ⟨s', hrest, hrun⟩ := recvFramedJson_length hrecv j hn hs
  exact ⟨s', by rw [hrun, if_pos hmax]; rfl, hrest⟩

namespace WireItem

/-- **Receivers, complete item**: the item comes back and the rest stays. -/
theorem recv_encode (hrecv : Faithful recv stream) (u : WireItem) (hu : u.Serialisable)
    (hshort : u.Short) {s : σ} {rest : Bytes} (hs : stream s = u.encode ++ rest) :
    ∃ s', (u.recv recv).on s = (.ok u.value, s') ∧ stream s' = rest := by
  match u, hu, hshort with
  | message m, _, _ =>
    obtain ⟨s', hread, hrest⟩ := readExact_ok hrecv eofError hs
    refine ⟨s', ?_, hrest⟩
    show (recvControlByte recv).on s = _
    rw [recvControlByte, show 1 = (encode (message m)).length from rfl, on_bind_ok hread]
    show Sock.on (match Message.tryFrom m.code.toInt8 with
      | some m => pure m
      | none => throw _) s' = _
    rw [m.tryFrom_code]
    rfl
  | u16 v, _, _ =>
    obtain ⟨s', hread, hrest⟩ := readExact_ok hrecv eofError hs
    refine ⟨s', ?_, hrest⟩
    show (recvU16Be recv).on s = _
    rw [recvU16Be, show 2 = (encode (u16 v)).length from (length_toBE 2 _).symm, on_bind_ok hread]
    have hv : v.toNat < 256 ^ 2 := v.toNat_lt
    have hback : ofBE (encode (u16 v)) = v.toNat := by
      show ofBE (toBE 2 v.toNat) = _
      rw [ofBE_toBE, Nat.mod_eq_of_lt hv]
    rw [hback, UInt16.ofNat_toNat]
    rfl
  | json j v, ⟨body, hbody, hparse, hlen⟩, hshort =>
    rw [encode, hbody, List.append_assoc] at hs
    obtain ⟨s₁, hs₁, hrun⟩ := recvFramedJson_length hrecv j hlen hs
    obtain ⟨s', hread, hrest⟩ := readExact_ok hrecv eofError hs₁
    refine ⟨s', ?_, hrest⟩
    show (recvFramedJson recv j).on s = _
    rw [hrun, if_neg (Nat.not_lt.mpr (hshort body hbody)), on_bind_ok hread, hparse]
    rfl

/-- **Receivers, stream ends inside the item**: `UnexpectedEof`.  (Inside a body that is over the
    limit it is the limit that is reported, so there the end must come within the length.) -/
theorem recv_truncated (hrecv : Faithful recv stream) (u : WireItem) (hu : u.Serialisable) {s : σ}
    (hpre : stream s <+: u.encode) (hne : stream s ≠ u.encode)
    (hshort : u.Short ∨ (stream s).length < 4) :
    ((u.recv recv).on s).1 = .error eofError := by
  have hlt : (stream s).length < u.encode.length := by
    rcases Nat.lt_or_ge (stream s).length u.encode.length with h | h
    · exact h
    · exact absurd (hpre.eq_of_length_le h) hne
  match u, hu, hshort with
  | message m, _, _ =>
    obtain ⟨s', hread⟩ := readExact_eof hrecv eofError (n := 1) hlt
    show ((recvControlByte recv).on s).1 = _
    rw [recvControlByte, on_bind_error hread]
    rfl
  | u16 v, _, _ =>
    rw [encode, length_toBE] at hlt
    obtain ⟨s', hread⟩ := readExact_eof hrecv eofError hlt
    show ((recvU16Be recv).on s).1 = _
    rw [recvU16Be, on_bind_error hread]
    rfl
  | json j v, ⟨body, hbody, _, hlen⟩, hshort =>
    rw [encode, hbody] at hpre hlt
    show ((recvFramedJson recv j).on s).1 = _
    rcases Nat.lt_or_ge (stream s).length 4 with h4 | h4
    · -- inside the length
      obtain ⟨s', hread⟩ := readExact_eof hrecv eofError h4
      rw [recvFramedJson, on_bind_error hread]
      rfl
    · -- inside the body: the length is there in full
      obtain ⟨rest, hrest⟩ : toBE 4 body.length <+: stream s :=
        List.prefix_of_prefix_length_le (List.prefix_append _ _) hpre
          (by rw [length_toBE]; exact h4)
      rw [← hrest, List.length_append, List.length_append, length_toBE] at hlt
      obtain ⟨s₁, hs₁, hrun⟩ := recvFramedJson_length hrecv j hlen hrest.symm
      obtain ⟨s', hread⟩ := readExact_eof hrecv eofError
        (show (stream s₁).length < body.length by rw [hs₁]; omega)
      have hle : body.length ≤ maxJsonFrameLen := by
        rcases hshort with hshort | h
        · exact hshort body hbody
        · omega
      rw [hrun, if_neg (Nat.not_lt.mpr hle), on_bind_error hread]
      rfl

end WireItem

end

/-! ## How far a receiver reads

On an arbitrary stream, well formed or not. -/

/-- What `recv_framed_json` leaves: the bytes behind a refused length, or behind the body. -/
def afterFrame (bs : Bytes) : Bytes :=
  if bs.length < 4 then []
  else if maxJsonFrameLen < ofBE (bs.take 4) then bs.drop 4
  else bs.drop (4 + ofBE (bs.take 4))

section

variable {σ : Type} {recv : Nat → Sock σ IoError Bytes} {stream : σ → Bytes} {I : σ → Prop} {s : σ}

theorem recvU16Be_stream (hrecv : FaithfulOn I recv stream) (hI : I s) :
    ∃ r s', (recvU16Be recv).on s = (r, s') ∧ I s' ∧ stream s' = (stream s).drop 2 := by
  obtain ⟨r, s', hread, hI', hs', -⟩ := readExact_stream hrecv eofError 2 hI
  cases r with
  | error e => exact ⟨_, s', on_bind_error hread, hI', hs'⟩
  | ok buf => exact ⟨_, s', on_bind_ok hread, hI', hs'⟩

theorem recvFramedJson_stream (hrecv : FaithfulOn I recv stream) {T : Type} (j : Json T)
    (hI : I s) :
    ∃ r s', (recvFramedJson recv j).on s = (r, s') ∧ I s' ∧ stream s' = afterFrame (stream s) := by
  obtain ⟨r, s₁, hread, hI₁, hs₁, ⟨rfl, hlen⟩ | ⟨rfl, hlen⟩⟩ :=
    readExact_stream hrecv eofError 4 hI
  · rw [afterFrame, if_neg (Nat.not_lt.mpr hlen), recvFramedJson, on_bind_ok hread]
    by_cases hmax : maxJsonFrameLen < ofBE ((stream s).take 4)
    · rw [if_pos hmax, if_pos hmax]
      exact ⟨_, s₁, rfl, hI₁, hs₁⟩
    · rw [if_neg hmax, if_neg hmax]
      obtain ⟨r, s₂, hbody, hI₂, hs₂, -⟩ :=
        readExact_stream hrecv eofError (ofBE ((stream s).take 4)) hI₁
      rw [hs₁, List.drop_drop] at hs₂
      cases r with
      | error e => exact ⟨_, s₂, on_bind_error hbody, hI₂, hs₂⟩
      | ok body =>
        rw [on_bind_ok hbody]
        cases j.fromSlice body with
        | ok v => exact ⟨_, s₂, rfl, hI₂, hs₂⟩
        | error e => exact ⟨_, s₂, rfl, hI₂, hs₂⟩
  · rw [afterFrame, if_pos hlen, recvFramedJson, on_bind_error hread]
    exact ⟨_, s₁, rfl, hI₁, hs₁.trans (List.drop_eq_nil_of_le (Nat.le_of_lt hlen))⟩

end

/-! ## Lists of items -/

/-- The bytes of a list of items, in order. -/
def encodeAll (items : List WireItem) : Bytes := (items.map WireItem.encode).flatten

/-- Send a list of items, in order, stopping at the first error. -/
def sendItems {σ : Type} (sock : Bytes → Sock σ IoError Nat) : List WireItem → Sock σ IoError Unit
  | [] => pure ()
  | u :: us => do
    u.send sock
    sendItems sock us

theorem encodeAll_cons (u : WireItem) (us : List WireItem) :
    encodeAll (u :: us) = u.encode ++ encodeAll us := rfl

theorem encodeAll_append (us vs : List WireItem) :
    encodeAll (us ++ vs) = encodeAll us ++ encodeAll vs := by
  rw [encodeAll, List.map_append, List.flatten_append]
  rfl

theorem writes_sendItems (answers : Nat → Answer IoError) :
    ∀ items : List WireItem, (∀ u ∈ items, u.Serialisable) →
      Writes answers (sendItems (Sink.send answers) items) (encodeAll items)
  | [], _ => writes_pure
  | u :: us, h =>
    (u.writes_send answers (h u List.mem_cons_self)).andThen
      (writes_sendItems answers us fun w hw => h w (List.mem_cons_of_mem u hw))

theorem sendItems_ok {answers : Nat → Answer IoError} (hans : Progresses answers) :
    ∀ (items : List WireItem) (s : Sink UInt8), (∀ u ∈ items, u.Serialisable) →
      ((sendItems (Sink.send answers) items).on s).1 = .ok ()
  | [], _, _ => rfl
  | u :: us, s, h => by
    rw [sendItems, on_bind_ok (Prod.ext (u.send_ok hans (h u List.mem_cons_self) s) rfl)]
    exact sendItems_ok hans us _ fun w hw => h w (List.mem_cons_of_mem u hw)

/-- The matching receivers, run one after the other, return the items; before each of them exactly
    the bytes of the items still to come, then `tail`, are unread.  `Q` holds of the socket at the
    end. -/
def ReadsBack (tail : Bytes) (Q : Chunks UInt8 → Prop) : List WireItem → Chunks UInt8 → Prop
  | [], c => c.stream = tail ∧ Q c
  | u :: us, c => c.stream = encodeAll (u :: us) ++ tail ∧
      ∃ c', (u.recv Chunks.recv).on c = (.ok u.value, c') ∧ ReadsBack tail Q us c'

theorem readsBack_of_stream {tail : Bytes} {Q : Chunks UInt8 → Prop}
    (hQ : ∀ c : Chunks UInt8, c.stream = tail → Q c) :
    ∀ (items : List WireItem) (c : Chunks UInt8), (∀ u ∈ items, u.Serialisable ∧ u.Short) →
      c.stream = encodeAll items ++ tail → ReadsBack tail Q items c
  | [], c, _, hc => ⟨hc, hQ c hc⟩
  | u :: us, c, h, hc => by
    obtain ⟨hser, hshort⟩ := h u List.mem_cons_self
    rw [encodeAll_cons, List.append_assoc] at hc
    obtain ⟨c', hread, hc'⟩ := u.recv_encode Chunks.faithful_recv hser hshort hc
    refine ⟨by rw [hc, encodeAll_cons, List.append_assoc], c', hread, ?_⟩
    exact readsBack_of_stream hQ us c' (fun w hw => h w (List.mem_cons_of_mem u hw)) hc'

/-- **The codec's round trip.**  For every list of items, every schedule of short writes and every
    chunking on the way: the items are sent; they are read back one by one, each receiver leaving
    exactly the items that follow; an over-long body is refused after its four length bytes; a
    stream that ends inside an item is reported as such. -/
theorem controlCodec_roundTrip {answers : Nat → Answer IoError} (hans : Progresses answers)
    (items : List WireItem) (hser : ∀ u ∈ items, u.Serialisable) :
    ∃ out : Sink UInt8, (sendItems (Sink.send answers) items).on Sink.fresh = (.ok (), out) ∧
      out.written = encodeAll items ∧
      (∀ c : Chunks UInt8, c.stream = out.written → (∀ u ∈ items, u.Short) →
        ReadsBack [] (fun _ => True) items c) ∧
      (∀ c : Chunks UInt8, c.stream = out.written →
        ∀ (pre post : List WireItem) (T : Type) (j : Json T) (v : T) (body : Bytes),
          items = pre ++ .json j v :: post → (∀ u ∈ pre, u.Short) →
          j.toVec v = .ok body → maxJsonFrameLen < body.length →
          ReadsBack (encodeAll (.json j v :: post)) (fun c' => ∃ c'',
            (recvFramedJson Chunks.recv j).on c' = (.error (oversizeError body.length), c'') ∧
              c''.stream = body ++ encodeAll post) pre c) ∧
      ∀ (c : Chunks UInt8) (pre post : List WireItem) (u : WireItem) (part : Bytes),
        items = pre ++ u :: post → (∀ w ∈ pre, w.Short) →
        c.stream = encodeAll pre ++ part → part <+: u.encode → part ≠ u.encode →
        (u.Short ∨ part.length < 4) →
        ReadsBack part (fun c' => ((u.recv Chunks.recv).on c').1 = .error eofError) pre c := by
  rcases hrun : (sendItems (Sink.send answers) items).on Sink.fresh with ⟨r, out⟩
  have hr := sendItems_ok hans items Sink.fresh hser
  obtain ⟨p, _, hwrote, hok, -⟩ := writes_sendItems answers items hser Sink.fresh
  have hw := hwrote.written
  rw [hrun] at hr hw hok
  obtain rfl : p = encodeAll items := hok.mp hr
  refine ⟨out, by rw [show r = .ok () from hr], hw, ?_, ?_, ?_⟩
  · intro c hc hshort
    refine readsBack_of_stream (fun _ _ => trivial) items c
      (fun u hu => ⟨hser u hu, hshort u hu⟩) ?_
    rw [hc, hw, List.append_nil]
    rfl
  · intro c hc pre post T j v body hitems hshort hbody hmax
    subst hitems
    refine readsBack_of_stream (fun c' hc' => ?_) pre c
      (fun u hu => ⟨hser u (List.mem_append_left _ hu), hshort u hu⟩) ?_
    · obtain ⟨body', hbody', _, hlen⟩ :=
        hser (.json j v) (List.mem_append_right _ List.mem_cons_self)
      obtain rfl : body = body' := Except.ok.inj (hbody.symm.trans hbody')
      rw [encodeAll_cons, WireItem.encode, hbody, List.append_assoc] at hc'
      exact recvFramedJson_oversize Chunks.faithful_recv j hlen hmax hc'
    · rw [hc, hw, encodeAll_append]
      rfl
  · intro c pre post u part hitems hshort hc hpre hne hu
    subst hitems
    refine readsBack_of_stream (fun c' hc' => ?_) pre c
      (fun w hw => ⟨hser w (List.mem_append_left _ hw), hshort w hw⟩) hc
    rw [← hc'] at hpre hne hu
    exact u.recv_truncated Chunks.faithful_recv
      (hser u (List.mem_append_right _ List.mem_cons_self)) hpre hne hu

/-- A JSON type with one value, printed as an empty object. -/
def emptyObject : Json Unit where
  toVec _ := .ok [123, 125]
  fromSlice bs := if bs = [123, 125] then .ok () else .error "not an empty object"

/-- A message, a port and a frame, sent one byte at a time. -/
theorem controlCodec_byteAtATime :
    Progresses (fun _ => (Answer.accepts 1 : Answer IoError)) ∧
    ∃ out : Sink UInt8,
      (sendItems (Sink.send fun _ => .accepts 1)
        [.message .setDataPort, .u16 5201, .json emptyObject ()]).on Sink.fresh = (.ok (), out) ∧
      out.written = [17, 20, 81, 0, 0, 0, 2, 123, 125] ∧
      ∀ c : Chunks UInt8, c.stream = out.written → ReadsBack [] (fun _ => True)
        [.message .setDataPort, .u16 5201, .json emptyObject ()] c := by
  have hans : Progresses (fun _ => (Answer.accepts 1 : Answer IoError)) := fun _ => ⟨0, rfl⟩
  have hser : ∀ u ∈ [WireItem.message .setDataPort, .u16 5201, .json emptyObject ()],
      u.Serialisable ∧ u.Short := by
    intro u hu
    simp only [List.mem_cons, List.not_mem_nil, or_false] at hu
    obtain rfl | rfl | rfl := hu
    · exact ⟨trivial, trivial⟩
    · exact ⟨trivial, trivial⟩
    · refine ⟨⟨[123, 125], rfl, rfl, by decide⟩, fun body hbody => ?_⟩
      obtain rfl : [123, 125] = body := Except.ok.inj hbody
      decide
  obtain ⟨out, hrun, hw, hback, _⟩ := controlCodec_roundTrip hans
    [.message .setDataPort, .u16 5201, .json emptyObject ()] fun u hu => (hser u hu).1
  exact ⟨hans, out, hrun, by rw [hw]; decide, fun c hc => hback c hc fun u hu => (hser u hu).2⟩

end Rperf3
