/-
  `common/cookie.rs`: the 37-byte session cookie and its blocking read.

  A connection delivers its bytes in SEGMENTS: one `recv` returns at most one segment, or the part
  of it that fits the buffer.  `recvCookie` loops over them; `recvCookie_eq` shows that the
  segmentation does not matter — only the byte stream and how it ends do.
-/
import Rperf3.Common.Wire

namespace Rperf3

def cookieLen : Nat := 37

/-- `u8::is_ascii_alphanumeric`. -/
def isAsciiAlphanumeric (b : UInt8) : Bool :=
  (48 ≤ b && b ≤ 57) || (65 ≤ b && b ≤ 90) || (97 ≤ b && b ≤ 122)

/-- What `generate_cookie` can return: 36 alphanumerics and a NUL. -/
structure Cookie where
  chars : Bytes
  length_chars : chars.length = 36
  alnum : ∀ b ∈ chars, isAsciiAlphanumeric b = true

namespace Cookie

/-- The cookie on the wire. -/
def bytes (c : Cookie) : Bytes := c.chars ++ [0]

theorem length_bytes (c : Cookie) : c.bytes.length = cookieLen := by
  rw [bytes, List.length_append, c.length_chars]
  rfl

end Cookie

/-! ## Reading from a connection -/

/-- What the peer does after its last byte. -/
inductive Ending
  | closes
  | stalls
  deriving DecidableEq, Repr

/-- The incoming half of a connection: segments in order of arrival, then the ending. -/
structure Incoming where
  segments : List Bytes
  ending : Ending
  deriving DecidableEq, Repr

/-- Everything the peer sends. -/
def Incoming.stream (c : Incoming) : Bytes := c.segments.flatten

/-- The outcome of a blocking read: a value, an error, or a wait without end. -/
inductive Blocking (α : Type)
  | done (a : α)
  | failed (e : IoError)
  | blocked
  deriving DecidableEq, Repr

/-- `recv` beyond the last byte: end-of-file, or silence that only a read timeout can end. -/
def recvEnding (timeout : Option Nat) : Ending → Blocking Bytes
  | .closes => .failed ⟨.unexpectedEof, "peer closed before cookie was fully received"⟩
  | .stalls =>
    match timeout with
    | some _ => .failed ⟨.wouldBlock, "Resource temporarily unavailable (os error 11)"⟩
    | none => .blocked

/-- The loop of `recv_cookie`; `buf` is what has been read so far.  Empty segments carry nothing. -/
def recvCookieLoop (timeout : Option Nat) (ending : Ending) (buf : Bytes) :
    List Bytes → Blocking Bytes
  | [] => if cookieLen ≤ buf.length then .done buf else recvEnding timeout ending
  | s :: ss =>
    if cookieLen ≤ buf.length then .done buf
    else recvCookieLoop timeout ending (buf ++ s.take (cookieLen - buf.length)) ss

/-- `recv_cookie` on a fresh connection. -/
def recvCookie (timeout : Option Nat) (c : Incoming) : Blocking Bytes :=
  recvCookieLoop timeout c.ending [] c.segments

theorem recvCookieLoop_eq (timeout : Option Nat) (ending : Ending) (segments : List Bytes) :
    ∀ buf : Bytes, buf.length ≤ cookieLen →
      recvCookieLoop timeout ending buf segments =
        if cookieLen ≤ (buf ++ segments.flatten).length
        then .done ((buf ++ segments.flatten).take cookieLen)
        else recvEnding timeout ending := by
  induction segments with
  | nil =>
    intro buf hbuf
    rw [recvCookieLoop, List.flatten_nil, List.append_nil, List.take_of_length_le hbuf]
  | cons s ss ih =>
    intro buf hbuf
    rw [recvCookieLoop, List.flatten_cons, ← List.append_assoc]
    by_cases hfull : cookieLen ≤ buf.length
    · -- the buffer is full: later segments stay in the socket
      have hlen : buf.length = cookieLen := Nat.le_antisymm hbuf hfull
      rw [if_pos hfull, if_pos (by simp only [List.length_append]; omega), List.append_assoc,
        List.take_left' hlen]
    · rw [if_neg hfull, ih _ (by simp only [List.length_append, List.length_take]; omega)]
      by_cases hfit : s.length ≤ cookieLen - buf.length
      · rw [List.take_of_length_le hfit]
      · -- the segment completes the cookie: what follows changes neither length test nor prefix
        have hpre : (buf ++ s.take (cookieLen - buf.length)).length = cookieLen := by
          simp only [List.length_append, List.length_take]
          omega
        have htake : buf ++ s.take (cookieLen - buf.length) = (buf ++ s).take cookieLen := by
          rw [List.take_append, List.take_of_length_le (l := buf) hbuf]
        have hshort : cookieLen ≤ (buf ++ s).length := by
          rw [List.length_append]
          omega
        rw [if_pos (by rw [List.length_append, hpre]; omega),
          if_pos (by rw [List.length_append]; omega), List.take_left' hpre, htake,
          List.take_append_of_le_length hshort]

/-- **Segmentation does not matter**: the first 37 bytes, or how the stream ends before them. -/
theorem recvCookie_eq (timeout : Option Nat) (c : Incoming) :
    recvCookie timeout c =
      if cookieLen ≤ c.stream.length then .done (c.stream.take cookieLen)
      else recvEnding timeout c.ending :=
  recvCookieLoop_eq timeout c.ending c.segments [] (Nat.zero_le _)

/-! ## What the read leaves -/

/-- The segments left in the socket once `filled` bytes and the missing rest of a cookie have been
    read: a segment that completes the cookie stays with the bytes that did not fit the buffer. -/
def segmentsAfter (filled : Nat) : List Bytes → List Bytes
  | [] => []
  | s :: ss =>
    if cookieLen ≤ filled then s :: ss
    else s.drop (cookieLen - filled) ::
      segmentsAfter (filled + (s.take (cookieLen - filled)).length) ss

/-- The connection as `recv_cookie` leaves it. -/
def Incoming.afterCookie (c : Incoming) : Incoming := ⟨segmentsAfter 0 c.segments, c.ending⟩

theorem flatten_segmentsAfter : ∀ (segments : List Bytes) (filled : Nat),
    (segmentsAfter filled segments).flatten = segments.flatten.drop (cookieLen - filled)
  | [], _ => List.drop_nil.symm
  | s :: ss, filled => by
    rw [segmentsAfter]
    by_cases hfull : cookieLen ≤ filled
    · rw [if_pos hfull, Nat.sub_eq_zero_of_le hfull, List.drop_zero]
    · rw [if_neg hfull, List.flatten_cons, flatten_segmentsAfter ss, List.flatten_cons,
        List.drop_append, List.length_take]
      congr 2
      omega

/-- **Exactly the cookie is consumed**, also from a segment that holds payload behind it. -/
theorem stream_afterCookie (c : Incoming) : c.afterCookie.stream = c.stream.drop cookieLen :=
  flatten_segmentsAfter c.segments 0

end Rperf3
