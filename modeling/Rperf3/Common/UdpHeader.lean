/-
  `common/udp_header.rs`: the 16-byte datagram header.

  Two big-endian `u32` clock fields and a big-endian `i64` sequence number, negative meaning
  end-of-test.  `seq` is a 64-bit pattern read as a SIGNED number (`BitVec.toInt`), so the
  receiver's arithmetic on it wraps exactly as the machine's does.
-/
import Rperf3.Lib.BigEndian
import Rperf3.Common.Wire

namespace Rperf3

open BigEndian

def udpHeaderLen : Nat := 16

structure UdpHeader where
  tvSec : BitVec 32
  tvUsec : BitVec 32
  seq : BitVec 64
  deriving DecidableEq

namespace UdpHeader

/-- The header on the wire. -/
def bytes (h : UdpHeader) : Bytes :=
  toBE 4 h.tvSec.toNat ++ (toBE 4 h.tvUsec.toNat ++ toBE 8 h.seq.toNat)

/-- `encode` into the front of `out`: the result and the buffer afterwards. -/
def encode (h : UdpHeader) (out : Bytes) : Except IoError Unit × Bytes :=
  if out.length < udpHeaderLen then
    (.error ⟨.invalidInput, "buffer too small for UDP header"⟩, out)
  else (.ok (), h.bytes ++ out.drop udpHeaderLen)

/-- `decode` the first 16 bytes of `buf`. -/
def decode (buf : Bytes) : Except IoError UdpHeader :=
  if buf.length < udpHeaderLen then
    .error ⟨.invalidData, "datagram shorter than 16-byte UDP header"⟩
  else .ok
    { tvSec := BitVec.ofNat 32 (ofBE (buf.take 4))
      tvUsec := BitVec.ofNat 32 (ofBE ((buf.drop 4).take 4))
      seq := BitVec.ofNat 64 (ofBE ((buf.drop 8).take 8)) }

/-- `out[lo..lo + field.len()].copy_from_slice(&field)`. -/
def copyAt (lo : Nat) (field out : Bytes) : Bytes :=
  out.take lo ++ (field ++ out.drop (lo + field.length))

/-- The three writes of `encode`, in its order. -/
def writeFields (h : UdpHeader) (out : Bytes) : Bytes :=
  copyAt 8 (toBE 8 h.seq.toNat)
    (copyAt 4 (toBE 4 h.tvUsec.toNat) (copyAt 0 (toBE 4 h.tvSec.toNat) out))

/-- `is_sentinel`: a negative sequence number. -/
def isSentinel (h : UdpHeader) : Bool := h.seq.toInt < 0

theorem isSentinel_eq_false_iff {h : UdpHeader} : h.isSentinel = false ↔ 0 ≤ h.seq.toInt := by
  rw [isSentinel, decide_eq_false_iff_not, not_lt]

@[simp] theorem length_bytes (h : UdpHeader) : h.bytes.length = udpHeaderLen := by
  simp [bytes, udpHeaderLen]

/-- A field survives its own width of bytes. -/
theorem ofNat_ofBE_toBE {w n : Nat} (hw : 2 ^ w = 256 ^ n) (v : BitVec w) :
    BitVec.ofNat w (ofBE (toBE n v.toNat)) = v := by
  apply BitVec.eq_of_toNat_eq
  rw [ofBE_toBE, BitVec.toNat_ofNat, ← hw, Nat.mod_mod, Nat.mod_eq_of_lt v.isLt]

/-- **Round trip**: whatever follows the header, decoding gives it back. -/
theorem decode_bytes_append (h : UdpHeader) (rest : Bytes) : decode (h.bytes ++ rest) = .ok h := by
  have hlen : ¬ (h.bytes ++ rest).length < udpHeaderLen := by
    rw [List.length_append, length_bytes]
    omega
  have h4 : (h.bytes ++ rest).take 4 = toBE 4 h.tvSec.toNat := by
    rw [bytes, List.append_assoc, List.take_append_of_le_length (by simp)]
    exact List.take_of_length_le (by simp)
  have hd4 : (h.bytes ++ rest).drop 4 =
      toBE 4 h.tvUsec.toNat ++ (toBE 8 h.seq.toNat ++ rest) := by
    rw [bytes, List.append_assoc, List.append_assoc]
    exact List.drop_left' (by simp)
  have hd8 : (h.bytes ++ rest).drop 8 = toBE 8 h.seq.toNat ++ rest := by
    rw [show 8 = 4 + 4 from rfl, ← List.drop_drop, hd4]
    exact List.drop_left' (by simp)
  unfold decode
  rw [if_neg hlen, h4, hd4, hd8, List.take_left' (by simp), List.take_left' (by simp),
    ofNat_ofBE_toBE (by norm_num), ofNat_ofBE_toBE (by norm_num), ofNat_ofBE_toBE (by norm_num)]

/-- **The other way**: what decodes is the encoding of what it decodes to. -/
theorem bytes_of_decode {buf : Bytes} {h : UdpHeader} (hd : decode buf = .ok h) :
    h.bytes = buf.take udpHeaderLen := by
  have hfield : ∀ {w n : Nat} (bs : Bytes), 2 ^ w = 256 ^ n → bs.length = n →
      toBE n (BitVec.ofNat w (ofBE bs)).toNat = bs := by
    intro w n bs hw hlen
    have hlt := ofBE_lt bs
    rw [hlen, ← hw] at hlt
    rw [BitVec.toNat_ofNat, Nat.mod_eq_of_lt hlt, ← hlen]
    exact toBE_ofBE bs
  unfold decode at hd
  split at hd
  · cases hd
  · rename_i hlen
    cases hd
    unfold udpHeaderLen at hlen ⊢
    show toBE 4 _ ++ (toBE 4 _ ++ toBE 8 _) = buf.take 16
    rw [hfield _ (by norm_num) (by rw [List.length_take]; omega),
      hfield _ (by norm_num) (by rw [List.length_take, List.length_drop]; omega),
      hfield _ (by norm_num) (by rw [List.length_take, List.length_drop]; omega),
      show (16 : Nat) = 4 + (4 + 8) from rfl, List.take_add, List.take_add, List.drop_drop]

/-! ## The codec on buffers -/

/-- A write at the end of what is written so far. -/
theorem copyAt_append (done field rest : Bytes) :
    copyAt done.length field (done ++ rest) = done ++ field ++ rest.drop field.length := by
  rw [copyAt, List.take_left, List.drop_length_add_append, List.append_assoc]

/-- The writes are adjacent: together they replace the first 16 bytes. -/
theorem writeFields_eq (h : UdpHeader) (out : Bytes) :
    h.writeFields out = h.bytes ++ out.drop udpHeaderLen := by
  have h0 := copyAt_append [] (toBE 4 h.tvSec.toNat) out
  have h4 := copyAt_append (toBE 4 h.tvSec.toNat) (toBE 4 h.tvUsec.toNat) (out.drop 4)
  have h8 := copyAt_append (toBE 4 h.tvSec.toNat ++ toBE 4 h.tvUsec.toNat) (toBE 8 h.seq.toNat)
    (out.drop 8)
  simp only [List.length_append, length_toBE, List.length_nil, List.nil_append,
    List.drop_drop] at h0 h4 h8
  unfold writeFields
  rw [h0, h4, h8, bytes, List.append_assoc, List.append_assoc, List.append_assoc]
  rfl

/-- `encode` writes its fields one after the other, and writes nothing to a short buffer. -/
theorem encode_eq_writeFields (h : UdpHeader) (out : Bytes) :
    h.encode out =
      if out.length < udpHeaderLen then
        (.error ⟨.invalidInput, "buffer too small for UDP header"⟩, out)
      else (.ok (), h.writeFields out) := by
  rw [writeFields_eq, encode]

theorem encode_of_le (h : UdpHeader) {out : Bytes} (hlen : udpHeaderLen ≤ out.length) :
    h.encode out = (.ok (), h.bytes ++ out.drop udpHeaderLen) :=
  if_neg (Nat.not_lt.mpr hlen)

/-- **The sign on the wire**: a decoded header is a sentinel iff the top bit of byte 8 is set. -/
theorem isSentinel_of_decode {buf : Bytes} {h : UdpHeader} (hd : decode buf = .ok h) :
    h.isSentinel = true ↔ ∃ b, buf[8]? = some b ∧ b.toNat.testBit 7 = true := by
  unfold decode udpHeaderLen at hd
  split at hd
  · cases hd
  rename_i hshort
  cases hd
  obtain ⟨b, bs, hseq⟩ : ∃ b bs, buf.drop 8 = b :: bs :=
    List.exists_cons_of_length_pos (by rw [List.length_drop]; omega)
  have hbyte : buf[8]? = some b := by
    have hdrop : (buf.drop 8)[0]? = buf[8]? := List.getElem?_drop
    rw [hseq] at hdrop
    exact hdrop.symm
  have hlen : (bs.take 7).length = 7 := by
    have htotal := congrArg List.length hseq
    rw [List.length_drop, List.length_cons] at htotal
    rw [List.length_take]
    omega
  have hlt := ofBE_lt (b :: bs.take 7)
  have hlead := mul_pow_le_ofBE_cons 128 b (bs.take 7)
  rw [List.length_cons, hlen] at hlt
  rw [hlen] at hlead
  have hb := b.toNat_lt
  -- the sign of `seq`, the size of its eight bytes and the size of the first of them
  have hsign : (BitVec.ofNat 64 (ofBE ((buf.drop 8).take 8))).toInt < 0 ↔ 128 ≤ b.toNat := by
    rw [hseq, List.take_succ_cons, BitVec.toInt_neg_iff, BitVec.toNat_ofNat,
      Nat.mod_eq_of_lt (by omega), ← hlead]
    omega
  have hbit : b.toNat.testBit 7 = true ↔ 128 ≤ b.toNat := by
    rw [Nat.testBit_eq_decide_div_mod_eq, decide_eq_true_eq]
    omega
  rw [isSentinel, decide_eq_true_eq, hsign, ← hbit]
  constructor
  · intro hset
    exact ⟨b, hbyte, hset⟩
  · rintro ⟨b', hb', hset⟩
    rw [hbyte] at hb'
    cases hb'
    exact hset

/-- **The codec is a bijection** between headers and the first 16 bytes of a buffer.  On a buffer
    that has them, `encode` replaces exactly these bytes and `decode` reads the header back;
    what `decode` reads encodes to the bytes it was read from, and is a sentinel iff the top bit
    of byte 8 is set.  On any other buffer both fail, and `encode` leaves it as it was. -/
theorem header_codec_bijection (buf : Bytes) :
    (udpHeaderLen ≤ buf.length →
      (∀ h : UdpHeader, ∃ out, h.encode buf = (.ok (), out) ∧ out.length = buf.length ∧
        out.drop udpHeaderLen = buf.drop udpHeaderLen ∧ decode out = .ok h) ∧
      ∃ h : UdpHeader, decode buf = .ok h ∧
        (∀ other : Bytes, udpHeaderLen ≤ other.length →
          ∃ out, h.encode other = (.ok (), out) ∧
            out.take udpHeaderLen = buf.take udpHeaderLen) ∧
        (h.isSentinel = true ↔ ∃ b, buf[8]? = some b ∧ b.toNat.testBit 7 = true)) ∧
    (buf.length < udpHeaderLen →
      (∀ h : UdpHeader, ∃ e, h.encode buf = (.error e, buf)) ∧ ∃ e, decode buf = .error e) := by
  refine ⟨fun hlen => ⟨fun h => ?_, ?_⟩, fun hshort => ⟨fun h => ?_, ?_⟩⟩
  · refine ⟨_, encode_of_le h hlen, ?_, ?_, decode_bytes_append h _⟩
    · rw [List.length_append, length_bytes, List.length_drop]
      omega
    · exact List.drop_left' (length_bytes h)
  · obtain ⟨h, hd⟩ : ∃ h, decode buf = .ok h := ⟨_, if_neg (Nat.not_lt.mpr hlen)⟩
    refine ⟨h, hd, fun other hother => ⟨_, encode_of_le h hother, ?_⟩, isSentinel_of_decode hd⟩
    rw [List.take_left' (length_bytes h)]
    exact bytes_of_decode hd
  · exact ⟨_, if_pos hshort⟩
  · exact ⟨_, if_pos hshort⟩

/-- The end-of-test header, written over the front of a longer datagram. -/
theorem header_codec_bijection_sentinel :
    udpHeaderLen ≤ (List.replicate 18 (7 : UInt8)).length ∧
      (∃ out, (⟨1, 2, -3⟩ : UdpHeader).encode (List.replicate 18 7) = (.ok (), out) ∧
        out.length = 18 ∧ out.drop udpHeaderLen = [7, 7] ∧ decode out = .ok ⟨1, 2, -3⟩) ∧
      isSentinel ⟨1, 2, -3⟩ = true := by
  have hlen : udpHeaderLen ≤ (List.replicate 18 (7 : UInt8)).length := by decide
  obtain ⟨hencode, -⟩ := (header_codec_bijection (List.replicate 18 7)).1 hlen
  exact ⟨hlen, hencode ⟨1, 2, -3⟩, by decide⟩

end UdpHeader

end Rperf3
