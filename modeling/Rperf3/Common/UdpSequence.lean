/-
  SEQUENCE NUMBERS OVER THEIR FULL RANGE.

  A peer may write any 63-bit number into its datagrams, in any order, and the receiver computes
  with them in wrapping `i64` arithmetic.  Nothing is lost by that:

  1. `foldl_receiveArrival` — a stream is the fold of one update over its DATA datagrams; short
     datagrams and sentinels leave no trace in the counters.
  2. `Balanced` — the invariant of that fold.  The maximum is the largest number so far, and each
     datagram moves exactly one of `lost`, `ooo` and the maximum against the others.
  3. `seq_counters_balance` — hence the identity between the counters in every reachable state,
     and that the saturating addition never saturates.
-/
import Rperf3.Common.UdpAccounting

namespace Rperf3

open GapTally

/-! ## The data datagrams of a stream -/

/-- A datagram that counts: when it was read, how long it is, and its header. -/
structure DataDatagram where
  now : Nat
  len : Nat
  hdr : UdpHeader
  deriving DecidableEq

/-- The data datagram in an arrival; `none` for a short datagram or a sentinel. -/
def Arrival.data (x : Arrival) : Option DataDatagram :=
  if x.datagram.payload.length < udpHeaderLen then none
  else
    match UdpHeader.decode (x.datagram.payload.take udpHeaderLen) with
    | .error _ => none
    | .ok hdr => if hdr.isSentinel then none else some ⟨x.now, x.datagram.payload.length, hdr⟩

namespace DataDatagram

/-- The sequence number; a data datagram never has a negative one. -/
def seq (d : DataDatagram) : Nat := d.hdr.seq.toInt.toNat

end DataDatagram

/-- What a data datagram does to its stream. -/
def StreamState.count (omitWindow : Nat) (s : StreamState) (d : DataDatagram) : StreamState :=
  countJitter d.now d.hdr (countSeq d.hdr.seq (countBytes omitWindow d.now d.len s))

theorem dataSeq_eq_map (x : Arrival) :
    dataSeq x.datagram.payload = x.data.map DataDatagram.seq := by
  unfold dataSeq Arrival.data
  split
  · rfl
  cases UdpHeader.decode (x.datagram.payload.take udpHeaderLen) with
  | error e => rfl
  | ok hdr =>
    cases hsent : hdr.isSentinel with
    | true => simp only [hsent, if_true, Option.map_none]
    | false => simp only [hsent, Bool.false_eq_true, if_false, Option.map_some]; rfl

theorem seq_of_data {x : Arrival} {d : DataDatagram} (h : x.data = some d) :
    d.hdr.seq.toInt = d.seq := by
  unfold Arrival.data at h
  split at h
  · cases h
  cases hdec : UdpHeader.decode (x.datagram.payload.take udpHeaderLen) with
  | error e =>
    rw [hdec] at h
    cases h
  | ok hdr =>
    rw [hdec] at h
    dsimp only at h
    split at h
    · cases h
    · rename_i hsent
      cases h
      have hnn := UdpHeader.isSentinel_eq_false_iff.mp (Bool.eq_false_iff.mpr hsent)
      show hdr.seq.toInt = (hdr.seq.toInt.toNat : ℤ)
      omega

/-- An arrival counts through its data; otherwise it can only be the sentinel. -/
theorem receiveArrival_eq (omitWindow : Nat) (s : StreamState) (x : Arrival) :
    ∃ saw, receiveArrival omitWindow s x =
      { (x.data.elim s (s.count omitWindow)) with sawSentinel := saw } := by
  unfold receiveArrival StreamState.receive Arrival.data
  split
  · exact ⟨s.sawSentinel, rfl⟩
  cases UdpHeader.decode (x.datagram.payload.take udpHeaderLen) with
  | error e => exact ⟨s.sawSentinel, rfl⟩
  | ok hdr =>
    cases hsent : hdr.isSentinel with
    | true => exact ⟨true, by simp only [hsent, if_true, Option.elim_none]⟩
    | false =>
      refine ⟨(s.count omitWindow ⟨x.now, x.datagram.payload.length, hdr⟩).sawSentinel, ?_⟩
      simp only [hsent, Bool.false_eq_true, if_false, Option.elim_some]
      rfl

/-- Counting does not look at the sentinel flag. -/
theorem count_sawSentinel (omitWindow : Nat) (s : StreamState) (saw : Bool) (d : DataDatagram) :
    StreamState.count omitWindow { s with sawSentinel := saw } d =
      { s.count omitWindow d with sawSentinel := saw } := by
  have hseq : ∀ t : StreamState, StreamState.countSeq d.hdr.seq { t with sawSentinel := saw } =
      { t.countSeq d.hdr.seq with sawSentinel := saw } := by
    intro t
    unfold StreamState.countSeq
    split
    · rfl
    · rfl
  unfold StreamState.count
  rw [show StreamState.countBytes omitWindow d.now d.len { s with sawSentinel := saw } =
    { s.countBytes omitWindow d.now d.len with sawSentinel := saw } from rfl, hseq]
  rfl

/-- **A stream is the fold over its data datagrams**, up to the sentinel flag. -/
theorem foldl_receiveArrival (omitWindow : Nat) (as : List Arrival) : ∀ s : StreamState,
    ∃ saw, as.foldl (receiveArrival omitWindow) s =
      { (as.filterMap Arrival.data).foldl (StreamState.count omitWindow) s with
        sawSentinel := saw } := by
  have hfold : ∀ (ds : List DataDatagram) (s : StreamState) (saw : Bool),
      ds.foldl (StreamState.count omitWindow) { s with sawSentinel := saw } =
        { ds.foldl (StreamState.count omitWindow) s with sawSentinel := saw } := by
    intro ds
    induction ds with
    | nil =>
      intro s saw
      rfl
    | cons d ds ih =>
      intro s saw
      rw [List.foldl_cons, List.foldl_cons, count_sawSentinel, ih]
  induction as with
  | nil =>
    intro s
    exact ⟨s.sawSentinel, rfl⟩
  | cons x as ih =>
    intro s
    obtain ⟨saw, hx⟩ := receiveArrival_eq omitWindow s x
    rw [List.foldl_cons, hx]
    obtain ⟨saw', has⟩ := ih { (x.data.elim s (s.count omitWindow)) with sawSentinel := saw }
    refine ⟨saw', ?_⟩
    rw [has, hfold]
    cases hdata : x.data with
    | none => rw [List.filterMap_cons_none hdata]; rfl
    | some d => rw [List.filterMap_cons_some hdata]; rfl

/-- The data datagrams the receiver has read from one address. -/
def streamData (order : List SocketAddr) (omitWindow : Nat) (ticks : List Tick) (a : SocketAddr) :
    List DataDatagram :=
  ((udpConsumed order omitWindow ticks).filter fun x => x.datagram.src = a).filterMap Arrival.data

theorem streamSeqs_eq_map (order : List SocketAddr) (omitWindow : Nat) (ticks : List Tick)
    (a : SocketAddr) :
    streamSeqs order omitWindow ticks a =
      (streamData order omitWindow ticks a).map DataDatagram.seq := by
  rw [streamSeqs, dataSeqs, streamData, List.map_filterMap]
  exact List.filterMap_congr fun x _ => dataSeq_eq_map x

theorem seq_of_mem_streamData {order : List SocketAddr} {omitWindow : Nat} {ticks : List Tick}
    {a : SocketAddr} {d : DataDatagram} (h : d ∈ streamData order omitWindow ticks a) :
    d.hdr.seq.toInt = d.seq := by
  obtain ⟨x, -, hx⟩ := List.mem_filterMap.mp h
  exact seq_of_data hx

/-- The state of a stream, in terms of its data. -/
theorem udpStreamState_eq_foldl {order : List SocketAddr} {a : SocketAddr} (ha : a ∈ order)
    (omitWindow : Nat) (ticks : List Tick) :
    ∃ saw, udpStreamState order omitWindow ticks a = some
      { (streamData order omitWindow ticks a).foldl (StreamState.count omitWindow) .new with
        sawSentinel := saw } := by
  obtain ⟨saw, hfold⟩ := foldl_receiveArrival omitWindow
    ((udpConsumed order omitWindow ticks).filter fun x => x.datagram.src = a) .new
  exact ⟨saw, by rw [udpStreamState_eq ha, hfold, streamData]⟩

/-! ## The invariant -/

/-- The sequence counters after the data numbers `qs`. -/
structure Balanced (s : StreamState) (qs : List Nat) : Prop where
  next_eq : s.maxSeq.toInt + 1 = bound qs
  balance : s.receipt.lost + qs.length = bound qs + s.receipt.ooo
  ooo_le : s.receipt.ooo ≤ qs.length

theorem balanced_new : Balanced .new [] := ⟨by decide, rfl, Nat.le_refl 0⟩

/-- Byte accounting leaves the sequence counters alone. -/
theorem balanced_countBytes {s : StreamState} {qs : List Nat} (h : Balanced s qs)
    (omitWindow now len : Nat) : Balanced (s.countBytes omitWindow now len) qs :=
  ⟨h.next_eq, h.balance, h.ooo_le⟩

/-- So does jitter accounting. -/
theorem balanced_countJitter {s : StreamState} {qs : List Nat} (h : Balanced s qs) (now : Nat)
    (hdr : UdpHeader) : Balanced (s.countJitter now hdr) qs := by
  unfold StreamState.countJitter
  cases s.lastTransitMs with
  | none => exact ⟨h.next_eq, h.balance, h.ooo_le⟩
  | some prev => exact ⟨h.next_eq, h.balance, h.ooo_le⟩

namespace Balanced

variable {s : StreamState} {qs : List Nat} (h : Balanced s qs)
include h

theorem neg_one_le_maxSeq : -1 ≤ s.maxSeq.toInt := by
  have hnext := h.next_eq
  omega

theorem lost_le : (s.receipt.lost : ℤ) ≤ s.maxSeq.toInt + 1 := by
  have hnext := h.next_eq
  have hbalance := h.balance
  have hooo := h.ooo_le
  omega

/-- The saturating addition has room for every gap that can follow. -/
theorem lost_add_gap_lt {seq : BitVec 64} (hseq : s.maxSeq.toInt < seq.toInt) :
    s.receipt.lost + (seq - s.maxSeq - 1).toNat < 2 ^ 63 := by
  have hlost := h.lost_le
  have htop : seq.toInt < 2 ^ 63 := BitVec.toInt_lt
  obtain ⟨-, hgap⟩ := gap_exact h.neg_one_le_maxSeq hseq
  omega

/-- Beyond the maximum the whole gap is added, exactly. -/
theorem countSeq_ahead {seq : BitVec 64} (hseq : s.maxSeq.toInt < seq.toInt) :
    ∃ lost : Nat, (lost : ℤ) = s.receipt.lost + (seq.toInt - (s.maxSeq.toInt + 1)) ∧
      s.countSeq seq = { s with receipt := { s.receipt with lost := lost }, maxSeq := seq } := by
  have hroom := h.lost_add_gap_lt hseq
  obtain ⟨hinc, hgap⟩ := gap_exact h.neg_one_le_maxSeq hseq
  unfold StreamState.countSeq
  rw [if_neg (not_le.mpr hseq)]
  refine ⟨_, ?_, rfl⟩
  split
  · rw [saturatingAdd64]
    omega
  · omega

/-- **One data datagram** keeps the balance. -/
theorem countSeq {seq : BitVec 64} {q : Nat} (hq : seq.toInt = q) :
    Balanced (s.countSeq seq) (qs ++ [q]) := by
  have hnext := h.next_eq
  have hbalance := h.balance
  have hooo := h.ooo_le
  by_cases hlate : seq.toInt ≤ s.maxSeq.toInt
  · rw [StreamState.countSeq, if_pos hlate]
    constructor
    · rw [bound_concat]
      dsimp only
      omega
    · rw [bound_concat, List.length_append, List.length_singleton]
      dsimp only
      omega
    · rw [List.length_append, List.length_singleton]
      dsimp only
      omega
  · obtain ⟨lost, hlost, heq⟩ := h.countSeq_ahead (not_le.mp hlate)
    rw [heq]
    constructor
    · rw [bound_concat]
      dsimp only
      omega
    · rw [bound_concat, List.length_append, List.length_singleton]
      dsimp only
      omega
    · rw [List.length_append, List.length_singleton]
      dsimp only
      omega

theorem count (omitWindow : Nat) {d : DataDatagram} (hd : d.hdr.seq.toInt = d.seq) :
    Balanced (s.count omitWindow d) (qs ++ [d.seq]) :=
  balanced_countJitter ((balanced_countBytes h omitWindow d.now d.len).countSeq hd) d.now d.hdr

end Balanced

/-- **All data datagrams of a stream**, by induction on them. -/
theorem foldl_balanced (omitWindow : Nat) (ds : List DataDatagram) :
    ∀ {s : StreamState} {qs : List Nat}, Balanced s qs → (∀ d ∈ ds, d.hdr.seq.toInt = d.seq) →
      Balanced (ds.foldl (StreamState.count omitWindow) s) (qs ++ ds.map DataDatagram.seq) := by
  induction ds with
  | nil =>
    intro s qs h _
    rw [List.map_nil, List.append_nil]
    exact h
  | cons d ds ih =>
    intro s qs h hds
    rw [List.map_cons, List.append_cons]
    exact ih (h.count omitWindow (hds d List.mem_cons_self))
      fun e he => hds e (List.mem_cons_of_mem d he)

theorem foldl_packets (omitWindow : Nat) (ds : List DataDatagram) : ∀ s : StreamState,
    (ds.foldl (StreamState.count omitWindow) s).receipt.packets =
      s.receipt.packets + ds.length := by
  induction ds with
  | nil =>
    intro s
    rfl
  | cons d ds ih =>
    intro s
    have hstep : (s.count omitWindow d).receipt.packets = s.receipt.packets + 1 := by
      rw [StreamState.count, (volume_countJitter _ _ _).2, (volume_countSeq _ _).2]
      rfl
    rw [List.foldl_cons, ih, hstep, List.length_cons]
    omega

/-! ## The identity -/

/-- `m` is the largest of the numbers, or `-1` if there are none. -/
def IsMaxSeq (m : ℤ) (qs : List Nat) : Prop :=
  (∀ q ∈ qs, (q : ℤ) ≤ m) ∧ (qs = [] ∧ m = -1 ∨ ∃ q ∈ qs, (q : ℤ) = m)

theorem isMaxSeq_of_bound {m : ℤ} {qs : List Nat} (h : m + 1 = bound qs) : IsMaxSeq m qs := by
  constructor
  · intro q hq
    have hlt := lt_bound_of_mem hq
    omega
  · by_cases hnil : qs = []
    · subst hnil
      exact .inl ⟨rfl, by simp only [bound] at h; omega⟩
    · obtain ⟨q, hq, hbound⟩ := exists_mem_bound hnil
      exact .inr ⟨q, hq, by omega⟩

/-- **The counters of a stream balance.**  In every state the receiver reaches, `max_seq` is the
    largest number read so far, `packets` counts the data datagrams, and what is lost and what came
    in order make up the numbers up to the maximum; so no counter exceeds its share, and no gap that
    could be read next makes the addition saturate. -/
theorem seq_counters_balance (order : List SocketAddr) (omitWindow : Nat) (ticks : List Tick)
    (a : SocketAddr) (ha : a ∈ order) :
    ∃ s, udpStreamState order omitWindow ticks a = some s ∧
      IsMaxSeq s.maxSeq.toInt (streamSeqs order omitWindow ticks a) ∧
      s.receipt.packets = (streamSeqs order omitWindow ticks a).length ∧
      ((s.receipt.lost + (s.receipt.packets - s.receipt.ooo) : Nat) : ℤ) = s.maxSeq.toInt + 1 ∧
      s.receipt.ooo ≤ s.receipt.packets ∧
      (s.receipt.lost : ℤ) ≤ s.maxSeq.toInt + 1 ∧
      ∀ seq : BitVec 64, s.maxSeq.toInt < seq.toInt →
        saturatingAdd64 s.receipt.lost (seq - s.maxSeq - 1).toNat =
          s.receipt.lost + (seq - s.maxSeq - 1).toNat := by
  obtain ⟨saw, hstate⟩ := udpStreamState_eq_foldl ha omitWindow ticks
  have hbal := foldl_balanced omitWindow (streamData order omitWindow ticks a) balanced_new
    fun d hd => seq_of_mem_streamData hd
  have hpackets := foldl_packets omitWindow (streamData order omitWindow ticks a) .new
  rw [List.nil_append, ← streamSeqs_eq_map] at hbal
  have hlen : (streamData order omitWindow ticks a).length =
      (streamSeqs order omitWindow ticks a).length := by rw [streamSeqs_eq_map, List.length_map]
  rw [hlen, show StreamState.new.receipt.packets = 0 from rfl, Nat.zero_add] at hpackets
  have hnext := hbal.next_eq
  have hbalance := hbal.balance
  have hooo := hbal.ooo_le
  refine ⟨_, hstate, isMaxSeq_of_bound hnext, hpackets, ?_, ?_, hbal.lost_le, ?_⟩
  · dsimp only
    omega
  · dsimp only
    omega
  · intro seq hseq
    have hroom := hbal.lost_add_gap_lt hseq
    exact Nat.min_eq_left (by dsimp only; omega)

/-- The largest number of all, first, and then a late one. -/
theorem seq_counters_balance_topFirst :
    ∃ s, udpStreamState [lonePeer] 0
        (feed ([9223372036854775807, 5].map loneDatagram)) lonePeer = some s ∧
      s.receipt.packets = 2 ∧
      ((s.receipt.lost + (2 - s.receipt.ooo) : Nat) : ℤ) = s.maxSeq.toInt + 1 ∧
      IsMaxSeq s.maxSeq.toInt [9223372036854775807, 5] := by
  have hdata : dataSeqs ([9223372036854775807, 5].map loneDatagram) =
      [9223372036854775807, 5] := by decide +kernel
  obtain ⟨r, -, hseqs⟩ := lonePeer_run [9223372036854775807, 5]
  obtain ⟨s, hstate, hmax, hpackets, hidentity, -⟩ := seq_counters_balance [lonePeer] 0
    (feed ([9223372036854775807, 5].map loneDatagram)) lonePeer List.mem_cons_self
  rw [hseqs, hdata] at hmax hpackets
  rw [show s.receipt.packets = 2 from hpackets] at hidentity
  exact ⟨s, hstate, hpackets, hidentity, hmax⟩

end Rperf3
