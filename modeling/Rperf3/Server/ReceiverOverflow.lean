/-
  THE UDP RECEIVER IN A BUILD WITH OVERFLOW CHECKS.

  The same loop as `run_udp_receiver`, with every `i64` operation of the sequence accounting checked
  and a PANIC where one leaves its range; a panic kills the receiver thread, and `run_udp_branch`
  joins it with `unwrap_or_default`.

  1. `countSeqChecked_eq` — of the three operations one can fail, and only in one way: the
     difference to `max_seq` when that is still `-1` and the number is the largest there is.
  2. `loopChecked_eq` — so a run panics iff some registered stream STARTS with that number, and is
     the wrapping run otherwise.
  3. `receiver_keeps_receipts_iff` — the receipts survive exactly in the other runs.
-/
import Rperf3.Lib.Turns
import Rperf3.Common.UdpSequence

namespace Rperf3

open Turns

def maxI64 : Nat := 2 ^ 63 - 1

/-- An `i64` result, or a panic. -/
def checkedI64 (x : ℤ) : Option ℤ := if -2 ^ 63 ≤ x ∧ x < 2 ^ 63 then some x else none

namespace StreamState

/-- `lost` after the number `seq` beyond the maximum `maxSeq`. -/
def lostChecked (maxSeq seq : ℤ) (lost : Nat) : Option Nat :=
  (checkedI64 (maxSeq + 1)).bind fun next =>
    if next < seq then
      (checkedI64 (seq - maxSeq)).bind fun diff =>
        (checkedI64 (diff - 1)).map fun gap => saturatingAdd64 lost (BitVec.ofInt 64 gap).toNat
    else some lost

/-- Sequence accounting with checks. -/
def countSeqChecked (seq : BitVec 64) (s : StreamState) : Option StreamState :=
  if seq.toInt ≤ s.maxSeq.toInt then
    some { s with receipt := { s.receipt with ooo := s.receipt.ooo + 1 } }
  else
    (lostChecked s.maxSeq.toInt seq.toInt s.receipt.lost).map fun lost =>
      { s with receipt := { s.receipt with lost := lost }, maxSeq := seq }

/-- What one datagram of at least header length does to its stream. -/
def receiveChecked (omitWindow now : Nat) (payload : Bytes) (s : StreamState) :
    Option StreamState :=
  match UdpHeader.decode (payload.take udpHeaderLen) with
  | .error _ => some s
  | .ok hdr =>
    if hdr.isSentinel then some { s with sawSentinel := true }
    else
      ((s.countBytes omitWindow now payload.length).countSeqChecked hdr.seq).map
        (countJitter now hdr)

end StreamState

/-- The datagram branch of the loop body. -/
def receiveDatagramChecked (omitWindow now : Nat) (d : Datagram)
    (states : Table SocketAddr StreamState) : Option (Table SocketAddr StreamState) :=
  if d.payload.length < udpHeaderLen then some states
  else
    match states.lookup d.src with
    | none => some states
    | some s => (s.receiveChecked omitWindow now d.payload).map (states.insert d.src)

/-- One iteration. -/
def Receiver.tickChecked (omitWindow : Nat) (t : Tick) (r : Receiver) : Flow Receiver :=
  let (r, leave) := r.checkStop t
  if leave then .leave r
  else
    match t.outcome with
    | .datagram now d =>
      match receiveDatagramChecked omitWindow now d r.states with
      | some states => .next { r with states := states }
      | none => .panic
    | .wouldBlock stop => if stop then .leave r else .next r
    | .failed => .leave r

/-- `run_udp_receiver` with checks. -/
def runUdpReceiverChecked (streamOrder : List SocketAddr) (omitWindow : Nat) (ticks : List Tick) :
    Option (Turns.Ending (List StreamReceipt)) :=
  (loop (Receiver.tickChecked omitWindow) ticks ⟨initialStates streamOrder, none⟩).map fun
    | .left r => .left (collectReceipts streamOrder r.states)
    | .panicked => .panicked

/-- `handle.join().unwrap_or_default()` of `run_udp_branch`. -/
def joinReceiver : Turns.Ending (List StreamReceipt) → List StreamReceipt
  | .left receipts => receipts
  | .panicked => []

/-! ## One number -/

/-- The number that overflows a fresh stream. -/
def Overflows (s : StreamState) (seq : ℤ) : Prop := s.maxSeq.toInt = -1 ∧ seq = maxI64

theorem checkedI64_eq_some {x : ℤ} (hlo : -2 ^ 63 ≤ x) (hhi : x < 2 ^ 63) :
    checkedI64 x = some x := if_pos ⟨hlo, hhi⟩

/-- **The checks fail at the top of the range of a fresh stream and nowhere else.** -/
theorem countSeqChecked_eq {s : StreamState} (hmax : -1 ≤ s.maxSeq.toInt) (seq : BitVec 64) :
    (Overflows s seq.toInt → s.countSeqChecked seq = none) ∧
      (¬ Overflows s seq.toInt → s.countSeqChecked seq = some (s.countSeq seq)) := by
  have htop : seq.toInt < 2 ^ 63 := BitVec.toInt_lt
  unfold StreamState.countSeqChecked StreamState.countSeq Overflows maxI64
  by_cases hlate : seq.toInt ≤ s.maxSeq.toInt
  · rw [if_pos hlate, if_pos hlate]
    exact ⟨fun h => by omega, fun _ => rfl⟩
  obtain ⟨hinc, hgap⟩ := gap_exact hmax (not_le.mp hlate)
  have hnext : checkedI64 (s.maxSeq.toInt + 1) = some (s.maxSeq.toInt + 1) :=
    checkedI64_eq_some (by omega) (by omega)
  rw [if_neg hlate, if_neg hlate, StreamState.lostChecked, hnext, Option.bind_some]
  constructor
  · rintro ⟨hfresh, hseq⟩
    have hdiff : checkedI64 (seq.toInt - s.maxSeq.toInt) = none := if_neg (by omega)
    rw [if_pos (by omega), hdiff]
    rfl
  · intro hno
    rw [hinc]
    by_cases hahead : s.maxSeq.toInt + 1 < seq.toInt
    · have hdiff : checkedI64 (seq.toInt - s.maxSeq.toInt) =
          some (seq.toInt - s.maxSeq.toInt) := checkedI64_eq_some (by omega) (by omega)
      have hdiff1 : checkedI64 (seq.toInt - s.maxSeq.toInt - 1) =
          some (seq.toInt - s.maxSeq.toInt - 1) := checkedI64_eq_some (by omega) (by omega)
      have hcast : (BitVec.ofInt 64 (seq.toInt - s.maxSeq.toInt - 1)).toNat =
          (seq - s.maxSeq - 1).toNat := by
        rw [BitVec.toNat_ofInt]
        omega
      rw [if_pos hahead, hdiff, Option.bind_some, hdiff1, Option.map_some, hcast]
      simp only [if_pos hahead, Option.map_some]
    · simp only [if_neg hahead, Option.map_some]

/-- The same for a whole datagram, by the number it carries. -/
theorem receiveChecked_eq {s : StreamState} (hmax : -1 ≤ s.maxSeq.toInt) (omitWindow now : Nat)
    {payload : Bytes} (hlen : ¬ payload.length < udpHeaderLen) :
    (s.maxSeq.toInt = -1 → dataSeq payload = some maxI64 →
      s.receiveChecked omitWindow now payload = none) ∧
    (¬ (s.maxSeq.toInt = -1 ∧ dataSeq payload = some maxI64) →
      s.receiveChecked omitWindow now payload = some (s.receive omitWindow now payload)) := by
  unfold dataSeq StreamState.receiveChecked StreamState.receive
  rw [if_neg hlen]
  cases UdpHeader.decode (payload.take udpHeaderLen) with
  | error e => exact ⟨fun _ h => (by cases h), fun _ => rfl⟩
  | ok hdr =>
    dsimp only
    by_cases hsent : hdr.isSentinel
    · rw [if_pos hsent, if_pos hsent, if_pos hsent]
      exact ⟨fun _ h => (by cases h), fun _ => rfl⟩
    · have hnn : 0 ≤ hdr.seq.toInt :=
        UdpHeader.isSentinel_eq_false_iff.mp (Bool.eq_false_iff.mpr hsent)
      obtain ⟨hpanic, hfine⟩ := countSeqChecked_eq
        (s := s.countBytes omitWindow now payload.length) hmax hdr.seq
      simp only [if_neg hsent, Option.some.injEq]
      constructor
      · intro hfresh hseq
        rw [hpanic ⟨hfresh, by omega⟩]
        rfl
      · intro hno
        rw [hfine fun h => hno ⟨h.1, by have := h.2; omega⟩]
        rfl

/-! ## One datagram at the table of streams -/

/-- No stream has counted below its start. -/
def Sane (states : Table SocketAddr StreamState) : Prop :=
  ∀ a s, states.lookup a = some s → -1 ≤ s.maxSeq.toInt

/-- The datagram overflows the stream it belongs to. -/
def Hits (states : Table SocketAddr StreamState) (d : Datagram) : Prop :=
  ∃ s, states.lookup d.src = some s ∧ s.maxSeq.toInt = -1 ∧ dataSeq d.payload = some maxI64

theorem receiveDatagramChecked_eq {states : Table SocketAddr StreamState} (hsane : Sane states)
    (omitWindow now : Nat) (d : Datagram) :
    (Hits states d → receiveDatagramChecked omitWindow now d states = none) ∧
    (¬ Hits states d → receiveDatagramChecked omitWindow now d states =
      some (receiveDatagram omitWindow now d states)) := by
  unfold receiveDatagramChecked receiveDatagram Table.modify
  by_cases hlen : d.payload.length < udpHeaderLen
  · rw [if_pos hlen, if_pos hlen]
    refine ⟨?_, fun _ => rfl⟩
    rintro ⟨s, -, -, hdata⟩
    rw [dataSeq, if_pos hlen] at hdata
    cases hdata
  rw [if_neg hlen, if_neg hlen]
  unfold Hits
  cases hlook : states.lookup d.src with
  | none =>
    refine ⟨?_, fun _ => rfl⟩
    rintro ⟨s, h, -⟩
    cases h
  | some s =>
    obtain ⟨hpanic, hfine⟩ := receiveChecked_eq (hsane _ s hlook) omitWindow now hlen
    constructor
    · rintro ⟨s', hs', hfresh, hdata⟩
      cases hs'
      simp only [hpanic hfresh hdata, Option.map_none]
    · intro hno
      simp only [hfine fun h => hno ⟨s, rfl, h.1, h.2⟩, Option.map_some]

/-- What an arrival does to the maximum of its stream. -/
theorem receiveArrival_maxSeq (omitWindow : Nat) (s : StreamState) (x : Arrival) :
    (dataSeq x.datagram.payload = none → (receiveArrival omitWindow s x).maxSeq = s.maxSeq) ∧
    (dataSeq x.datagram.payload ≠ none →
      0 ≤ (receiveArrival omitWindow s x).maxSeq.toInt) := by
  constructor
  · intro hnone
    exact (receiveArrival_none omitWindow s hnone).2
  · intro hsome
    obtain ⟨q, hq⟩ := Option.ne_none_iff_exists'.mp hsome
    obtain ⟨hdr, -, hsent, -, heq⟩ := receiveArrival_some omitWindow s hq
    rw [UdpHeader.isSentinel_eq_false_iff] at hsent
    have hcount : ∀ t : StreamState, 0 ≤ (t.countSeq hdr.seq).maxSeq.toInt := by
      intro t
      unfold StreamState.countSeq
      split
      · rename_i hlate
        exact hsent.trans hlate
      · exact hsent
    rw [heq]
    exact hcount _

theorem sane_receiveDatagram {states : Table SocketAddr StreamState} (hsane : Sane states)
    (omitWindow now : Nat) (d : Datagram) : Sane (receiveDatagram omitWindow now d states) := by
  intro a s' hs'
  rw [lookup_receiveDatagram] at hs'
  split at hs'
  · obtain ⟨s, hs, rfl⟩ := Option.map_eq_some_iff.mp hs'
    obtain ⟨hnone, hsome⟩ := receiveArrival_maxSeq omitWindow s ⟨now, d⟩
    by_cases hdata : dataSeq d.payload = none
    · rw [hnone hdata]
      exact hsane a s hs
    · exact (by decide : (-1 : ℤ) ≤ 0).trans (hsome hdata)
  · exact hsane a s' hs'

/-! ## Runs -/

/-- Some stream that has counted nothing yet starts with the number that overflows it. -/
def Exposed (states : Table SocketAddr StreamState) (as : List Arrival) : Prop :=
  ∃ a s, states.lookup a = some s ∧ s.maxSeq.toInt = -1 ∧
    (dataSeqs (as.filter fun x => x.datagram.src = a)).head? = some maxI64

/-- One arrival: it hits now, or a later one does. -/
theorem exposed_cons (states : Table SocketAddr StreamState) (omitWindow : Nat) (x : Arrival)
    (as : List Arrival) :
    Exposed states (x :: as) ↔
      Hits states x.datagram ∨
        Exposed (receiveDatagram omitWindow x.now x.datagram states) as := by
  constructor
  · rintro ⟨a, s, hs, hfresh, hhead⟩
    by_cases hsrc : x.datagram.src = a
    · rw [List.filter_cons_of_pos (by simpa using hsrc), dataSeqs_cons] at hhead
      cases hdata : dataSeq x.datagram.payload with
      | some q =>
        rw [hdata] at hhead
        exact .inl ⟨s, hsrc ▸ hs, hfresh, hdata.trans hhead⟩
      | none =>
        rw [hdata] at hhead
        refine .inr ⟨a, receiveArrival omitWindow s x, ?_, ?_, hhead⟩
        · rw [lookup_receiveDatagram, if_pos hsrc, hs]
          rfl
        · rw [(receiveArrival_maxSeq omitWindow s x).1 hdata]
          exact hfresh
    · rw [List.filter_cons_of_neg (by simpa using hsrc)] at hhead
      exact .inr ⟨a, s, by rw [lookup_receiveDatagram, if_neg hsrc, hs], hfresh, hhead⟩
  · rintro (⟨s, hs, hfresh, hdata⟩ | ⟨a, s', hs', hfresh, hhead⟩)
    · refine ⟨x.datagram.src, s, hs, hfresh, ?_⟩
      rw [List.filter_cons_of_pos (by simp), dataSeqs_cons, hdata]
      rfl
    · rw [lookup_receiveDatagram] at hs'
      by_cases hsrc : x.datagram.src = a
      · rw [if_pos hsrc] at hs'
        obtain ⟨s, hs, rfl⟩ := Option.map_eq_some_iff.mp hs'
        obtain ⟨hnone, hsome⟩ := receiveArrival_maxSeq omitWindow s x
        change (receiveArrival omitWindow s x).maxSeq.toInt = -1 at hfresh
        -- a stream that is still fresh has not seen data in `x`
        have hdata : dataSeq x.datagram.payload = none := by
          by_contra hdata
          have hpos := hsome hdata
          omega
        rw [hnone hdata] at hfresh
        refine ⟨a, s, hs, hfresh, ?_⟩
        rw [List.filter_cons_of_pos (by simpa using hsrc), dataSeqs_cons, hdata]
        exact hhead
      · rw [if_neg hsrc] at hs'
        refine ⟨a, s', hs', hfresh, ?_⟩
        rw [List.filter_cons_of_neg (by simpa using hsrc)]
        exact hhead

theorem not_exposed_nil (states : Table SocketAddr StreamState) : ¬ Exposed states [] := by
  rintro ⟨a, s, -, -, hhead⟩
  cases hhead

/-- **A run with checks** panics when a fresh stream is exposed; otherwise it is the run without. -/
theorem loopChecked_eq (omitWindow : Nat) (ts : List Tick) : ∀ r : Receiver, Sane r.states →
    (Exposed r.states (Receiver.consumed omitWindow ts r) →
      loop (Receiver.tickChecked omitWindow) ts r = some .panicked) ∧
    (¬ Exposed r.states (Receiver.consumed omitWindow ts r) →
      loop (Receiver.tickChecked omitWindow) ts r = (Receiver.loop omitWindow ts r).map .left) := by
  induction ts with
  | nil =>
    intro r _
    exact ⟨fun h => absurd h (not_exposed_nil _), fun _ => rfl⟩
  | cons t ts ih =>
    intro r hsane
    have hstates := checkStop_states t r
    rw [loop, Receiver.loop, Receiver.consumed, Receiver.tickChecked, Receiver.tick]
    rcases hcheck : r.checkStop t with ⟨r₁, leave⟩
    rw [hcheck] at hstates
    cases leave with
    | true => exact ⟨fun h => absurd h (not_exposed_nil _), fun _ => rfl⟩
    | false =>
      rw [← show r₁.states = r.states from hstates] at hsane ⊢
      cases hout : t.outcome with
      | datagram now d =>
        obtain ⟨hpanic, hfine⟩ := receiveDatagramChecked_eq hsane omitWindow now d
        obtain ⟨hexposed, hnot⟩ := ih
          { r₁ with states := receiveDatagram omitWindow now d r₁.states }
          (sane_receiveDatagram hsane omitWindow now d)
        have hcons := exposed_cons r₁.states omitWindow ⟨now, d⟩
          (Receiver.consumed omitWindow ts
            { r₁ with states := receiveDatagram omitWindow now d r₁.states })
        simp only [Bool.false_eq_true, if_false]
        by_cases hhit : Hits r₁.states d
        · rw [hpanic hhit]
          exact ⟨fun _ => rfl, fun hno => absurd (hcons.mpr (.inl hhit)) hno⟩
        · rw [hfine hhit]
          refine ⟨fun h => hexposed ((hcons.mp h).resolve_left hhit), fun hno => ?_⟩
          exact hnot fun h => hno (hcons.mpr (.inr h))
      | wouldBlock stop =>
        cases stop with
        | true => exact ⟨fun h => absurd h (not_exposed_nil _), fun _ => rfl⟩
        | false => exact ih r₁ hsane
      | failed => exact ⟨fun h => absurd h (not_exposed_nil _), fun _ => rfl⟩

/-! ## The receiver -/

theorem lookup_initialStates_eq_none {streamOrder : List SocketAddr} {a : SocketAddr}
    (h : a ∉ streamOrder) : (initialStates streamOrder).lookup a = none := by
  have hfold : ∀ (as : List SocketAddr) (m : Table SocketAddr StreamState), a ∉ as →
      m.lookup a = none →
      (as.foldl (fun m a => m.insert a StreamState.new) m).lookup a = none := by
    intro as
    induction as with
    | nil =>
      intro m _ hm
      exact hm
    | cons b as ih =>
      intro m has hm
      have hab : a ≠ b := List.ne_of_not_mem_cons has
      exact ih _ (List.not_mem_of_not_mem_cons has) ((AList.lookup_insert_ne hab).trans hm)
  exact hfold streamOrder ∅ h rfl

theorem sane_initialStates (streamOrder : List SocketAddr) : Sane (initialStates streamOrder) := by
  intro a s hs
  by_cases ha : a ∈ streamOrder
  · rw [lookup_initialStates ha] at hs
    cases hs
    decide
  · rw [lookup_initialStates_eq_none ha] at hs
    cases hs

/-- Exposed at the start: a registered stream begins with the largest number. -/
theorem exposed_start_iff (order : List SocketAddr) (omitWindow : Nat) (ticks : List Tick) :
    Exposed (initialStates order) (udpConsumed order omitWindow ticks) ↔
      ∃ a ∈ order, (streamSeqs order omitWindow ticks a).head? = some maxI64 := by
  constructor
  · rintro ⟨a, s, hs, -, hhead⟩
    by_cases ha : a ∈ order
    · exact ⟨a, ha, hhead⟩
    · rw [lookup_initialStates_eq_none ha] at hs
      cases hs
  · rintro ⟨a, ha, hhead⟩
    exact ⟨a, StreamState.new, lookup_initialStates ha, by decide, hhead⟩

/-- **No operation overflows, and the receipts of all streams arrive, exactly when no registered
    stream starts with the number `2 ^ 63 - 1`.** -/
theorem receiver_keeps_receipts_iff (order : List SocketAddr) (omitWindow : Nat)
    (ticks : List Tick) :
    (runUdpReceiverChecked order omitWindow ticks ≠ some .panicked ∧
      (runUdpReceiverChecked order omitWindow ticks).map joinReceiver =
        runUdpReceiver order omitWindow ticks) ↔
    ∀ a ∈ order, (streamSeqs order omitWindow ticks a).head? ≠ some maxI64 := by
  obtain ⟨hpanics, hfine⟩ := loopChecked_eq omitWindow ticks ⟨initialStates order, none⟩
    (sane_initialStates order)
  have hexposed := exposed_start_iff order omitWindow ticks
  constructor
  · rintro ⟨hno, -⟩ a ha hhead
    refine hno ?_
    rw [runUdpReceiverChecked, hpanics (hexposed.mpr ⟨a, ha, hhead⟩)]
    rfl
  · intro hall
    have hloop := hfine fun h => by
      obtain ⟨a, ha, hhead⟩ := hexposed.mp h
      exact hall a ha hhead
    rw [runUdpReceiverChecked, runUdpReceiver, hloop]
    cases Receiver.loop omitWindow ticks ⟨initialStates order, none⟩ with
    | none => exact ⟨fun h => (by cases h), rfl⟩
    | some r => exact ⟨fun h => (by cases h), rfl⟩

/-- One datagram of one stream, and the receipts of both streams are gone. -/
theorem top_number_kills_receiver :
    runUdpReceiverChecked [lonePeer, nearPeer] 0
        (feed [⟨0, nearPeer, (UdpHeader.mk 0 0 0).bytes⟩, loneDatagram 9223372036854775807]) =
      some .panicked ∧
    (runUdpReceiverChecked [lonePeer, nearPeer] 0
        (feed [⟨0, nearPeer, (UdpHeader.mk 0 0 0).bytes⟩,
          loneDatagram 9223372036854775807])).map joinReceiver = some [] ∧
    ∃ r r', runUdpReceiver [lonePeer, nearPeer] 0
        (feed [⟨0, nearPeer, (UdpHeader.mk 0 0 0).bytes⟩, loneDatagram 9223372036854775807]) =
      some [r, r'] := by
  have hpanic : runUdpReceiverChecked [lonePeer, nearPeer] 0
      (feed [⟨0, nearPeer, (UdpHeader.mk 0 0 0).bytes⟩, loneDatagram 9223372036854775807]) =
      some .panicked := by rfl
  refine ⟨hpanic, by rw [hpanic]; rfl, ?_⟩
  obtain ⟨⟨receipts, hrun⟩, -⟩ := delivers_run (delivers_feed
    [⟨0, nearPeer, (UdpHeader.mk 0 0 0).bytes⟩, loneDatagram 9223372036854775807])
    [lonePeer, nearPeer] 0
  exact ⟨_, _, hrun.trans (congrArg some (runUdpReceiver_receipt (by decide) hrun))⟩

end Rperf3
