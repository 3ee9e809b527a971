/-
  What `run_udp_receiver` reports about loss and reordering.

  1. **Refinement** (`countSeq_accounts`) — on sequence numbers up to `2^63 - 2` the machine
     arithmetic of the receiver (wrapping `i64`, a `u64` cast, a saturating add) IS the one-pass
     tally of `GapTally`; the relation `Accounts` says so field by field.
  2. **Whole runs** (`receipt_accounts`) — whatever ticks the loop goes through and whatever the
     other streams do, the receipt of a registered address is the tally of the data sequence numbers
     that the loop read from that address.
  3. **Loss** — so `lost` exceeds the number of missing datagrams by the
     number of late ones: it is exact if and only if the datagrams arrived in increasing order.
-/
import Mathlib.Data.Int.DivMod
import Rperf3.Lib.GapTally
import Rperf3.Common.UdpSession

namespace Rperf3

open GapTally

/-! ## Refinement of the tally -/

/-- The receiver's counters hold a tally; the bounds keep the machine arithmetic exact. -/
structure Accounts (s : StreamState) (t : Tally) : Prop where
  next_eq : s.maxSeq.toInt + 1 = t.next
  lost_eq : s.receipt.lost = t.lost
  ooo_eq : s.receipt.ooo = t.late
  lost_le : t.lost ≤ t.next
  next_lt : t.next < 2 ^ 63

theorem accounts_new : Accounts StreamState.new Tally.start where
  next_eq := by decide
  lost_eq := rfl
  ooo_eq := rfl
  lost_le := Nat.le_refl 0
  next_lt := by decide

/-- Neither the increment nor the gap is off, at the top of the range either. -/
theorem gap_exact {m q : BitVec 64} (hm : -1 ≤ m.toInt) (hmq : m.toInt < q.toInt) :
    (m + 1).toInt = m.toInt + 1 ∧ ((q - m - 1).toNat : ℤ) = q.toInt - (m.toInt + 1) := by
  have hq : q.toInt < 2 ^ 63 := BitVec.toInt_lt
  have hinc : (m + 1).toInt = m.toInt + 1 := by
    rw [BitVec.toInt_add]
    exact Int.bmod_eq_of_le (by simp; omega) (by simp; omega)
  -- the first subtraction may leave the range, the second one comes back into it
  have hgap : (q - m - 1).toInt = q.toInt - (m.toInt + 1) := by
    rw [show q - m - 1 = q - (m + 1) by bv_omega, BitVec.toInt_sub, hinc]
    exact Int.bmod_eq_of_le (by simp; omega) (by simp; omega)
  have hnn : 0 ≤ (q - m - 1).toInt := by omega
  rw [← BitVec.toInt_eq_toNat_of_lt (BitVec.toInt_pos_iff.mp hnn), hgap]
  exact ⟨hinc, rfl⟩

/-- **One data datagram**: the machine's update is the tally's. -/
theorem countSeq_accounts {s : StreamState} {t : Tally} (h : Accounts s t) {seq : BitVec 64}
    {q : Nat}
    (hseq : seq.toInt = q) (hq : q < 2 ^ 63 - 1) : Accounts (s.countSeq seq) (t.see q) := by
  have hnext := h.next_eq
  have hlt := h.next_lt
  unfold StreamState.countSeq Tally.see
  by_cases hlate : q < t.next
  · rw [if_pos hlate, if_pos (by omega)]
    exact { h with ooo_eq := by simp [h.ooo_eq] }
  · obtain ⟨hinc, hgap⟩ := gap_exact (m := s.maxSeq) (q := seq) (by omega) (by omega)
    rw [if_neg hlate, if_neg (by omega)]
    refine ⟨?_, ?_, h.ooo_eq, ?_, by simp only; omega⟩
    · simp only [hseq]
      push_cast
      rfl
    · have hsat : saturatingAdd64 s.receipt.lost (seq - s.maxSeq - 1).toNat =
          t.lost + (q - t.next) := by
        have := h.lost_le
        rw [saturatingAdd64, h.lost_eq]
        omega
      show (if (s.maxSeq + 1).toInt < seq.toInt then _ else _) = _
      split
      · exact hsat
      · -- no gap: the number is exactly the next expected one
        have : q - t.next = 0 := by omega
        simp only [this, h.lost_eq, Nat.add_zero]
    · have := h.lost_le
      simp only
      omega

/-! ## What one arrival contributes -/

/-- The sequence number of a data datagram; `none` for a short datagram or a sentinel. -/
def dataSeq (payload : Bytes) : Option Nat :=
  if payload.length < udpHeaderLen then none
  else
    match UdpHeader.decode (payload.take udpHeaderLen) with
    | .error _ => none
    | .ok hdr => if hdr.isSentinel then none else some hdr.seq.toInt.toNat

/-- The data sequence numbers among some arrivals, in order of arrival. -/
def dataSeqs (as : List Arrival) : List Nat := as.filterMap fun x => dataSeq x.datagram.payload

theorem dataSeqs_cons (x : Arrival) (as : List Arrival) :
    dataSeqs (x :: as) = (dataSeq x.datagram.payload).toList ++ dataSeqs as := by
  unfold dataSeqs
  rw [List.filterMap_cons]
  cases dataSeq x.datagram.payload with
  | none => rfl
  | some q => rfl

/-- Byte and jitter accounting leave the sequence counters alone. -/
theorem accounts_countJitter {s : StreamState} {t : Tally} (h : Accounts s t) (now : Nat)
    (hdr : UdpHeader) : Accounts (s.countJitter now hdr) t := by
  unfold StreamState.countJitter
  cases s.lastTransitMs with
  | none => exact ⟨h.next_eq, h.lost_eq, h.ooo_eq, h.lost_le, h.next_lt⟩
  | some prev => exact ⟨h.next_eq, h.lost_eq, h.ooo_eq, h.lost_le, h.next_lt⟩

theorem volume_countJitter (s : StreamState) (now : Nat) (hdr : UdpHeader) :
    (s.countJitter now hdr).receipt.bytes = s.receipt.bytes ∧
      (s.countJitter now hdr).receipt.packets = s.receipt.packets := by
  unfold StreamState.countJitter
  cases s.lastTransitMs with
  | none => exact ⟨rfl, rfl⟩
  | some prev => exact ⟨rfl, rfl⟩

theorem volume_countSeq (s : StreamState) (seq : BitVec 64) :
    (s.countSeq seq).receipt.bytes = s.receipt.bytes ∧
      (s.countSeq seq).receipt.packets = s.receipt.packets := by
  unfold StreamState.countSeq
  split
  · exact ⟨rfl, rfl⟩
  · exact ⟨rfl, rfl⟩

/-- The stream's counters hold the tally of the data numbers `qs`, and their count. -/
structure Counted (s : StreamState) (qs : List Nat) : Prop where
  accounts : Accounts s (tally qs)
  packets_eq : s.receipt.packets = qs.length

theorem counted_new : Counted StreamState.new [] := ⟨accounts_new, rfl⟩

/-- A data datagram is counted, with its number. -/
theorem countData_counted {s : StreamState} {qs : List Nat} (h : Counted s qs)
    (omitWindow now len : Nat) {hdr : UdpHeader} (hdata : hdr.isSentinel = false)
    (hq : hdr.seq.toInt.toNat < 2 ^ 63 - 1) :
    Counted (StreamState.countJitter now hdr
      (StreamState.countSeq hdr.seq (StreamState.countBytes omitWindow now len s)))
      (qs ++ [hdr.seq.toInt.toNat]) := by
  have hnn : hdr.seq.toInt = hdr.seq.toInt.toNat := by
    rw [UdpHeader.isSentinel_eq_false_iff] at hdata
    omega
  have hbytes : Accounts (s.countBytes omitWindow now len) (tally qs) :=
    ⟨h.accounts.next_eq, h.accounts.lost_eq, h.accounts.ooo_eq, h.accounts.lost_le,
      h.accounts.next_lt⟩
  constructor
  · rw [tally, List.foldl_append]
    exact accounts_countJitter (countSeq_accounts hbytes hnn hq) now hdr
  · rw [(volume_countJitter _ now hdr).2, (volume_countSeq _ _).2, List.length_append]
    show s.receipt.packets + 1 = _
    rw [h.packets_eq]
    rfl

/-- A datagram without data — short, undecodable or a sentinel — leaves the counters alone. -/
theorem receiveArrival_none (omitWindow : Nat) (s : StreamState) {x : Arrival}
    (h : dataSeq x.datagram.payload = none) :
    (receiveArrival omitWindow s x).receipt = s.receipt ∧
      (receiveArrival omitWindow s x).maxSeq = s.maxSeq := by
  unfold dataSeq at h
  unfold receiveArrival StreamState.receive
  split
  · exact ⟨rfl, rfl⟩
  rename_i hlen
  rw [if_neg hlen] at h
  cases hdec : UdpHeader.decode (x.datagram.payload.take udpHeaderLen) with
  | error e => exact ⟨rfl, rfl⟩
  | ok hdr =>
    rw [hdec] at h
    cases hsent : hdr.isSentinel with
    | true => simp only [hsent, if_true, and_self]
    | false => simp [hsent] at h

/-- A data datagram goes through the three accounts. -/
theorem receiveArrival_some (omitWindow : Nat) (s : StreamState) {x : Arrival} {q : Nat}
    (h : dataSeq x.datagram.payload = some q) :
    ∃ hdr, UdpHeader.decode (x.datagram.payload.take udpHeaderLen) = .ok hdr ∧
      hdr.isSentinel = false ∧ hdr.seq.toInt.toNat = q ∧
      receiveArrival omitWindow s x = StreamState.countJitter x.now hdr
        (StreamState.countSeq hdr.seq
          (StreamState.countBytes omitWindow x.now x.datagram.payload.length s)) := by
  unfold dataSeq at h
  unfold receiveArrival StreamState.receive
  split at h
  · cases h
  rename_i hlen
  cases hdec : UdpHeader.decode (x.datagram.payload.take udpHeaderLen) with
  | error e =>
    rw [hdec] at h
    cases h
  | ok hdr =>
    rw [hdec] at h
    cases hsent : hdr.isSentinel with
    | true => simp [hsent] at h
    | false =>
      simp only [hsent, Bool.false_eq_true, if_false, Option.some.injEq] at h
      exact ⟨hdr, rfl, hsent, h, by simp only [if_neg hlen, hsent, Bool.false_eq_true, if_false]⟩

/-- **One arrival** extends the counted numbers by what it carries. -/
theorem receiveArrival_counted {s : StreamState} {qs : List Nat} (h : Counted s qs)
    (omitWindow : Nat) (x : Arrival)
    (hq : ∀ q ∈ dataSeq x.datagram.payload, q < 2 ^ 63 - 1) :
    Counted (receiveArrival omitWindow s x) (qs ++ (dataSeq x.datagram.payload).toList) := by
  cases hdata : dataSeq x.datagram.payload with
  | none =>
    obtain ⟨hreceipt, hmax⟩ := receiveArrival_none omitWindow s hdata
    rw [Option.toList_none, List.append_nil]
    exact ⟨⟨by rw [hmax]; exact h.accounts.next_eq, by rw [hreceipt]; exact h.accounts.lost_eq,
      by rw [hreceipt]; exact h.accounts.ooo_eq, h.accounts.lost_le, h.accounts.next_lt⟩,
      by rw [hreceipt]; exact h.packets_eq⟩
  | some q =>
    obtain ⟨hdr, -, hsent, hseq, heq⟩ := receiveArrival_some omitWindow s hdata
    rw [heq, Option.toList_some, ← hseq]
    exact countData_counted h omitWindow x.now _ hsent (by rw [hseq]; exact hq q hdata)

/-- **All arrivals of a stream**, by induction on them. -/
theorem foldl_counted (omitWindow : Nat) (as : List Arrival) :
    ∀ {s : StreamState} {qs : List Nat}, Counted s qs → (∀ q ∈ dataSeqs as, q < 2 ^ 63 - 1) →
      Counted (as.foldl (receiveArrival omitWindow) s) (qs ++ dataSeqs as) := by
  induction as with
  | nil =>
    intro s qs h _
    rw [dataSeqs, List.filterMap_nil, List.append_nil]
    exact h
  | cons x as ih =>
    intro s qs h hq
    rw [dataSeqs_cons] at hq ⊢
    rw [← List.append_assoc]
    refine ih (receiveArrival_counted h omitWindow x fun q hx => ?_) fun q hx => ?_
    · exact hq q (List.mem_append_left _ (Option.mem_toList.mpr hx))
    · exact hq q (List.mem_append_right _ hx)

/-! ## Volume -/

/-- The data datagrams among some arrivals, in order of arrival. -/
def dataPayloads (as : List Arrival) : List Bytes :=
  (as.map fun x => x.datagram.payload).filter fun p => (dataSeq p).isSome

theorem dataSeqs_eq_filterMap (as : List Arrival) :
    dataSeqs as = (dataPayloads as).filterMap dataSeq := by
  rw [dataSeqs, dataPayloads, List.filterMap_filter, List.filterMap_map]
  apply List.filterMap_congr
  intro x _
  show _ = if (dataSeq x.datagram.payload).isSome then dataSeq x.datagram.payload else none
  cases dataSeq x.datagram.payload with
  | none => rfl
  | some q => rfl

/-- **Bytes and packets**, whatever the numbers are: those of the data datagrams. -/
theorem foldl_volume (omitWindow : Nat) : ∀ (as : List Arrival) (s : StreamState),
    (as.foldl (receiveArrival omitWindow) s).receipt.bytes =
        s.receipt.bytes + ((dataPayloads as).map List.length).sum ∧
      (as.foldl (receiveArrival omitWindow) s).receipt.packets =
        s.receipt.packets + (dataPayloads as).length
  | [], s => ⟨rfl, rfl⟩
  | x :: as, s => by
    obtain ⟨hbytes, hpackets⟩ := foldl_volume omitWindow as (receiveArrival omitWindow s x)
    rw [List.foldl_cons, hbytes, hpackets, dataPayloads, dataPayloads, List.map_cons]
    cases hdata : dataSeq x.datagram.payload with
    | none =>
      rw [List.filter_cons_of_neg (by simp [hdata]),
        (receiveArrival_none omitWindow s hdata).1]
      exact ⟨rfl, rfl⟩
    | some q =>
      obtain ⟨hdr, -, -, -, heq⟩ := receiveArrival_some omitWindow s hdata
      rw [List.filter_cons_of_pos (by simp [hdata]), heq, (volume_countJitter _ _ _).1,
        (volume_countJitter _ _ _).2, (volume_countSeq _ _).1, (volume_countSeq _ _).2]
      refine ⟨?_, ?_⟩
      · rw [List.map_cons, List.sum_cons, ← Nat.add_assoc]
        rfl
      · rw [List.length_cons, Nat.add_comm _ 1, ← Nat.add_assoc]
        rfl

/-! ## Whole runs of the receiver -/

/-- The state the loop has reached after some iterations; it stays where the loop was left. -/
def Receiver.reached (omitWindow : Nat) : List Tick → Receiver → Receiver
  | [], r => r
  | t :: ts, r =>
    match r.tick omitWindow t with
    | (r', true) => r'
    | (r', false) => Receiver.reached omitWindow ts r'

/-- The arrivals the loop reads before it is left. -/
def Receiver.consumed (omitWindow : Nat) : List Tick → Receiver → List Arrival
  | [], _ => []
  | t :: ts, r =>
    match r.tick omitWindow t with
    | (_, true) => []
    | (r', false) =>
      match t.outcome with
      | .datagram now d => ⟨now, d⟩ :: Receiver.consumed omitWindow ts r'
      | _ => Receiver.consumed omitWindow ts r'

/-- The arrivals read by `run_udp_receiver`. -/
def udpConsumed (streamOrder : List SocketAddr) (omitWindow : Nat) (ticks : List Tick) :
    List Arrival :=
  Receiver.consumed omitWindow ticks ⟨initialStates streamOrder, none⟩

theorem checkStop_states (t : Tick) (r : Receiver) : (r.checkStop t).1.states = r.states := by
  unfold Receiver.checkStop
  split
  · rfl
  · rfl

/-- One iteration reads at most the datagram of its outcome. -/
theorem tick_states (omitWindow : Nat) (t : Tick) (r : Receiver) :
    (r.tick omitWindow t).1.states =
      match (r.tick omitWindow t).2, t.outcome with
      | false, .datagram now d => receiveDatagram omitWindow now d r.states
      | _, _ => r.states := by
  have hstates := checkStop_states t r
  unfold Receiver.tick
  rcases hcheck : r.checkStop t with ⟨r', leave⟩
  rw [hcheck] at hstates
  cases leave with
  | true => exact hstates
  | false =>
    cases t.outcome with
    | datagram now d =>
      exact congrArg (receiveDatagram omitWindow now d) hstates
    | wouldBlock stop => cases stop <;> exact hstates
    | failed => exact hstates

/-- **The loop** has applied exactly the arrivals it has read. -/
theorem reached_states (omitWindow : Nat) (ts : List Tick) : ∀ r : Receiver,
    (Receiver.reached omitWindow ts r).states =
      receiveAll omitWindow (Receiver.consumed omitWindow ts r) r.states := by
  induction ts with
  | nil =>
    intro r
    rfl
  | cons t ts ih =>
    intro r
    have hstates := tick_states omitWindow t r
    rw [Receiver.reached, Receiver.consumed]
    cases htick : r.tick omitWindow t with
    | mk r₁ leave =>
      rw [htick] at hstates
      cases leave with
      | true => exact hstates
      | false =>
        have hrest := ih r₁
        cases hout : t.outcome with
        | datagram now d =>
          rw [hout] at hstates
          rw [hrest, hstates]
          rfl
        | wouldBlock stop =>
          rw [hout] at hstates
          rw [hrest, hstates]
        | failed =>
          rw [hout] at hstates
          rw [hrest, hstates]

/-- The loop returns what it has reached. -/
theorem loop_eq_reached (omitWindow : Nat) (ts : List Tick) : ∀ {r r' : Receiver},
    Receiver.loop omitWindow ts r = some r' → r' = Receiver.reached omitWindow ts r := by
  induction ts with
  | nil =>
    intro r r' h
    cases h
  | cons t ts ih =>
    intro r r' h
    rw [Receiver.loop] at h
    rw [Receiver.reached]
    cases htick : r.tick omitWindow t with
    | mk r₁ leave =>
      rw [htick] at h
      cases leave with
      | true => exact (Option.some.inj h).symm
      | false => exact ih h

/-- The state of a stream after some iterations of `run_udp_receiver`. -/
def udpStreamState (streamOrder : List SocketAddr) (omitWindow : Nat) (ticks : List Tick)
    (a : SocketAddr) : Option StreamState :=
  (Receiver.reached omitWindow ticks ⟨initialStates streamOrder, none⟩).states.lookup a

/-- At every moment it is the fold over the arrivals of its own address. -/
theorem udpStreamState_eq {order : List SocketAddr} {a : SocketAddr} (ha : a ∈ order)
    (omitWindow : Nat) (ticks : List Tick) :
    udpStreamState order omitWindow ticks a = some
      (((udpConsumed order omitWindow ticks).filter fun x => x.datagram.src = a).foldl
        (receiveArrival omitWindow) StreamState.new) := by
  rw [udpStreamState, reached_states, lookup_receiveAll, lookup_initialStates ha]
  rfl

/-- What a returned receipt is: the fold over the arrivals of its own address. -/
theorem runUdpReceiver_receipt {order : List SocketAddr} (hnd : order.Nodup) {omitWindow : Nat}
    {ticks : List Tick} {receipts : List StreamReceipt}
    (hrun : runUdpReceiver order omitWindow ticks = some receipts) :
    receipts = order.map fun a =>
      (((udpConsumed order omitWindow ticks).filter fun x => x.datagram.src = a).foldl
        (receiveArrival omitWindow) StreamState.new).receipt := by
  obtain ⟨r, hloop, hcollect⟩ := Option.map_eq_some_iff.mp hrun
  rw [← hcollect, collectReceipts_eq_map _ _ hnd]
  apply List.map_congr_left
  intro a ha
  have hstate := udpStreamState_eq ha omitWindow ticks
  rw [udpStreamState, ← loop_eq_reached omitWindow ticks hloop] at hstate
  rw [hstate]
  rfl

/-- The arrivals that concern one stream: from its address, and long enough for a header. -/
def ownArrivals (a : SocketAddr) (as : List Arrival) : List Arrival :=
  as.filter fun x => x.datagram.src = a ∧ udpHeaderLen ≤ x.datagram.payload.length

/-- Short datagrams do not count. -/
theorem foldl_own_arrivals (omitWindow : Nat) (a : SocketAddr) :
    ∀ (as : List Arrival) (s : StreamState),
      (as.filter fun x => x.datagram.src = a).foldl (receiveArrival omitWindow) s =
        (ownArrivals a as).foldl
          (fun s x => StreamState.receive omitWindow x.now x.datagram.payload s) s
  | [], s => rfl
  | x :: as, s => by
    have ih := foldl_own_arrivals omitWindow a as
    unfold ownArrivals at ih ⊢
    by_cases hsrc : x.datagram.src = a
    · rw [List.filter_cons_of_pos (by simpa using hsrc), List.foldl_cons, receiveArrival]
      by_cases hlen : x.datagram.payload.length < udpHeaderLen
      · rw [if_pos hlen, List.filter_cons_of_neg (by simp [hlen]), ih]
      · rw [if_neg hlen, List.filter_cons_of_pos (by simp [hsrc, Nat.not_lt.mp hlen]),
          List.foldl_cons, ih]
    · rw [List.filter_cons_of_neg (by simpa using hsrc),
        List.filter_cons_of_neg (by simp [hsrc]), ih]

/-- **Streams do not disturb each other.**  One receipt per registered address, in registration
    order, each the fold of the single-stream update over the stream's own arrivals; so two runs
    that agree on a stream's own arrivals agree on its receipt, whatever else they received and in
    whatever order. -/
theorem udpReceipts_independent {order : List SocketAddr} (hnd : order.Nodup) {omitWindow : Nat}
    {ticks : List Tick} {receipts : List StreamReceipt}
    (hrun : runUdpReceiver order omitWindow ticks = some receipts) :
    receipts.length = order.length ∧
    (∀ (i : Nat) (a : SocketAddr), order[i]? = some a → receipts[i]? = some
      ((ownArrivals a (udpConsumed order omitWindow ticks)).foldl
        (fun s x => StreamState.receive omitWindow x.now x.datagram.payload s)
        StreamState.new).receipt) ∧
    ∀ (order' : List SocketAddr) (ticks' : List Tick) (receipts' : List StreamReceipt)
      (i j : Nat) (a : SocketAddr), order'.Nodup →
      runUdpReceiver order' omitWindow ticks' = some receipts' →
      order[i]? = some a → order'[j]? = some a →
      ownArrivals a (udpConsumed order omitWindow ticks) =
        ownArrivals a (udpConsumed order' omitWindow ticks') →
      receipts[i]? = receipts'[j]? := by
  have hreceipt : ∀ {order : List SocketAddr}, order.Nodup → ∀ {ticks : List Tick}
      {receipts : List StreamReceipt}, runUdpReceiver order omitWindow ticks = some receipts →
      ∀ (i : Nat) (a : SocketAddr), order[i]? = some a → receipts[i]? = some
        ((ownArrivals a (udpConsumed order omitWindow ticks)).foldl
          (fun s x => StreamState.receive omitWindow x.now x.datagram.payload s)
          StreamState.new).receipt := by
    intro order hnd ticks receipts hrun i a ha
    rw [runUdpReceiver_receipt hnd hrun, List.getElem?_map, ha, Option.map_some,
      foldl_own_arrivals]
  refine ⟨?_, hreceipt hnd hrun, ?_⟩
  · rw [runUdpReceiver_receipt hnd hrun, List.length_map]
  · intro order' ticks' receipts' i j a hnd' hrun' hi hj hown
    rw [hreceipt hnd hrun i a hi, hreceipt hnd' hrun' j a hj, hown]

/-- The data sequence numbers that the receiver read from one address. -/
def streamSeqs (order : List SocketAddr) (omitWindow : Nat) (ticks : List Tick) (a : SocketAddr) :
    List Nat :=
  dataSeqs ((udpConsumed order omitWindow ticks).filter fun x => x.datagram.src = a)

/-- The receipt that stands beside an address is that address's own. -/
theorem receipt_eq_foldl {order : List SocketAddr} (hnd : order.Nodup) {omitWindow : Nat}
    {ticks : List Tick} {receipts : List StreamReceipt}
    (hrun : runUdpReceiver order omitWindow ticks = some receipts)
    {a : SocketAddr} {r : StreamReceipt} (har : (a, r) ∈ order.zip receipts) :
    r = (((udpConsumed order omitWindow ticks).filter fun x => x.datagram.src = a).foldl
      (receiveArrival omitWindow) StreamState.new).receipt := by
  rw [runUdpReceiver_receipt hnd hrun, List.zip_map_right, List.mem_map] at har
  obtain ⟨⟨b, c⟩, hbc, heq⟩ := har
  obtain ⟨rfl, -⟩ : b = c ∧ b ∈ order := by
    rw [List.zip_eq_zipWith, List.zipWith_self, List.mem_map] at hbc
    obtain ⟨d, hd, hdeq⟩ := hbc
    cases hdeq
    exact ⟨rfl, hd⟩
  cases heq
  rfl

/-- **Every receipt is the tally of its stream's own numbers.** -/
theorem receipt_accounts {order : List SocketAddr} (hnd : order.Nodup) {omitWindow : Nat}
    {ticks : List Tick} {receipts : List StreamReceipt}
    (hrun : runUdpReceiver order omitWindow ticks = some receipts)
    {a : SocketAddr} {r : StreamReceipt} (har : (a, r) ∈ order.zip receipts)
    (hq : ∀ q ∈ streamSeqs order omitWindow ticks a, q < 2 ^ 63 - 1) :
    r.lost = (tally (streamSeqs order omitWindow ticks a)).lost ∧
      r.ooo = (tally (streamSeqs order omitWindow ticks a)).late ∧
      r.packets = (streamSeqs order omitWindow ticks a).length := by
  have hcount := foldl_counted omitWindow
    ((udpConsumed order omitWindow ticks).filter fun x => x.datagram.src = a) counted_new hq
  rw [receipt_eq_foldl hnd hrun har]
  exact ⟨hcount.accounts.lost_eq, hcount.accounts.ooo_eq, hcount.packets_eq⟩

/-! ## Schedules -/

/-- A schedule that hands the arrivals to the loop with the stop flag down, idle rounds allowed,
    and then lets it see the raised flag on an empty socket. -/
inductive Delivers : List Arrival → List Tick → Prop
  | datagram {t : Tick} {x : Arrival} {as : List Arrival} {ts : List Tick} (hstop : t.stop = false)
      (hout : t.outcome = .datagram x.now x.datagram) (rest : Delivers as ts) :
      Delivers (x :: as) (t :: ts)
  | idle {t : Tick} {as : List Arrival} {ts : List Tick} (hstop : t.stop = false)
      (hout : t.outcome = .wouldBlock false) (rest : Delivers as ts) : Delivers as (t :: ts)
  | close {t : Tick} {ts : List Tick} (hout : t.outcome = .wouldBlock true) : Delivers [] (t :: ts)

/-- With the flag down an iteration goes straight to the socket. -/
theorem tick_of_not_stop {t : Tick} (hstop : t.stop = false) (omitWindow : Nat) (r : Receiver) :
    r.tick omitWindow t =
      match t.outcome with
      | .datagram now d => ({ r with states := receiveDatagram omitWindow now d r.states }, false)
      | .wouldBlock stop => (r, stop)
      | .failed => (r, true) := by
  unfold Receiver.tick Receiver.checkStop
  rw [hstop]
  rfl

/-- A raised flag on an empty socket ends the loop. -/
theorem tick_close {t : Tick} (hout : t.outcome = .wouldBlock true) (omitWindow : Nat)
    (r : Receiver) : (r.tick omitWindow t).2 = true := by
  unfold Receiver.tick
  rcases r.checkStop t with ⟨r', leave⟩
  rw [hout]
  cases leave with
  | true => rfl
  | false => rfl

/-- **Progress**: under such a schedule the loop returns, having read exactly the arrivals. -/
theorem delivers_loop {as : List Arrival} {ts : List Tick} (h : Delivers as ts) (omitWindow : Nat) :
    ∀ r : Receiver, (Receiver.loop omitWindow ts r).isSome = true ∧
      Receiver.consumed omitWindow ts r = as := by
  induction h with
  | datagram hstop hout rest ih =>
    intro r
    have htick := tick_of_not_stop hstop omitWindow r
    rw [hout] at htick
    rw [Receiver.loop, Receiver.consumed, htick, hout]
    exact ⟨(ih _).1, congrArg _ (ih _).2⟩
  | idle hstop hout rest ih =>
    intro r
    have htick := tick_of_not_stop hstop omitWindow r
    rw [hout] at htick
    rw [Receiver.loop, Receiver.consumed, htick, hout]
    exact ih r
  | close hout =>
    intro r
    have hleave := tick_close hout omitWindow r
    rw [Receiver.loop, Receiver.consumed]
    rcases htick : r.tick omitWindow _ with ⟨r', leave⟩
    rw [htick] at hleave
    cases hleave
    exact ⟨rfl, rfl⟩

/-- The same for the whole receiver: it returns one receipt per registered address. -/
theorem delivers_run {as : List Arrival} {ts : List Tick} (h : Delivers as ts)
    (order : List SocketAddr) (omitWindow : Nat) :
    (∃ receipts, runUdpReceiver order omitWindow ts = some receipts) ∧
      udpConsumed order omitWindow ts = as := by
  obtain ⟨hsome, hconsumed⟩ := delivers_loop h omitWindow ⟨initialStates order, none⟩
  obtain ⟨r, hr⟩ := Option.isSome_iff_exists.mp hsome
  exact ⟨⟨_, by rw [runUdpReceiver, hr]; rfl⟩, hconsumed⟩

/-- A schedule without idle rounds. -/
def feed (as : List Arrival) : List Tick :=
  as.map (fun x => ⟨false, 0, 0, .datagram x.now x.datagram⟩) ++ [⟨true, 0, 0, .wouldBlock true⟩]

theorem delivers_feed (as : List Arrival) : Delivers as (feed as) := by
  induction as with
  | nil => exact .close rfl
  | cons x as ih => exact .datagram rfl rfl ih

/-! ## Loss -/

/-- **`lost` against the missing datagrams.**  For distinct sequence numbers in range the reported
    loss is the number of missing ones exactly when the stream arrived in increasing order, and two
    runs over the same numbers report the same loss exactly when equally many were overtaken. -/
theorem receipt_lost_iff {order : List SocketAddr} (hnd : order.Nodup) {omitWindow : Nat}
    {ticks : List Tick} {receipts : List StreamReceipt}
    (hrun : runUdpReceiver order omitWindow ticks = some receipts)
    {a : SocketAddr} {r : StreamReceipt} (har : (a, r) ∈ order.zip receipts)
    (hdistinct : (streamSeqs order omitWindow ticks a).Nodup)
    (hrange : ∀ q ∈ streamSeqs order omitWindow ticks a, q ≤ 2 ^ 63 - 2) :
    (r.lost = missing (streamSeqs order omitWindow ticks a) ↔
      (streamSeqs order omitWindow ticks a).Pairwise (· < ·)) ∧
    ∀ (ticks' : List Tick) (receipts' : List StreamReceipt) (r' : StreamReceipt),
      runUdpReceiver order omitWindow ticks' = some receipts' →
      (a, r') ∈ order.zip receipts' →
      (streamSeqs order omitWindow ticks a).Perm (streamSeqs order omitWindow ticks' a) →
      (r.lost = r'.lost ↔
        overtaken (streamSeqs order omitWindow ticks a) =
          overtaken (streamSeqs order omitWindow ticks' a)) := by
  have hlost := (receipt_accounts hnd hrun har fun q hq => by have := hrange q hq; omega).1
  rw [lost_eq_missing_add_late hdistinct, tally_late] at hlost
  refine ⟨?_, ?_⟩
  · rw [← overtaken_eq_zero_iff]
    omega
  · intro ticks' receipts' r' hrun' har' hperm
    have hlost' := (receipt_accounts hnd hrun' har' fun q hq => by
      have := hrange q (hperm.mem_iff.mpr hq)
      omega).1
    rw [lost_eq_missing_add_late (hperm.nodup_iff.mp hdistinct), tally_late] at hlost'
    have hmiss := missing_perm hdistinct hperm
    omega

/-- A datagram that starts with an encoded header carries that header's number. -/
theorem dataSeq_bytes_append (h : UdpHeader) (rest : Bytes) :
    dataSeq (h.bytes ++ rest) = if h.isSentinel then none else some h.seq.toInt.toNat := by
  have hlen : ¬ (h.bytes ++ rest).length < udpHeaderLen := by
    rw [List.length_append, UdpHeader.length_bytes]
    omega
  have htake : (h.bytes ++ rest).take udpHeaderLen = h.bytes ++ [] := by
    rw [List.take_left' (UdpHeader.length_bytes h), List.append_nil]
  simp only [dataSeq, if_neg hlen, htake, UdpHeader.decode_bytes_append]

/-- A peer that sends header-only data datagrams. -/
def lonePeer : SocketAddr := ⟨2130706433, 40000⟩

def loneDatagram (seq : BitVec 64) : Arrival := ⟨0, lonePeer, (UdpHeader.mk 0 0 seq).bytes⟩

/-- A second peer, and what the two send: its datagram comes between those of the first, next to a
    short one of the first peer and one from an address that never registered. -/
def nearPeer : SocketAddr := ⟨2130706433, 40001⟩

def mixedArrivals : List Arrival :=
  [loneDatagram 0, ⟨0, nearPeer, (UdpHeader.mk 0 0 7).bytes⟩, ⟨0, lonePeer, [1, 2, 3]⟩,
    ⟨0, ⟨167772161, 9⟩, (UdpHeader.mk 0 0 5).bytes⟩, loneDatagram 1]

theorem udpReceipts_independent_mixed :
    ∃ receipts, runUdpReceiver [lonePeer, nearPeer] 0 (feed mixedArrivals) = some receipts ∧
      receipts.length = 2 ∧
      receipts[0]? = some (([loneDatagram 0, loneDatagram 1]).foldl
        (fun s x => StreamState.receive 0 x.now x.datagram.payload s) StreamState.new).receipt := by
  obtain ⟨⟨receipts, hrun⟩, hconsumed⟩ :=
    delivers_run (delivers_feed mixedArrivals) [lonePeer, nearPeer] 0
  obtain ⟨hlen, hfold, _⟩ := udpReceipts_independent (by decide) hrun
  refine ⟨receipts, hrun, hlen, ?_⟩
  rw [hfold 0 lonePeer rfl, hconsumed]
  rfl

/-- The receiver on datagrams of one peer alone. -/
theorem lonePeer_run (seqs : List (BitVec 64)) :
    ∃ r, runUdpReceiver [lonePeer] 0 (feed (seqs.map loneDatagram)) = some [r] ∧
      streamSeqs [lonePeer] 0 (feed (seqs.map loneDatagram)) lonePeer =
        dataSeqs (seqs.map loneDatagram) := by
  obtain ⟨⟨receipts, hrun⟩, hconsumed⟩ :=
    delivers_run (delivers_feed (seqs.map loneDatagram)) [lonePeer] 0
  refine ⟨_, hrun.trans (congrArg some (runUdpReceiver_receipt (List.nodup_singleton _) hrun)), ?_⟩
  rw [streamSeqs, hconsumed, List.filter_eq_self.mpr]
  intro x hx
  obtain ⟨seq, -, rfl⟩ := List.mem_map.mp hx
  exact decide_eq_true rfl

theorem dataSeqs_swapped : dataSeqs ([1, 0].map loneDatagram) = [1, 0] := by
  decide +kernel

theorem dataSeqs_in_order : dataSeqs ([0, 1].map loneDatagram) = [0, 1] := by
  decide +kernel

/-- Two datagrams swapped in flight: nothing is missing, one is reported lost — and none when the
    same two arrive in order. -/
theorem swapped_pair_reported_lost :
    missing [1, 0] = 0 ∧
    (∃ r, runUdpReceiver [lonePeer] 0 (feed ([1, 0].map loneDatagram)) = some [r] ∧
      streamSeqs [lonePeer] 0 (feed ([1, 0].map loneDatagram)) lonePeer = [1, 0] ∧ r.lost = 1) ∧
    (∃ r, runUdpReceiver [lonePeer] 0 (feed ([0, 1].map loneDatagram)) = some [r] ∧
      streamSeqs [lonePeer] 0 (feed ([0, 1].map loneDatagram)) lonePeer = [0, 1] ∧ r.lost = 0) := by
  refine ⟨by decide, ?_, ?_⟩
  · obtain ⟨r, hrun, hseqs⟩ := lonePeer_run [1, 0]
    rw [dataSeqs_swapped] at hseqs
    have hlost := (receipt_accounts (List.nodup_singleton _) hrun List.mem_cons_self
      (by rw [hseqs]; decide)).1
    rw [hseqs] at hlost
    exact ⟨r, hrun, hseqs, hlost.trans (by decide)⟩
  · obtain ⟨r, hrun, hseqs⟩ := lonePeer_run [0, 1]
    rw [dataSeqs_in_order] at hseqs
    have hlost := (receipt_accounts (List.nodup_singleton _) hrun List.mem_cons_self
      (by rw [hseqs]; decide)).1
    rw [hseqs] at hlost
    exact ⟨r, hrun, hseqs, hlost.trans (by decide)⟩

theorem receipt_lost_iff_swapped :
    ∃ r, runUdpReceiver [lonePeer] 0 (feed ([1, 0].map loneDatagram)) = some [r] ∧
      (r.lost = missing [1, 0] ↔ [1, 0].Pairwise (· < ·)) := by
  obtain ⟨r, hrun, hseqs⟩ := lonePeer_run [1, 0]
  rw [dataSeqs_swapped] at hseqs
  have h := (receipt_lost_iff (List.nodup_singleton _) hrun List.mem_cons_self
    (by rw [hseqs]; decide) (by rw [hseqs]; decide)).1
  rw [hseqs] at h
  exact ⟨r, hrun, h⟩

end Rperf3
