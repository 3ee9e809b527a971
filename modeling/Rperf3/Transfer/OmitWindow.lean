/-
  WHAT A RECEIPT SAYS: the omit window of one stream, and the durations over several.

  1. `OmitAccount` — a receipt's five fields in terms of the transfers it counts.  Every data loop
     ends with such a receipt, because its transfers are recorded one by one (`Recorded`) and a
     tally has a closed form; so does every stream of `run_udp_receiver`, whose transfers are the
     data datagrams read from its address.
  2. Over any list of such receipts the aggregate durations, which take minima and maxima of
     optional fields over different streams, are ordered as one would expect: each span lies inside
     the next (`spanBetween_le`).
-/
import Rperf3.Client.Program
import Rperf3.Common.UdpAccounting
import Rperf3.Server.Session
import Rperf3.Transfer.Loops

namespace Rperf3

open WindowTally

/-! ## One receipt -/

/-- The transfers `l`, in the order of time, accounted with an omit window of `d`. -/
structure OmitAccount (d : Nat) (l : List Transfer) (a : Tally Nat) : Prop where
  order : InOrder l
  pos : ∀ x ∈ l, 1 ≤ x.amount
  bytes : a.total = sum l
  bytesOmit : a.early = sum (l.filter fun x => l.head?.any fun x₁ => x.time - x₁.time < d)
  first : a.first = l.head?.map Timed.time
  last : a.last = l.getLast?.map Timed.time
  firstMeasured : a.firstLate =
    (l.find? fun x => l.head?.all fun x₁ => d ≤ x.time - x₁.time).map Timed.time

/-- Not early is late. -/
theorem isEarly_inOmit (d : Nat) (l : List Transfer) (x : Transfer) (hl : l ≠ []) :
    (!isEarly (inOmit d) l x) = l.head?.all fun x₁ => d ≤ x.time - x₁.time := by
  cases l with
  | nil => exact absurd rfl hl
  | cons x₁ l =>
    show (!decide (x.time - x₁.time < d)) = decide (d ≤ x.time - x₁.time)
    rw [← decide_not, decide_eq_decide]
    exact Nat.not_lt

/-- **A tally in the order of time is an account.** -/
theorem omitAccount_tally {d : Nat} {l : List Transfer} (horder : InOrder l)
    (hpos : ∀ x ∈ l, 0 < x.amount) : OmitAccount d l (tally (inOmit d) l) := by
  rw [tally_eq]
  refine ⟨horder, hpos, rfl, rfl, rfl, rfl, ?_⟩
  cases hl : l with
  | nil => rfl
  | cons x₁ l' =>
    rw [← hl]
    have hlate : (fun x => !isEarly (inOmit d) l x) =
        fun x => l.head?.all fun x₁ => d ≤ x.time - x₁.time := by
      funext x
      exact isEarly_inOmit d l x (by rw [hl]; exact List.cons_ne_nil _ _)
    exact congrArg (fun p => (l.find? p).map Timed.time) hlate

/-- An account is the tally of its transfers. -/
theorem OmitAccount.eq_tally {d : Nat} {l : List Transfer} {a : Tally Nat} (h : OmitAccount d l a) :
    a = tally (inOmit d) l := by
  have htally : OmitAccount d l (tally (inOmit d) l) := omitAccount_tally h.order h.pos
  exact Tally.ext (h.bytes.trans htally.bytes.symm) (h.bytesOmit.trans htally.bytesOmit.symm)
    (h.first.trans htally.first.symm) (h.firstMeasured.trans htally.firstMeasured.symm)
    (h.last.trans htally.last.symm)

/-! ## The data loops -/

/-- Every run of the loop that ends, ends with the account of its transfers. -/
def DataLoop.KeepsAccount {R : Type} (L : DataLoop R) : Prop :=
  ∀ (timer setup : Nat) (turns : List Turn) (s : LoopState R),
    L.run timer setup turns = some (.left s) → OmitAccount L.omitWindow s.log (L.tally s.receipt)

theorem DataLoop.keepsAccount {R : Type} (L : DataLoop R) : L.KeepsAccount := by
  intro timer setup turns s hrun
  have hrecorded := (final_of_run hrun).recorded
  rw [hrecorded.tally]
  exact omitAccount_tally hrecorded.order hrecorded.pos

/-! ## The streams of `run_udp_receiver` -/

/-- The data datagrams among some arrivals, as transfers. -/
def dataTransfers (as : List Arrival) : List Transfer :=
  (as.filter fun x => (dataSeq x.datagram.payload).isSome).map fun x =>
    ⟨x.datagram.payload.length, x.now⟩

theorem tally_countJitter (s : StreamState) (now : Nat) (hdr : UdpHeader) :
    (s.countJitter now hdr).receipt.tally = s.receipt.tally := by
  unfold StreamState.countJitter
  cases s.lastTransitMs with
  | none => rfl
  | some prev => rfl

theorem tally_countSeq (s : StreamState) (seq : BitVec 64) :
    (s.countSeq seq).receipt.tally = s.receipt.tally := by
  unfold StreamState.countSeq
  split
  · rfl
  · rfl

/-- **The byte account of a stream** is a tally, arrival by arrival. -/
theorem foldl_tally (omitWindow : Nat) : ∀ (as : List Arrival) (s : StreamState),
    (as.foldl (receiveArrival omitWindow) s).receipt.tally =
      (dataTransfers as).foldl (fun a x => a.add (inOmit omitWindow) x.amount x.time)
        s.receipt.tally
  | [], s => rfl
  | x :: as, s => by
    rw [List.foldl_cons, foldl_tally omitWindow as, dataTransfers, dataTransfers]
    cases hdata : dataSeq x.datagram.payload with
    | none =>
      rw [List.filter_cons_of_neg (by simp [hdata]), (receiveArrival_none omitWindow s hdata).1]
    | some q =>
      obtain ⟨hdr, -, -, -, heq⟩ := receiveArrival_some omitWindow s hdata
      rw [List.filter_cons_of_pos (by simp [hdata]), heq, tally_countJitter, tally_countSeq]
      rfl

/-- A data datagram holds its header. -/
theorem length_pos_of_dataSeq {payload : Bytes} (h : (dataSeq payload).isSome = true) :
    0 < payload.length := by
  unfold dataSeq at h
  split at h
  · cases h
  · unfold udpHeaderLen at *
    omega

/-- **A stream's receipt is the account of the data datagrams from its address.** -/
theorem omitAccount_udp {order : List SocketAddr} (hnd : order.Nodup) {omitWindow : Nat}
    {ticks : List Tick} {receipts : List StreamReceipt}
    (hrun : runUdpReceiver order omitWindow ticks = some receipts)
    (hclock : (udpConsumed order omitWindow ticks).Pairwise fun x y => x.now ≤ y.now)
    {a : SocketAddr} {r : StreamReceipt} (har : (a, r) ∈ order.zip receipts) :
    OmitAccount omitWindow
      (dataTransfers ((udpConsumed order omitWindow ticks).filter fun x => x.datagram.src = a))
      r.tally := by
  rw [receipt_eq_foldl hnd hrun har, foldl_tally]
  refine omitAccount_tally ?_ ?_
  · exact List.Pairwise.map _ (fun _ _ h => h) ((hclock.filter _).filter _)
  · intro x hx
    obtain ⟨y, hy, rfl⟩ := List.mem_map.mp hx
    exact length_pos_of_dataSeq (List.mem_filter.mp hy).2

/-! ## Spans -/

/-- The time between two instants that may be missing or out of order. -/
def spanBetween : Option Nat → Option Nat → Nat
  | some f, some l => if f ≤ l then l - f else 0
  | _, _ => 0

/-- **Spans grow** when they begin earlier and end later. -/
theorem spanBetween_le {f l f' l' : Option Nat} (hf : ∀ x ∈ f, ∃ y ∈ f', y ≤ x)
    (hl : ∀ x ∈ l, ∃ y ∈ l', x ≤ y) : spanBetween f l ≤ spanBetween f' l' := by
  cases f with
  | none => exact Nat.zero_le _
  | some x =>
    cases l with
    | none => exact Nat.zero_le _
    | some z =>
      obtain ⟨y, hy, hyx⟩ := hf x rfl
      obtain ⟨w, hw, hzw⟩ := hl z rfl
      rw [Option.mem_def.mp hy, Option.mem_def.mp hw]
      show (if x ≤ z then z - x else 0) ≤ if y ≤ w then w - y else 0
      by_cases hxz : x ≤ z
      · rw [if_pos hxz, if_pos (by omega)]
        omega
      · rw [if_neg hxz]
        exact Nat.zero_le _

/-- `StreamReceipt::elapsed`. -/
def StreamReceipt.elapsed (r : StreamReceipt) : Nat := spanBetween r.firstByteAt r.lastByteAt

/-- `StreamReceipt::measured_elapsed`. -/
def StreamReceipt.measuredElapsed (r : StreamReceipt) : Nat :=
  spanBetween r.firstMeasuredAt r.lastByteAt

/-- `ClientStreamReceipt::elapsed`. -/
def ClientStreamReceipt.elapsed (r : ClientStreamReceipt) : Nat :=
  spanBetween r.firstSendAt r.lastSendAt

/-- `ClientStreamReceipt::measured_elapsed`. -/
def ClientStreamReceipt.measuredElapsed (r : ClientStreamReceipt) : Nat :=
  spanBetween r.firstMeasuredAt r.lastSendAt

/-- `ClientStreamReceipt::bytes_measured`. -/
def ClientStreamReceipt.bytesMeasured (r : ClientStreamReceipt) : Nat := r.bytesSent - r.bytesOmit

section Aggregates

variable {ρ : Type} {t : ρ → Tally Nat} {rs : List ρ} {r : ρ}

/-- The earliest of some optional instants. -/
def earliest (f : ρ → Option Nat) (rs : List ρ) : Option Nat := (rs.filterMap f).min?

/-- The latest of some optional instants. -/
def latest (f : ρ → Option Nat) (rs : List ρ) : Option Nat := (rs.filterMap f).max?

theorem exists_earliest_le {f : ρ → Option Nat} (hr : r ∈ rs) {x : Nat} (hx : f r = some x) :
    ∃ y ∈ earliest f rs, y ≤ x := by
  have hmem : x ∈ rs.filterMap f := List.mem_filterMap.mpr ⟨r, hr, hx⟩
  obtain ⟨y, hy⟩ := Option.isSome_iff_exists.mp (List.isSome_min?_of_mem hmem)
  exact ⟨y, hy, (List.min?_eq_some_iff.mp hy).2 x hmem⟩

theorem exists_le_latest {f : ρ → Option Nat} (hr : r ∈ rs) {x : Nat} (hx : f r = some x) :
    ∃ y ∈ latest f rs, x ≤ y := by
  have hmem : x ∈ rs.filterMap f := List.mem_filterMap.mpr ⟨r, hr, hx⟩
  obtain ⟨y, hy⟩ := Option.isSome_iff_exists.mp (List.isSome_max?_of_mem hmem)
  exact ⟨y, hy, (List.max?_eq_some_iff.mp hy).2 x hmem⟩

/-- One receipt's span lies inside the span over all. -/
theorem span_le_aggregate (hr : r ∈ rs) (f l : ρ → Option Nat) :
    spanBetween (f r) (l r) ≤ spanBetween (earliest f rs) (latest l rs) :=
  spanBetween_le (fun _ hx => exists_earliest_le hr hx) fun _ hx => exists_le_latest hr hx

/-- The first measured instant of an account comes at or after its first one. -/
theorem OmitAccount.first_le {d : Nat} {l : List Transfer} {a : Tally Nat} (h : OmitAccount d l a)
    {g : Nat} (hg : a.firstLate = some g) : ∃ f, a.first = some f ∧ f ≤ g := by
  rw [h.eq_tally] at hg ⊢
  obtain ⟨x, hx, -, -⟩ := exists_firstLate hg
  cases hfirst : (tally (inOmit d) l).first with
  | none =>
    rw [first_eq_none_iff] at hfirst
    rw [hfirst] at hx
    cases hx
  | some f => exact ⟨f, rfl, first_le_firstLate h.order hfirst hg⟩

/-- The steady state lies inside the whole, over any accounts. -/
theorem steady_le_aggregate (h : ∀ r ∈ rs, ∃ d l, OmitAccount d l (t r)) (l : ρ → Option Nat) :
    spanBetween (earliest (fun r => (t r).firstLate) rs) (latest l rs) ≤
      spanBetween (earliest (fun r => (t r).first) rs) (latest l rs) := by
  refine spanBetween_le ?_ fun x hx => ⟨x, hx, Nat.le_refl x⟩
  intro x hx
  obtain ⟨r, hr, hlate⟩ := List.mem_filterMap.mp (List.min?_mem hx)
  obtain ⟨d, l', haccount⟩ := h r hr
  obtain ⟨f, hf, hfx⟩ := haccount.first_le hlate
  obtain ⟨y, hy, hyf⟩ := exists_earliest_le (f := fun r => (t r).first) hr hf
  exact ⟨y, hy, Nat.le_trans hyf hfx⟩

end Aggregates

theorem clientSessionDuration_eq (rs : List ClientStreamReceipt) :
    (clientSessionDuration rs).getD 0 = spanBetween (earliest ClientStreamReceipt.firstSendAt rs)
      (latest ClientStreamReceipt.lastSendAt rs) := by
  unfold clientSessionDuration earliest latest
  generalize (rs.filterMap ClientStreamReceipt.firstSendAt).min? = first
  generalize (rs.filterMap ClientStreamReceipt.lastSendAt).max? = last
  cases first with
  | none => rfl
  | some f =>
    cases last with
    | none => rfl
    | some l =>
      show (if f ≤ l then some (l - f) else none).getD 0 = if f ≤ l then l - f else 0
      by_cases h : f ≤ l
      · rw [if_pos h, if_pos h]
        rfl
      · rw [if_neg h, if_neg h]
        rfl

theorem bytesOmit_le {d : Nat} {l : List Transfer} {a : Tally Nat} (h : OmitAccount d l a) :
    a.early ≤ a.total := by
  rw [h.eq_tally]
  exact early_le_total l

/-- **Omit windows and durations.**  Every data loop and every stream of the UDP receiver ends with
    the account of its transfers; the measured bytes are the rest of all bytes, exactly; and over
    any list of accounts the durations are nested. -/
theorem omit_windows_account :
    (∀ cfg streamId, (startLoop cfg streamId).KeepsAccount) ∧
    (∀ cfg streamId, (startUdpLoop cfg streamId).KeepsAccount) ∧
    (∀ cfg streamId, (startRecvLoop cfg streamId).KeepsAccount) ∧
    (∀ cfg streamId, (startUdpRecvLoop cfg streamId).KeepsAccount) ∧
    (∀ omitWindow reporter, (recvStreamBytesLoop omitWindow reporter).KeepsAccount) ∧
    (∀ opts streamId, (runTcpSendStreamsLoop opts streamId).KeepsAccount) ∧
    (∀ opts streamId, (runUdpSendStreamsLoop opts streamId).KeepsAccount) ∧
    (∀ (order : List SocketAddr) (omitWindow : Nat) (ticks : List Tick)
      (receipts : List StreamReceipt), order.Nodup →
      runUdpReceiver order omitWindow ticks = some receipts →
      ((udpConsumed order omitWindow ticks).Pairwise fun x y => x.now ≤ y.now) →
      ∀ a r, (a, r) ∈ order.zip receipts →
        OmitAccount omitWindow
          (dataTransfers ((udpConsumed order omitWindow ticks).filter fun x => x.datagram.src = a))
          r.tally) ∧
    (∀ (d : Nat) (l : List Transfer) (r : StreamReceipt), OmitAccount d l r.tally →
      r.bytesMeasured + r.bytesOmit = r.bytes) ∧
    (∀ (d : Nat) (l : List Transfer) (r : ClientStreamReceipt), OmitAccount d l r.tally →
      r.bytesMeasured + r.bytesOmit = r.bytesSent) ∧
    (∀ rs : List StreamReceipt, (∀ r ∈ rs, ∃ d l, OmitAccount d l r.tally) →
      measuredSteadyState rs ≤ measuredDuration rs ∧
      ∀ r ∈ rs, r.elapsed ≤ measuredDuration rs ∧ r.measuredElapsed ≤ measuredSteadyState rs) ∧
    ∀ rs : List ClientStreamReceipt, (∀ r ∈ rs, ∃ d l, OmitAccount d l r.tally) →
      clientMeasuredDuration rs ≤ (clientSessionDuration rs).getD 0 ∧
      ∀ r ∈ rs, r.elapsed ≤ (clientSessionDuration rs).getD 0 ∧
        r.measuredElapsed ≤ clientMeasuredDuration rs := by
  refine ⟨fun _ _ => DataLoop.keepsAccount _, fun _ _ => DataLoop.keepsAccount _,
    fun _ _ => DataLoop.keepsAccount _, fun _ _ => DataLoop.keepsAccount _,
    fun _ _ => DataLoop.keepsAccount _, fun _ _ => DataLoop.keepsAccount _,
    fun _ _ => DataLoop.keepsAccount _, ?_, ?_, ?_, ?_, ?_⟩
  · intro order omitWindow ticks receipts hnd hrun hclock a r har
    exact omitAccount_udp hnd hrun hclock har
  · intro d l r h
    exact Nat.sub_add_cancel (bytesOmit_le h)
  · intro d l r h
    exact Nat.sub_add_cancel (bytesOmit_le h)
  · intro rs h
    exact ⟨steady_le_aggregate h StreamReceipt.lastByteAt, fun r hr =>
      ⟨span_le_aggregate hr StreamReceipt.firstByteAt StreamReceipt.lastByteAt,
        span_le_aggregate hr StreamReceipt.firstMeasuredAt StreamReceipt.lastByteAt⟩⟩
  · intro rs h
    rw [clientSessionDuration_eq]
    exact ⟨steady_le_aggregate h ClientStreamReceipt.lastSendAt, fun r hr =>
      ⟨span_le_aggregate hr ClientStreamReceipt.firstSendAt ClientStreamReceipt.lastSendAt,
        span_le_aggregate hr ClientStreamReceipt.firstMeasuredAt ClientStreamReceipt.lastSendAt⟩⟩

/-- Three datagrams from one address, the last of them after an omit window of five. -/
def omitArrivals : List Arrival :=
  [⟨10, lonePeer, (UdpHeader.mk 0 0 0).bytes⟩, ⟨12, lonePeer, (UdpHeader.mk 0 0 1).bytes⟩,
    ⟨17, lonePeer, (UdpHeader.mk 0 0 2).bytes⟩]

theorem dataTransfers_omitArrivals :
    dataTransfers (omitArrivals.filter fun x => x.datagram.src = lonePeer) =
      [⟨16, 10⟩, ⟨16, 12⟩, ⟨16, 17⟩] := by
  decide +kernel

theorem omit_windows_account_threeDatagrams :
    ∃ r, runUdpReceiver [lonePeer] 5 (feed omitArrivals) = some [r] ∧ r.bytes = 48 ∧
      r.bytesOmit = 32 ∧ r.bytesMeasured = 16 ∧ r.firstByteAt = some 10 ∧
      r.firstMeasuredAt = some 17 ∧ r.lastByteAt = some 17 ∧
      measuredSteadyState [r] ≤ measuredDuration [r] := by
  obtain ⟨⟨receipts, hrun⟩, hconsumed⟩ := delivers_run (delivers_feed omitArrivals) [lonePeer] 5
  obtain ⟨r, rfl⟩ : ∃ r, receipts = [r] :=
    ⟨_, runUdpReceiver_receipt (List.nodup_singleton _) hrun⟩
  obtain ⟨-, -, -, -, -, -, -, hudp, hmeasured, -, hnested, -⟩ := omit_windows_account
  have haccount := hudp [lonePeer] 5 _ [r] (List.nodup_singleton _) hrun
    (by rw [hconsumed]; decide) lonePeer r List.mem_cons_self
  have hspans := hnested [r] fun r' hr => by
    rw [List.mem_singleton.mp hr]
    exact ⟨_, _, haccount⟩
  have hsum := hmeasured 5 _ r haccount
  rw [hconsumed, dataTransfers_omitArrivals] at haccount
  have hbytes : r.bytes = 48 := haccount.bytes
  have homit : r.bytesOmit = 32 := haccount.bytesOmit
  exact ⟨r, hrun, hbytes, homit, by omega, haccount.first, haccount.firstMeasured, haccount.last,
    hspans.1⟩

end Rperf3
