/-
  A UDP stream over a link that only LOSES datagrams: sender and receiver composed.

  The sender thread numbers its data datagrams `0 .. k-1` (`udpSendLoop_eq`), the receiver tallies
  the numbers it reads (`receipt_accounts`).  When what arrives is an in-order selection of what was
  sent, the tally sees an increasing sequence below `k`, so nothing is counted as reordered and the
  loss is everything missing below the largest number that did arrive.  Loss at the END of the
  stream stays invisible: received and lost add up to `k` exactly when the last datagram arrived.
-/
import Rperf3.Server.UdpLossless

namespace Rperf3

open GapTally

/-! ## The sender's packets -/

/-- `encode` into the packet buffer, fresh or left over from the previous datagram. -/
theorem encode_packet (len : Nat) (hdr : UdpHeader) (front : Bytes)
    (hfront : front.length = udpHeaderLen) :
    hdr.encode (front ++ buildPayload (len - udpHeaderLen)) = (.ok (), dataPacket len hdr) := by
  have hroom : udpHeaderLen ≤ (front ++ buildPayload (len - udpHeaderLen)).length := by
    rw [List.length_append, hfront]
    omega
  rw [UdpHeader.encode_of_le hdr hroom, List.drop_left' hfront, dataPacket]

theorem buildPayload_split {len : Nat} (hlen : udpHeaderLen ≤ len) :
    buildPayload len = buildPayload udpHeaderLen ++ buildPayload (len - udpHeaderLen) := by
  rw [buildPayload, buildPayload, buildPayload, List.replicate_append_replicate,
    Nat.add_sub_cancel' hlen]

theorem length_dataPackets (len : Nat) : ∀ (seq : Nat) (stamps : List (BitVec 32 × BitVec 32)),
    (dataPackets len seq stamps).length = stamps.length
  | _, [] => rfl
  | seq, _ :: stamps => congrArg (· + 1) (length_dataPackets len (seq + 1) stamps)

/-- The `j`-th data datagram has number `seq + j`. -/
theorem getElem?_dataPackets (len : Nat) :
    ∀ (seq : Nat) (stamps : List (BitVec 32 × BitVec 32)) (j : Nat) (d : Bytes),
      (dataPackets len seq stamps)[j]? = some d →
      ∃ s u, d = dataPacket len ⟨s, u, BitVec.ofNat 64 (seq + j)⟩
  | _, [], _, _, h => by cases h
  | seq, (s, u) :: _, 0, _, h => by
    cases h
    exact ⟨s, u, rfl⟩
  | seq, _ :: stamps, j + 1, d, h => by
    obtain ⟨s, u, hd⟩ := getElem?_dataPackets len (seq + 1) stamps j d h
    exact ⟨s, u, by rw [hd, show seq + 1 + j = seq + (j + 1) by omega]⟩

section Emission

variable {len : Nat} {stamps : List (BitVec 32 × BitVec 32)}

/-- The header of the `j`-th datagram: `encode` wrote it, `decode` reads it back, and it carries the
    number `j`. -/
theorem header_dataPackets (hlen : udpHeaderLen ≤ len) (hk : stamps.length < 2 ^ 63) {j : Nat}
    {d : Bytes} (hj : (dataPackets len 0 stamps)[j]? = some d) : ∃ hdr : UdpHeader,
      hdr.encode (buildPayload len) = (.ok (), d) ∧
      UdpHeader.decode (d.take udpHeaderLen) = .ok hdr ∧ hdr.isSentinel = false ∧
      hdr.seq.toInt = j := by
  have hlt : j < stamps.length :=
    length_dataPackets len 0 stamps ▸ (List.getElem?_eq_some_iff.mp hj).1
  obtain ⟨s, u, rfl⟩ := getElem?_dataPackets len 0 stamps j d hj
  rw [Nat.zero_add]
  have hint : (BitVec.ofNat 64 j).toInt = j := by
    rw [BitVec.toInt_eq_toNat_of_lt] <;> rw [BitVec.toNat_ofNat] <;> omega
  refine ⟨⟨s, u, BitVec.ofNat 64 j⟩, ?_, ?_, ?_, hint⟩
  · rw [buildPayload_split hlen]
    exact encode_packet len _ _ List.length_replicate
  · rw [dataPacket, List.take_left' (UdpHeader.length_bytes _)]
    have := UdpHeader.decode_bytes_append ⟨s, u, BitVec.ofNat 64 j⟩ []
    rwa [List.append_nil] at this
  · rw [UdpHeader.isSentinel_eq_false_iff, hint]
    omega

theorem length_of_mem_dataPackets (hlen : udpHeaderLen ≤ len) {d : Bytes}
    (hd : d ∈ dataPackets len 0 stamps) : d.length = len := by
  obtain ⟨j, hj⟩ := List.mem_iff_getElem?.mp hd
  obtain ⟨s, u, rfl⟩ := getElem?_dataPackets len 0 stamps j d hj
  exact length_dataPacket hlen _

theorem isSome_dataSeq_of_mem (hk : stamps.length < 2 ^ 63) {d : Bytes}
    (hd : d ∈ dataPackets len 0 stamps) : (dataSeq d).isSome = true := by
  obtain ⟨j, hj⟩ := List.mem_iff_getElem?.mp hd
  have hlt : j < stamps.length :=
    length_dataPackets len 0 stamps ▸ (List.getElem?_eq_some_iff.mp hj).1
  obtain ⟨s, u, rfl⟩ := getElem?_dataPackets len 0 stamps j d hj
  rw [dataSeq_dataPacket len s u (by omega)]
  rfl

end Emission

/-! ## An in-order selection -/

section Selection

variable {len : Nat} {stamps : List (BitVec 32 × BitVec 32)} {delivered : List Bytes}

/-- The numbers of a selection increase and stay below the number of datagrams sent. -/
theorem selection_seqs (hk : stamps.length < 2 ^ 63)
    (hsub : delivered.Sublist (dataPackets len 0 stamps)) :
    (delivered.filterMap dataSeq).Pairwise (· < ·) ∧
      ∀ q ∈ delivered.filterMap dataSeq, q < stamps.length := by
  have hseqs : (delivered.filterMap dataSeq).Sublist (List.range' 0 stamps.length) := by
    rw [← filterMap_dataPackets len stamps 0 (by omega)]
    exact hsub.filterMap dataSeq
  refine ⟨(List.pairwise_lt_range' 1).sublist hseqs, fun q hq => ?_⟩
  have := List.mem_range'_1.mp (hseqs.subset hq)
  omega

/-- Every datagram of a selection has a number. -/
theorem selection_length (hk : stamps.length < 2 ^ 63)
    (hsub : delivered.Sublist (dataPackets len 0 stamps)) :
    (delivered.filterMap dataSeq).length = delivered.length :=
  List.filterMap_length_eq_length.mpr fun _ hd => isSome_dataSeq_of_mem hk (hsub.subset hd)

/-- All datagrams of a selection have the same size. -/
theorem selection_bytes (hlen : udpHeaderLen ≤ len)
    (hsub : delivered.Sublist (dataPackets len 0 stamps)) :
    (delivered.map List.length).sum = len * delivered.length := by
  have hlens : delivered.map List.length = List.replicate delivered.length len := by
    refine List.eq_replicate_iff.mpr ⟨List.length_map _, fun n hn => ?_⟩
    obtain ⟨d, hd, rfl⟩ := List.mem_map.mp hn
    exact length_of_mem_dataPackets hlen (hsub.subset hd)
  rw [hlens, List.sum_replicate_nat, Nat.mul_comm]

theorem selection_bound (hk : stamps.length < 2 ^ 63)
    (hsub : delivered.Sublist (dataPackets len 0 stamps)) :
    bound (delivered.filterMap dataSeq) ≤ stamps.length := by
  by_cases hnil : delivered.filterMap dataSeq = []
  · rw [hnil]
    exact Nat.zero_le _
  · obtain ⟨q, hq, hqb⟩ := exists_mem_bound hnil
    have := (selection_seqs hk hsub).2 q hq
    omega

/-- The largest number is the sender's last one exactly when the last datagram was selected. -/
theorem selection_complete_iff (hk : stamps.length < 2 ^ 63)
    (hsub : delivered.Sublist (dataPackets len 0 stamps)) :
    bound (delivered.filterMap dataSeq) = stamps.length ↔
      dataPackets len 0 stamps = [] ∨
        ∃ d, (dataPackets len 0 stamps).getLast? = some d ∧ d ∈ delivered := by
  have hcount := length_dataPackets len 0 stamps
  have hle := selection_bound hk hsub
  constructor
  · intro hbound
    by_cases hnil : delivered.filterMap dataSeq = []
    · left
      rw [hnil] at hbound
      exact List.eq_nil_of_length_eq_zero (hcount.trans hbound.symm)
    · -- the member that reaches the bound is the last datagram
      obtain ⟨q, hq, hqb⟩ := exists_mem_bound hnil
      obtain ⟨d, hd, hdq⟩ := List.mem_filterMap.mp hq
      obtain ⟨j, hj⟩ := List.mem_iff_getElem?.mp (hsub.subset hd)
      have hjlt : j < stamps.length := hcount ▸ (List.getElem?_eq_some_iff.mp hj).1
      have hjq : j = q := by
        obtain ⟨s, u, rfl⟩ := getElem?_dataPackets len 0 stamps j d hj
        rw [dataSeq_dataPacket len s u (by omega), Option.some.injEq] at hdq
        omega
      right
      refine ⟨d, ?_, hd⟩
      rw [List.getLast?_eq_getElem?, hcount, show stamps.length - 1 = j by omega]
      exact hj
  · rintro (hnil | ⟨d, hlast, hd⟩)
    · rw [hnil, List.length_nil] at hcount
      rw [hnil] at hsub
      rw [List.sublist_nil.mp hsub, ← hcount]
      rfl
    · rw [List.getLast?_eq_getElem?, hcount] at hlast
      have hpos : stamps.length - 1 < stamps.length :=
        hcount ▸ (List.getElem?_eq_some_iff.mp hlast).1
      obtain ⟨s, u, rfl⟩ := getElem?_dataPackets len 0 stamps _ d hlast
      have hmem := List.mem_filterMap.mpr ⟨_, hd, dataSeq_dataPacket len s u (by omega)⟩
      have hge := lt_bound_of_mem hmem
      omega

end Selection

/-! ## Sender and receiver -/

/-- **Loss only.**  The sender's loop emits `data`; of these, `delivered` arrive, in order, from a
    registered address, among any other datagrams that are not data of that address.  The receiver
    returns, and its receipt counts what arrived, sees no reordering and charges as lost what is
    missing below the largest number delivered. -/
theorem lossOnly_receipt {len : Nat} (hlen : udpHeaderLen ≤ len) {omitSend : Nat}
    {maxBytes maxBlocks : Option Nat} {turns : List UdpTurn} {streamId : Nat} {data : List Bytes}
    {sender : ClientStreamReceipt}
    (hsend : udpSendLoop len omitSend maxBytes maxBlocks turns 0 (.empty streamId) =
      some (data, sender))
    (hk : data.length < 2 ^ 63) {order : List SocketAddr} (hnd : order.Nodup) {a : SocketAddr}
    (omitWindow : Nat) {arrivals : List Arrival} {delivered : List Bytes}
    (hdel : dataPayloads (arrivals.filter fun x => x.datagram.src = a) = delivered)
    (hsub : delivered.Sublist data) :
    (∀ (j : Nat) (d : Bytes), data[j]? = some d → ∃ hdr : UdpHeader,
      hdr.encode (buildPayload len) = (.ok (), d) ∧
      UdpHeader.decode (d.take udpHeaderLen) = .ok hdr ∧ hdr.isSentinel = false ∧
      hdr.seq.toInt = j) ∧
    (∀ ticks, Delivers arrivals ticks → ∃ receipts,
      runUdpReceiver order omitWindow ticks = some receipts ∧
      udpConsumed order omitWindow ticks = arrivals) ∧
    ∀ (ticks : List Tick) (receipts : List StreamReceipt) (r : StreamReceipt),
      runUdpReceiver order omitWindow ticks = some receipts →
      udpConsumed order omitWindow ticks = arrivals → (a, r) ∈ order.zip receipts →
      r.ooo = 0 ∧ r.packets = delivered.length ∧ r.bytes = len * r.packets ∧
      r.lost = bound (delivered.filterMap dataSeq) - r.packets ∧
      r.packets + r.lost ≤ data.length ∧
      (r.packets + r.lost = data.length ↔
        data = [] ∨ ∃ d, data.getLast? = some d ∧ d ∈ delivered) := by
  obtain ⟨stamps, rfl, -⟩ := udpSendLoop_eq turns 0 _ hsend
  have hcount := length_dataPackets len 0 stamps
  rw [hcount] at hk
  refine ⟨fun j d hj => header_dataPackets hlen hk hj, ?_, ?_⟩
  · intro ticks hticks
    obtain ⟨⟨receipts, hrun⟩, hconsumed⟩ := delivers_run hticks order omitWindow
    exact ⟨receipts, hrun, hconsumed⟩
  · intro ticks receipts r hrun hconsumed har
    obtain ⟨hincreasing, hlt⟩ := selection_seqs hk hsub
    have hseqs : streamSeqs order omitWindow ticks a = delivered.filterMap dataSeq := by
      rw [streamSeqs, hconsumed, dataSeqs_eq_filterMap, hdel]
    obtain ⟨hlost, hooo, hpackets⟩ := receipt_accounts hnd hrun har (by
      rw [hseqs]
      intro q hq
      have := hlt q hq
      omega)
    rw [hseqs] at hlost hooo hpackets
    rw [selection_length hk hsub] at hpackets
    -- increasing numbers: nothing is late, and the loss is what the balance leaves
    have hlate : (tally (delivered.filterMap dataSeq)).late = 0 := by
      rw [tally_late, overtaken_eq_zero_iff]
      exact hincreasing
    have hbalance := lost_add_length (delivered.filterMap dataSeq)
    rw [hlate, tally_next, selection_length hk hsub] at hbalance
    have hbytes : r.bytes = len * r.packets := by
      rw [hpackets, receipt_eq_foldl hnd hrun har, (foldl_volume omitWindow _ _).1, hconsumed, hdel,
        selection_bytes hlen hsub]
      exact Nat.zero_add _
    have hbound := selection_bound hk hsub
    refine ⟨hooo.trans hlate, hpackets, hbytes, by omega, by omega, ?_⟩
    rw [hcount, ← selection_complete_iff hk hsub]
    omega

/-- Three header-only datagrams sent; the middle one lost, a stray datagram on the way. -/
def threeSends : List UdpTurn :=
  List.replicate 3 ⟨false, false, 0, 0, .ok 16, 0⟩ ++ [⟨true, false, 0, 0, .ok 0, 0⟩]

def firstAndThird : List Arrival :=
  [loneDatagram 0, ⟨0, nearPeer, (UdpHeader.mk 0 0 9).bytes⟩, loneDatagram 2]

theorem lossOnly_receipt_middleLost :
    ∃ data sender r, udpSendLoop 16 0 none none threeSends 0 (.empty 1) = some (data, sender) ∧
      runUdpReceiver [lonePeer] 0 (feed firstAndThird) = some [r] ∧
      data.length = 3 ∧ r.ooo = 0 ∧ r.packets = 2 ∧ r.bytes = 32 ∧ r.lost = 1 := by
  have hdel : dataPayloads (firstAndThird.filter fun x => x.datagram.src = lonePeer) =
      [dataPacket 16 ⟨0, 0, 0⟩, dataPacket 16 ⟨0, 0, 2⟩] := by decide +kernel
  have hsend : udpSendLoop 16 0 none none threeSends 0 (.empty 1) = some (_, _) := rfl
  obtain ⟨_, hreturns, hreceipt⟩ := lossOnly_receipt (Nat.le_refl 16) hsend (by decide)
    (List.nodup_singleton lonePeer) 0 hdel (.cons_cons _ (.cons _ (.cons_cons _ .slnil)))
  obtain ⟨receipts, hrun, hconsumed⟩ := hreturns _ (delivers_feed firstAndThird)
  obtain rfl := runUdpReceiver_receipt (List.nodup_singleton _) hrun
  obtain ⟨hooo, hpackets, hbytes, hlost, _⟩ :=
    hreceipt _ _ _ hrun hconsumed List.mem_cons_self
  have hbound :
      bound ([dataPacket 16 ⟨0, 0, 0⟩, dataPacket 16 ⟨0, 0, 2⟩].filterMap dataSeq) = 3 := by
    decide +kernel
  rw [hpackets] at hbytes
  rw [hpackets, hbound] at hlost
  exact ⟨_, _, _, hsend, hrun, rfl, hooo, hpackets, hbytes, hlost⟩

end Rperf3
