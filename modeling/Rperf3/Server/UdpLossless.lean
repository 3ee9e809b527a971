/-
  Registration followed by measurement on ONE socket: what a lossless UDP run reports.

  `accept_udp_streams` and `run_udp_receiver` read the same socket one after the other, while the
  senders never wait for an acknowledgement.  So the outcome depends on how the streams interleave:

  1. `Merge` — an arrival order of the senders' datagrams that keeps every sender's own order and
     loses nothing.
  2. `acceptUdpLoop_spec` — registration consumes a PREFIX of the arrivals, the one that ends with
     the last stream-init; every data datagram inside it is thrown away.
  3. Hence every stream is reported complete (`packets = k`, no loss, no reordering) exactly when
     no data datagram is followed by a stream-init.
-/
import Rperf3.Common.Stream
import Rperf3.Common.UdpAccounting

namespace Rperf3

open GapTally

/-! ## Emissions -/

theorem length_dataPacket {len : Nat} (h : udpHeaderLen ≤ len) (hdr : UdpHeader) :
    (dataPacket len hdr).length = len := by
  rw [dataPacket, List.length_append, UdpHeader.length_bytes, buildPayload, List.length_replicate]
  omega

/-- A data packet is no stream-init: one of cookie length ends in `1`, the cookie in NUL. -/
theorem dataPacket_not_init (c : Cookie) {len : Nat} (h : udpHeaderLen ≤ len) (hdr : UdpHeader) :
    isValidInit c.bytes (dataPacket len hdr) = false := by
  have hlen := length_dataPacket h hdr
  rw [isValidInit, Bool.or_eq_false_iff, beq_eq_false_iff_ne, beq_eq_false_iff_ne]
  constructor
  · intro heq
    have hcookie : len = cookieLen := by rw [← hlen, heq, c.length_bytes]
    have hlast : (dataPacket len hdr).getLast? = some 1 := by
      have hones : buildPayload (len - udpHeaderLen) = buildPayload 20 ++ [1] := by
        rw [hcookie]
        rfl
      rw [dataPacket, hones, ← List.append_assoc, List.getLast?_append]
      rfl
    rw [heq, Cookie.bytes, List.getLast?_append] at hlast
    exact absurd hlast (by simp)
  · intro heq
    rw [heq] at hlen
    have : udpStreamInit.length = 4 := rfl
    unfold udpHeaderLen at h
    omega

theorem sentinelPacket_not_init (c : Cookie) (s u : BitVec 32) :
    isValidInit c.bytes (sentinelPacket s u) = false := by
  have hlen : (sentinelPacket s u).length = udpHeaderLen := UdpHeader.length_bytes _
  rw [isValidInit, Bool.or_eq_false_iff, beq_eq_false_iff_ne, beq_eq_false_iff_ne]
  constructor
  · intro heq
    rw [heq, c.length_bytes] at hlen
    exact absurd hlen (by decide)
  · intro heq
    rw [heq] at hlen
    exact absurd hlen (by decide)

theorem cookie_is_init (c : Cookie) : isValidInit c.bytes c.bytes = true := by
  rw [isValidInit, beq_self_eq_true, Bool.true_or]

theorem dataPackets_not_init (c : Cookie) {len : Nat} (h : udpHeaderLen ≤ len)
    (stamps : List (BitVec 32 × BitVec 32)) :
    ∀ seq, ∀ p ∈ dataPackets len seq stamps, isValidInit c.bytes p = false := by
  induction stamps with
  | nil => intro seq p hp; exact absurd hp List.not_mem_nil
  | cons st stamps ih =>
    intro seq p hp
    rcases List.mem_cons.mp hp with rfl | hp
    · exact dataPacket_not_init c h _
    · exact ih (seq + 1) p hp

/-- The receiver reads back the number a data packet was given. -/
theorem dataSeq_dataPacket (len : Nat) (s u : BitVec 32) {seq : Nat} (hseq : seq < 2 ^ 63) :
    dataSeq (dataPacket len ⟨s, u, BitVec.ofNat 64 seq⟩) = some seq := by
  have hint : (BitVec.ofNat 64 seq).toInt = seq := by
    rw [BitVec.toInt_eq_toNat_of_lt] <;> rw [BitVec.toNat_ofNat] <;> omega
  rw [dataPacket, dataSeq_bytes_append]
  simp only [UdpHeader.isSentinel, hint, Int.toNat_natCast]
  rw [if_neg (by simp)]

/-- The data datagrams carry consecutive numbers. -/
theorem filterMap_dataPackets (len : Nat) (stamps : List (BitVec 32 × BitVec 32)) :
    ∀ seq, seq + stamps.length < 2 ^ 63 →
      (dataPackets len seq stamps).filterMap dataSeq = List.range' seq stamps.length := by
  induction stamps with
  | nil => intro seq _; rfl
  | cons st stamps ih =>
    intro seq hseq
    rw [List.length_cons] at hseq
    rw [dataPackets, List.filterMap_cons_some (dataSeq_dataPacket len st.1 st.2 (by omega)),
      ih (seq + 1) (by omega), List.length_cons, List.range'_succ]

theorem dataSeq_sentinelPacket (s u : BitVec 32) : dataSeq (sentinelPacket s u) = none := by
  have h := dataSeq_bytes_append (UdpHeader.mk s u (BitVec.ofInt 64 (-1))) []
  rw [List.append_nil] at h
  exact h.trans (if_pos (by simp [UdpHeader.isSentinel]))

namespace UdpSender

/-- A sender announces itself once. -/
theorem filter_init_emission (c : Cookie) (s : UdpSender) :
    (s.emission c.bytes).filter (isValidInit c.bytes) = [c.bytes] := by
  rw [emission, List.cons_append, List.filter_cons_of_pos (cookie_is_init c), List.filter_append,
    List.filter_eq_nil_iff.mpr, List.filter_eq_nil_iff.mpr]
  · rfl
  · intro p hp
    rw [List.mem_singleton.mp hp, sentinelPacket_not_init]
    exact Bool.false_ne_true
  · intro p hp
    rw [dataPackets_not_init c s.header_le_len s.stamps 0 p hp]
    exact Bool.false_ne_true

/-- Its other datagrams carry `0 .. k-1`. -/
theorem filterMap_data_emission (c : Cookie) (s : UdpSender) :
    ((s.emission c.bytes).filter fun p => !isValidInit c.bytes p).filterMap dataSeq =
      List.range s.count := by
  have hkeep : (dataPackets s.len 0 s.stamps).filter (fun p => !isValidInit c.bytes p) =
      dataPackets s.len 0 s.stamps := by
    rw [List.filter_eq_self]
    intro p hp
    rw [dataPackets_not_init c s.header_le_len s.stamps 0 p hp]
    rfl
  rw [emission, List.cons_append, List.filter_cons_of_neg (by rw [cookie_is_init]; decide),
    List.filter_append, List.filterMap_append, hkeep,
    filterMap_dataPackets _ _ _ (by rw [Nat.zero_add]; exact s.count_lt),
    List.filter_cons_of_pos (by rw [sentinelPacket_not_init]; rfl), List.filter_nil,
    List.filterMap_cons_none (dataSeq_sentinelPacket _ _), List.filterMap_nil, List.append_nil,
    List.range_eq_range']
  rfl

end UdpSender

/-! ## Registration -/

/-- Is this datagram a stream-init? -/
def isInit (cookie : Bytes) (d : Datagram) : Bool := isValidInit cookie d.payload

/-- Is this datagram a data datagram? -/
def isData (cookie : Bytes) (d : Datagram) : Bool :=
  !isInit cookie d && (dataSeq d.payload).isSome

/-- **Registration consumes the arrivals up to the `need`-th stream-init**, provided that the inits
    come from distinct sources, none registered before. -/
theorem acceptUdpLoop_spec (cookie : Bytes) (arrivals : List Datagram) :
    ∀ (need : Nat) (addrs : List SocketAddr),
      need ≤ (arrivals.filter (isInit cookie)).length →
      (addrs ++ (arrivals.filter (isInit cookie)).map Datagram.src).Nodup →
      ∃ taken rest, arrivals = taken ++ rest ∧
        acceptUdpLoop cookie need addrs arrivals =
          some (addrs ++ ((arrivals.filter (isInit cookie)).take need).map Datagram.src, rest) ∧
        (taken.filter (isInit cookie)).length = need ∧
        (taken = [] ∨ ∃ pre e, taken = pre ++ [e] ∧ isInit cookie e = true) := by
  induction arrivals with
  | nil =>
    intro need addrs hneed _
    obtain rfl : need = 0 := Nat.le_zero.mp hneed
    exact ⟨[], [], rfl, by rw [acceptUdpLoop]; simp, rfl, Or.inl rfl⟩
  | cons d ds ih =>
    intro need addrs hneed hnd
    cases need with
    | zero =>
      exact ⟨[], d :: ds, rfl, by rw [acceptUdpLoop, List.take_zero, List.map_nil, List.append_nil],
        rfl, Or.inl rfl⟩
    | succ need =>
      cases hd : isInit cookie d with
      | false =>
        -- anything but a stream-init is dropped
        rw [List.filter_cons_of_neg (by rw [hd]; exact Bool.false_ne_true)] at hneed hnd ⊢
        obtain ⟨taken, rest, rfl, hacc, hcount, hlast⟩ := ih (need + 1) addrs hneed hnd
        refine ⟨d :: taken, rest, rfl, ?_, ?_, ?_⟩
        · rw [acceptUdpLoop, if_pos (by rw [isInit] at hd; rw [hd]; rfl)]
          exact hacc
        · rw [List.filter_cons_of_neg (by rw [hd]; exact Bool.false_ne_true)]
          exact hcount
        · rcases hlast with rfl | ⟨pre, e, rfl, he⟩
          · exact absurd hcount (by simp)
          · exact Or.inr ⟨d :: pre, e, rfl, he⟩
      | true =>
        -- a stream-init from a new source is registered
        rw [List.filter_cons_of_pos hd] at hneed hnd ⊢
        rw [List.map_cons, List.append_cons] at hnd
        have hfresh : d.src ∉ addrs := by
          intro hmem
          have hnd' := (List.nodup_append.mp hnd).1
          exact (List.nodup_append.mp hnd').2.2 _ hmem _ List.mem_cons_self rfl
        obtain ⟨taken, rest, rfl, hacc, hcount, hlast⟩ :=
          ih need (addrs ++ [d.src]) (Nat.le_of_succ_le_succ hneed) hnd
        refine ⟨d :: taken, rest, rfl, ?_, ?_, ?_⟩
        · rw [acceptUdpLoop, if_neg (by rw [isInit] at hd; rw [hd]; exact Bool.false_ne_true),
            if_neg hfresh, hacc, List.take_succ_cons, List.map_cons, List.append_assoc]
          rfl
        · rw [List.filter_cons_of_pos hd, List.length_cons, hcount]
        · rcases hlast with rfl | ⟨pre, e, rfl, he⟩
          · exact Or.inr ⟨[], d, rfl, hd⟩
          · exact Or.inr ⟨d :: pre, e, rfl, he⟩

/-! ## Merges -/

/-- `arrivals` is a merge of what the senders emit: nothing lost, nothing added, every sender's own
    order kept. -/
structure Merge (cookie : Bytes) (senders : List UdpSender) (arrivals : List Datagram) : Prop where
  addrs_nodup : (senders.map UdpSender.addr).Nodup
  from_sender : ∀ d ∈ arrivals, ∃ s ∈ senders, d.src = s.addr
  in_order : ∀ s ∈ senders,
    (arrivals.filter fun d => d.src = s.addr).map Datagram.payload = s.emission cookie

/-- The datagrams of one source. -/
def fromAddr (a : SocketAddr) (ds : List Datagram) : List Datagram :=
  ds.filter fun d => d.src = a

/-- The data sequence numbers of one source, stream-inits not counted. -/
def sourceSeqs (cookie : Bytes) (a : SocketAddr) (ds : List Datagram) : List Nat :=
  ((fromAddr a ds).filter fun d => !isInit cookie d).filterMap fun d => dataSeq d.payload

theorem sourceSeqs_append (cookie : Bytes) (a : SocketAddr) (ds es : List Datagram) :
    sourceSeqs cookie a (ds ++ es) = sourceSeqs cookie a ds ++ sourceSeqs cookie a es := by
  simp only [sourceSeqs, fromAddr, List.filter_append, List.filterMap_append]

namespace Merge

variable {c : Cookie} {senders : List UdpSender} {arrivals : List Datagram}

/-- Each sender's numbers arrive complete and in order. -/
theorem sourceSeqs_eq (h : Merge c.bytes senders arrivals) {s : UdpSender} (hs : s ∈ senders) :
    sourceSeqs c.bytes s.addr arrivals = List.range s.count := by
  rw [← UdpSender.filterMap_data_emission c s, ← h.in_order s hs, List.filter_map,
    List.filterMap_map]
  rfl

/-- Each sender contributes one stream-init. -/
theorem count_inits (h : Merge c.bytes senders arrivals) {s : UdpSender} (hs : s ∈ senders) :
    ((arrivals.filter (isInit c.bytes)).map Datagram.src).count s.addr = 1 := by
  have hone := UdpSender.filter_init_emission c s
  rw [← h.in_order s hs, List.filter_map] at hone
  have hlen := congrArg List.length hone
  rw [List.length_map, List.filter_filter] at hlen
  rw [List.count_eq_countP, List.countP_map, List.countP_filter, List.countP_eq_length_filter]
  refine Eq.trans (congrArg List.length (List.filter_congr fun d _ => ?_)) hlen
  simp only [Function.comp_apply, isInit, Bool.and_comm, beq_eq_decide]

/-- The stream-inits come from the senders, one from each. -/
theorem inits_perm (h : Merge c.bytes senders arrivals) :
    ((arrivals.filter (isInit c.bytes)).map Datagram.src).Perm (senders.map UdpSender.addr) := by
  rw [List.perm_iff_count]
  intro a
  by_cases ha : a ∈ senders.map UdpSender.addr
  · obtain ⟨s, hs, rfl⟩ := List.mem_map.mp ha
    rw [h.count_inits hs, List.count_eq_one_of_mem h.addrs_nodup ha]
  · rw [List.count_eq_zero_of_not_mem ha, List.count_eq_zero]
    intro hmem
    obtain ⟨d, hd, rfl⟩ := List.mem_map.mp hmem
    obtain ⟨s, hs, hsrc⟩ := h.from_sender d (List.mem_filter.mp hd).1
    exact ha (List.mem_map.mpr ⟨s, hs, hsrc.symm⟩)

/-- Registration of all senders succeeds and stops right after the last stream-init. -/
theorem accept (h : Merge c.bytes senders arrivals) :
    ∃ order taken rest, arrivals = taken ++ rest ∧
      acceptUdpStreams c.bytes senders.length arrivals = some (order, rest) ∧
      order.Perm (senders.map UdpSender.addr) ∧
      (∀ d ∈ rest, isInit c.bytes d = false) ∧
      (taken = [] ∨ ∃ pre e, taken = pre ++ [e] ∧ isInit c.bytes e = true) := by
  have hperm := h.inits_perm
  have hlen : (arrivals.filter (isInit c.bytes)).length = senders.length := by
    have := hperm.length_eq
    rwa [List.length_map, List.length_map] at this
  obtain ⟨taken, rest, harr, hacc, hcount, hlast⟩ :=
    acceptUdpLoop_spec c.bytes arrivals senders.length [] (Nat.le_of_eq hlen.symm)
      (hperm.nodup_iff.mpr h.addrs_nodup)
  rw [List.nil_append, List.take_of_length_le (Nat.le_of_eq hlen)] at hacc
  refine ⟨_, taken, rest, harr, hacc, hperm, ?_, hlast⟩
  -- all inits are in `taken`, so none is left
  have hrest : (rest.filter (isInit c.bytes)).length = 0 := by
    rw [harr, List.filter_append, List.length_append] at hlen
    omega
  intro d hd
  rw [List.length_eq_zero_iff, List.filter_eq_nil_iff] at hrest
  exact Bool.eq_false_iff.mpr (hrest d hd)

end Merge

/-! ## Lossless runs -/

/-- No data datagram is followed by a stream-init: all streams are announced before any sends. -/
def DataAfterInits (cookie : Bytes) (arrivals : List Datagram) : Prop :=
  arrivals.Pairwise fun d e => isData cookie d = true → isInit cookie e = false

theorem isInit_of_isData {cookie : Bytes} {d : Datagram} (h : isData cookie d = true) :
    isInit cookie d = false := by
  rw [isData, Bool.and_eq_true, Bool.not_eq_true'] at h
  exact h.1

/-- Around the last stream-init: the data comes after all inits when registration drops none. -/
theorem dataAfterInits_iff {cookie : Bytes} {taken rest : List Datagram}
    (hrest : ∀ d ∈ rest, isInit cookie d = false)
    (hlast : taken = [] ∨ ∃ pre e, taken = pre ++ [e] ∧ isInit cookie e = true) :
    DataAfterInits cookie (taken ++ rest) ↔ ∀ d ∈ taken, isData cookie d = false := by
  constructor
  · intro h d hd
    rcases hlast with rfl | ⟨pre, e, rfl, he⟩
    · exact absurd hd List.not_mem_nil
    · rcases List.mem_append.mp hd with hpre | hde
      · -- `d` precedes the init `e`
        have hpair := (List.pairwise_append.mp (List.pairwise_append.mp h).1).2.2
        by_contra hdata
        rw [hpair d hpre e List.mem_cons_self (Bool.eq_true_of_not_eq_false hdata)] at he
        exact Bool.false_ne_true he
      · rw [List.mem_singleton.mp hde]
        by_contra hdata
        rw [isInit_of_isData (Bool.eq_true_of_not_eq_false hdata)] at he
        exact Bool.false_ne_true he
  · intro h
    refine List.pairwise_append.mpr ⟨?_, ?_, ?_⟩
    · exact List.Pairwise.imp_of_mem (fun hd _ _ hdata => by rw [h _ hd] at hdata; cases hdata)
        (List.pairwise_of_forall fun _ _ => trivial)
    · exact List.Pairwise.imp_of_mem (fun _ he _ _ => hrest _ he)
        (List.pairwise_of_forall fun _ _ => trivial)
    · intro d hd e he _
      exact hrest e he

/-- The numbers of one source vanish exactly when it sent no data. -/
theorem sourceSeqs_eq_nil_iff (cookie : Bytes) (a : SocketAddr) (ds : List Datagram) :
    sourceSeqs cookie a ds = [] ↔ ∀ d ∈ ds, d.src = a → isData cookie d = false := by
  rw [sourceSeqs, List.filterMap_eq_nil_iff]
  constructor
  · intro h d hd hsrc
    cases hinit : isInit cookie d with
    | true => rw [isData, hinit]; rfl
    | false =>
      have hmem : d ∈ (fromAddr a ds).filter fun d => !isInit cookie d :=
        List.mem_filter.mpr ⟨List.mem_filter.mpr ⟨hd, decide_eq_true hsrc⟩, by rw [hinit]; rfl⟩
      rw [isData, h d hmem, Option.isSome_none, Bool.and_false]
  · intro h d hd
    obtain ⟨hmem, hinit⟩ := List.mem_filter.mp hd
    obtain ⟨hmem, hsrc⟩ := List.mem_filter.mp hmem
    have hdata := h d hmem (of_decide_eq_true hsrc)
    rw [isData, hinit, Bool.true_and] at hdata
    exact Option.not_isSome_iff_eq_none.mp (Bool.eq_false_iff.mp hdata)

/-- The tally of a complete stream in order. -/
theorem tally_range (k : Nat) : tally (List.range k) = ⟨k, 0, 0⟩ := by
  induction k with
  | zero => rfl
  | succ k ih =>
    rw [tally, List.range_succ, List.foldl_append, ← tally, ih]
    simp [Tally.see]

/-- After registration the receiver reads of each source what registration left. -/
theorem streamSeqs_of_delivers {cookie : Bytes} {order : List SocketAddr} {omitWindow : Nat}
    {as : List Arrival} {ticks : List Tick} {rest : List Datagram}
    (hrest : ∀ d ∈ rest, isInit cookie d = false) (has : as.map Arrival.datagram = rest)
    (hdel : Delivers as ticks) (a : SocketAddr) :
    streamSeqs order omitWindow ticks a = sourceSeqs cookie a rest := by
  have hkeep : (fromAddr a rest).filter (fun d => !isInit cookie d) = fromAddr a rest := by
    rw [List.filter_eq_self]
    intro d hd
    rw [hrest d (List.mem_filter.mp hd).1]
    rfl
  rw [sourceSeqs, hkeep, ← has, fromAddr, List.filter_map, List.filterMap_map, streamSeqs,
    (delivers_run hdel order omitWindow).2]
  rfl

/-- **A lossless run is reported lossless exactly when every stream is announced before any data.**
    Whatever the merge, registration of all senders succeeds and the receiver returns one receipt
    per sender; the receipts are complete — all packets, no loss, no reordering — if and only if no
    data datagram is followed by a stream-init. -/
theorem lossless_run_iff (c : Cookie) {senders : List UdpSender} {arrivals : List Datagram}
    (hmerge : Merge c.bytes senders arrivals) :
    ∃ order rest, acceptUdpStreams c.bytes senders.length arrivals = some (order, rest) ∧
      order.Perm (senders.map UdpSender.addr) ∧
      ∀ (omitWindow : Nat) (as : List Arrival) (ticks : List Tick),
        as.map Arrival.datagram = rest → Delivers as ticks →
        ∃ receipts, runUdpReceiver order omitWindow ticks = some receipts ∧
          receipts.length = order.length ∧
          ((∀ s ∈ senders, ∀ r, (s.addr, r) ∈ order.zip receipts →
              r.packets = s.count ∧ r.lost = 0 ∧ r.ooo = 0) ↔
            DataAfterInits c.bytes arrivals) := by
  obtain ⟨order, taken, rest, rfl, hacc, hperm, hrest, hlast⟩ := hmerge.accept
  refine ⟨order, rest, hacc, hperm, ?_⟩
  intro omitWindow as ticks has hdel
  obtain ⟨⟨receipts, hrun⟩, -⟩ := delivers_run hdel order omitWindow
  have hnd : order.Nodup := hperm.nodup_iff.mpr hmerge.addrs_nodup
  have hlen : receipts.length = order.length := by
    rw [runUdpReceiver_receipt hnd hrun, List.length_map]
  refine ⟨receipts, hrun, hlen, ?_⟩
  -- what registration dropped and what the receiver read make up the whole stream
  have hsplit : ∀ s ∈ senders,
      sourceSeqs c.bytes s.addr taken ++ streamSeqs order omitWindow ticks s.addr =
        List.range s.count := by
    intro s hs
    rw [streamSeqs_of_delivers hrest has hdel, ← sourceSeqs_append, hmerge.sourceSeqs_eq hs]
  have haccounts : ∀ s ∈ senders, ∀ r, (s.addr, r) ∈ order.zip receipts →
      r.lost = (tally (streamSeqs order omitWindow ticks s.addr)).lost ∧
        r.ooo = (tally (streamSeqs order omitWindow ticks s.addr)).late ∧
        r.packets = (streamSeqs order omitWindow ticks s.addr).length := by
    intro s hs r hr
    refine receipt_accounts hnd hrun hr fun q hq => ?_
    have hmem : q ∈ List.range s.count := hsplit s hs ▸ List.mem_append_right _ hq
    have hq := List.mem_range.mp hmem
    have hcount : s.count < 2 ^ 63 := s.count_lt
    omega
  rw [dataAfterInits_iff hrest hlast]
  constructor
  · intro hall d hd
    obtain ⟨s, hs, hsrc⟩ := hmerge.from_sender d (List.mem_append_left _ hd)
    -- some receipt belongs to `s`; its packet count leaves no room for dropped data
    have hmem : s.addr ∈ (order.zip receipts).map Prod.fst := by
      rw [List.map_fst_zip (Nat.le_of_eq hlen.symm)]
      exact hperm.mem_iff.mpr (List.mem_map.mpr ⟨s, hs, rfl⟩)
    obtain ⟨⟨a, r⟩, har, rfl⟩ := List.mem_map.mp hmem
    have hpackets := (hall s hs r har).1
    rw [(haccounts s hs r har).2.2] at hpackets
    have hsum := congrArg List.length (hsplit s hs)
    rw [List.length_append, List.length_range] at hsum
    have hnil : sourceSeqs c.bytes s.addr taken = [] :=
      List.length_eq_zero_iff.mp (by omega)
    exact (sourceSeqs_eq_nil_iff _ _ _).mp hnil d hd hsrc
  · intro hnone s hs r hr
    have hnil : sourceSeqs c.bytes s.addr taken = [] :=
      (sourceSeqs_eq_nil_iff _ _ _).mpr fun d hd _ => hnone d hd
    have hseqs := hsplit s hs
    rw [hnil, List.nil_append] at hseqs
    obtain ⟨hlost, hooo, hpackets⟩ := haccounts s hs r hr
    rw [hseqs, tally_range] at hlost hooo
    rw [hseqs, List.length_range] at hpackets
    exact ⟨hpackets, hlost, hooo⟩

/-! ### Two streams, one of them early -/

def sampleCookie : Cookie where
  chars := List.replicate 36 97
  length_chars := by decide
  alnum := by
    intro b hb
    rw [List.eq_of_mem_replicate hb]
    rfl

/-- A stream that sends two data datagrams. -/
def earlySender : UdpSender where
  addr := ⟨2130706433, 40001⟩
  len := 16
  stamps := [(0, 0), (0, 0)]
  sentinelSec := 0
  sentinelUsec := 0
  header_le_len := by decide
  count_lt := by decide

/-- A stream that announces itself and sends none. -/
def lateSender : UdpSender where
  addr := ⟨2130706433, 40002⟩
  len := 16
  stamps := []
  sentinelSec := 0
  sentinelUsec := 0
  header_le_len := by decide
  count_lt := by decide

/-- The first stream's data datagram `seq`. -/
def earlyDatagram (seq : BitVec 64) : Datagram := ⟨earlySender.addr, dataPacket 16 ⟨0, 0, seq⟩⟩

/-- The second stream's cookie arrives after the first stream's datagram `0`. -/
def earlyArrivals : List Datagram :=
  [⟨earlySender.addr, sampleCookie.bytes⟩, earlyDatagram 0, ⟨lateSender.addr, sampleCookie.bytes⟩,
    earlyDatagram 1, ⟨earlySender.addr, sentinelPacket 0 0⟩, ⟨lateSender.addr, sentinelPacket 0 0⟩]

theorem earlyArrivals_merge :
    Merge sampleCookie.bytes [earlySender, lateSender] earlyArrivals where
  addrs_nodup := by decide
  from_sender := by decide
  in_order := by decide

theorem earlyArrivals_accept : acceptUdpStreams sampleCookie.bytes 2 earlyArrivals =
    some ([earlySender.addr, lateSender.addr], earlyArrivals.drop 3) := by
  decide

/-- Nothing is lost on the wire, yet the first stream is reported with one of its two datagrams and
    one loss. -/
theorem early_datagram_dropped :
    Merge sampleCookie.bytes [earlySender, lateSender] earlyArrivals ∧
    acceptUdpStreams sampleCookie.bytes 2 earlyArrivals =
      some ([earlySender.addr, lateSender.addr], earlyArrivals.drop 3) ∧
    ∃ r r', runUdpReceiver [earlySender.addr, lateSender.addr] 0
        (feed ((earlyArrivals.drop 3).map (Arrival.mk 0))) = some [r, r'] ∧
      earlySender.count = 2 ∧ r.packets = 1 ∧ r.lost = 1 := by
  refine ⟨earlyArrivals_merge, earlyArrivals_accept, ?_⟩
  have hdel := delivers_feed ((earlyArrivals.drop 3).map (Arrival.mk 0))
  have hnd : [earlySender.addr, lateSender.addr].Nodup := by decide
  obtain ⟨⟨receipts, hrun⟩, -⟩ := delivers_run hdel [earlySender.addr, lateSender.addr] 0
  obtain ⟨r, r', rfl⟩ : ∃ r r', receipts = [r, r'] := ⟨_, _, runUdpReceiver_receipt hnd hrun⟩
  have hsource : sourceSeqs sampleCookie.bytes earlySender.addr (earlyArrivals.drop 3) = [1] := by
    decide
  have hseqs : streamSeqs [earlySender.addr, lateSender.addr] 0
      (feed ((earlyArrivals.drop 3).map (Arrival.mk 0))) earlySender.addr = [1] :=
    (streamSeqs_of_delivers (by decide) (by decide) hdel _).trans hsource
  have hacc := receipt_accounts hnd hrun (a := earlySender.addr) List.mem_cons_self
    (by rw [hseqs]; decide)
  rw [hseqs] at hacc
  exact ⟨r, r', hrun, rfl, hacc.2.2, hacc.1⟩

theorem lossless_run_iff_early :
    ∃ order rest receipts,
      acceptUdpStreams sampleCookie.bytes 2 earlyArrivals = some (order, rest) ∧
      runUdpReceiver order 0 (feed (rest.map (Arrival.mk 0))) = some receipts ∧
      ((∀ s ∈ [earlySender, lateSender], ∀ r, (s.addr, r) ∈ order.zip receipts →
          r.packets = s.count ∧ r.lost = 0 ∧ r.ooo = 0) ↔
        DataAfterInits sampleCookie.bytes earlyArrivals) := by
  obtain ⟨order, rest, hacc, -, hrun⟩ := lossless_run_iff sampleCookie earlyArrivals_merge
  have hmap : (rest.map (Arrival.mk 0)).map Arrival.datagram = rest := by
    rw [List.map_map]
    exact List.map_id rest
  obtain ⟨receipts, hrec, -, hiff⟩ := hrun 0 _ _ hmap (delivers_feed _)
  exact ⟨order, rest, receipts, hacc, hrec, hiff⟩

end Rperf3
