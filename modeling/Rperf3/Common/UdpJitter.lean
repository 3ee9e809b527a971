/-
  JITTER: what `jitter::update` makes of a stream's transit times.

  Arrival times count from the stream's first datagram, send times are the peer's absolute clock; so
  a transit time is off by an unknown constant, and only differences of transit times enter.

  1. `foldl_meter` — the jitter of a stream is the `VariationMeter` of its transit times.
  2. `jitter_of_shifted`, `jitter_eq_meter_transitMs` — a constant on either clock does not show, so
     the origin of the arrival times does not.
  3. `jitter_from_transit_variation` — with the bounds of the meter.
-/
import Rperf3.Lib.VariationMeter
import Rperf3.Common.UdpSequence

namespace Rperf3

open VariationMeter

namespace DataDatagram

/-- The sender's timestamp in milliseconds. -/
def sendMs (d : DataDatagram) : ℚ :=
  (d.hdr.tvSec.toNat : ℚ) * 1000 + (d.hdr.tvUsec.toNat : ℚ) / 1000

/-- The arrival time in milliseconds, on the receiver's clock. -/
def arrivalMs (d : DataDatagram) : ℚ := (d.now : ℚ) / 1000000

/-- The transit time, up to the offset between the two clocks. -/
def transitMs (d : DataDatagram) : ℚ := d.arrivalMs - d.sendMs

/-- The transit time as the receiver computes it, from the instant `first` on. -/
def transitSince (first : Nat) (d : DataDatagram) : ℚ :=
  ((d.now - first : Nat) : ℚ) / 1000000 - d.sendMs

theorem transitSince_eq {first : Nat} {d : DataDatagram} (h : first ≤ d.now) :
    d.transitSince first = d.transitMs + -((first : ℚ) / 1000000) := by
  unfold transitSince transitMs arrivalMs
  rw [Nat.cast_sub h, sub_div]
  ring

end DataDatagram

/-! ## The stream's meter -/

/-- The jitter accounting of a stream. -/
def StreamState.meter (s : StreamState) : Meter ℚ := ⟨s.receipt.jitterMs, s.lastTransitMs⟩

/-- **One data datagram** shows the meter its transit time. -/
theorem meter_count (omitWindow : Nat) (s : StreamState) (d : DataDatagram) :
    (s.count omitWindow d).meter =
      s.meter.see 16 (d.transitSince (s.receipt.firstByteAt.getD d.now)) ∧
    (s.count omitWindow d).receipt.firstByteAt = some (s.receipt.firstByteAt.getD d.now) := by
  -- what the sequence accounting leaves alone
  have hseq : ∀ t : StreamState, (t.countSeq d.hdr.seq).meter = t.meter ∧
      (t.countSeq d.hdr.seq).receipt.firstByteAt = t.receipt.firstByteAt := by
    intro t
    unfold StreamState.countSeq
    split
    · exact ⟨rfl, rfl⟩
    · exact ⟨rfl, rfl⟩
  have hjitter : ∀ t : StreamState,
      t.receipt.firstByteAt = some (s.receipt.firstByteAt.getD d.now) →
      (t.countJitter d.now d.hdr).meter =
        t.meter.see 16 (d.transitSince (s.receipt.firstByteAt.getD d.now)) ∧
      (t.countJitter d.now d.hdr).receipt.firstByteAt = t.receipt.firstByteAt := by
    intro t ht
    unfold StreamState.countJitter StreamState.meter
    rw [ht, Option.getD_some]
    cases t.lastTransitMs with
    | none => exact ⟨rfl, ht⟩
    | some prev => exact ⟨rfl, ht⟩
  obtain ⟨hmeter, hfirst⟩ := hseq (s.countBytes omitWindow d.now d.len)
  obtain ⟨hmeter', hfirst'⟩ := hjitter _ hfirst
  exact ⟨hmeter'.trans (by rw [hmeter]; rfl), hfirst'.trans hfirst⟩

/-- The transit times of a stream, from its first datagram on. -/
def transits : List DataDatagram → List ℚ
  | [] => []
  | d :: ds => (d :: ds).map (DataDatagram.transitSince d.now)

/-- **The jitter of a stream** is the meter of its transit times. -/
theorem foldl_meter (omitWindow : Nat) (ds : List DataDatagram) :
    (ds.foldl (StreamState.count omitWindow) .new).meter = meter 16 (transits ds) := by
  -- once the first datagram is in, its instant stays the origin
  have hfold : ∀ (ds : List DataDatagram) (s : StreamState) {first : Nat},
      s.receipt.firstByteAt = some first →
      (ds.foldl (StreamState.count omitWindow) s).meter =
        (ds.map (DataDatagram.transitSince first)).foldl (Meter.see 16) s.meter := by
    intro ds
    induction ds with
    | nil =>
      intro s first _
      rfl
    | cons d ds ih =>
      intro s first hfirst
      obtain ⟨hmeter, hfirst'⟩ := meter_count omitWindow s d
      rw [hfirst, Option.getD_some] at hmeter hfirst'
      rw [List.foldl_cons, ih _ hfirst', hmeter]
      rfl
  cases ds with
  | nil => rfl
  | cons d ds =>
    obtain ⟨hmeter, hfirst⟩ := meter_count omitWindow .new d
    rw [List.foldl_cons, hfold ds _ hfirst, hmeter]
    rfl

/-! ## Clocks -/

/-- `d'` is `d` with `k` nanoseconds added to the arrival time and `c` milliseconds to the sender's
    timestamp. -/
structure Shifted (k : ℤ) (c : ℚ) (d d' : DataDatagram) : Prop where
  now_eq : (d'.now : ℤ) = d.now + k
  sendMs_eq : d'.sendMs = d.sendMs + c

theorem Shifted.transitSince {k : ℤ} {c : ℚ} {d d' : DataDatagram} (h : Shifted k c d d')
    {first first' : Nat} (hfirst : (first' : ℤ) = first + k) :
    d'.transitSince first' = d.transitSince first + -c := by
  have hnow := h.now_eq
  have hsince : d'.now - first' = d.now - first := by omega
  unfold DataDatagram.transitSince
  rw [hsince, h.sendMs_eq]
  ring

theorem transits_of_shifted {k : ℤ} {c : ℚ} {ds ds' : List DataDatagram}
    (h : List.Forall₂ (Shifted k c) ds ds') : transits ds' = (transits ds).map (· + -c) := by
  have hmap : ∀ {first first' : Nat} {ds ds' : List DataDatagram},
      (first' : ℤ) = first + k → List.Forall₂ (Shifted k c) ds ds' →
      ds'.map (DataDatagram.transitSince first') =
        (ds.map (DataDatagram.transitSince first)).map (· + -c) := by
    intro first first' ds ds' hfirst h
    induction h with
    | nil => rfl
    | cons hd _ ih => rw [List.map_cons, List.map_cons, List.map_cons, ih, hd.transitSince hfirst]
  cases h with
  | nil => rfl
  | cons hd hds => exact hmap hd.now_eq (.cons hd hds)

/-- **Clock offsets do not show.** -/
theorem jitter_of_shifted {k : ℤ} {c : ℚ} {ds ds' : List DataDatagram}
    (h : List.Forall₂ (Shifted k c) ds ds') :
    (meter 16 (transits ds')).avg = (meter 16 (transits ds)).avg := by
  rw [transits_of_shifted h, meter_map_add]

/-- Arrivals read on a clock that does not go back. -/
def InClockOrder (ds : List DataDatagram) : Prop := ds.Pairwise fun d e => d.now ≤ e.now

/-- Nor does the origin of the arrival times. -/
theorem jitter_eq_meter_transitMs {ds : List DataDatagram} (h : InClockOrder ds) :
    (meter 16 (transits ds)).avg = (meter 16 (ds.map DataDatagram.transitMs)).avg := by
  cases ds with
  | nil => rfl
  | cons d ds =>
    have hmap : (d :: ds).map (DataDatagram.transitSince d.now) =
        ((d :: ds).map DataDatagram.transitMs).map (· + -((d.now : ℚ) / 1000000)) := by
      rw [List.map_map]
      apply List.map_congr_left
      intro e he
      apply DataDatagram.transitSince_eq
      rcases List.mem_cons.mp he with rfl | he
      · exact Nat.le_refl _
      · exact (List.pairwise_cons.mp h).1 e he
    rw [transits, hmap, meter_map_add]

/-! ## The reported jitter -/

/-- **Jitter depends on the variation of the transit times alone.**  In every state the receiver
    reaches, constants added to all sender timestamps and to all arrival times leave a stream's
    jitter as it is; it is zero if all transit times are equal, and lies between zero and the
    largest difference of consecutive transit times. -/
theorem jitter_from_transit_variation (order : List SocketAddr) (omitWindow : Nat)
    (ticks : List Tick) (a : SocketAddr) (ha : a ∈ order) :
    ∃ s, udpStreamState order omitWindow ticks a = some s ∧
    (∀ (order' : List SocketAddr) (omitWindow' : Nat) (ticks' : List Tick) (a' : SocketAddr)
      (k : ℤ) (c : ℚ), a' ∈ order' →
      List.Forall₂ (Shifted k c) (streamData order omitWindow ticks a)
        (streamData order' omitWindow' ticks' a') →
      ∃ s', udpStreamState order' omitWindow' ticks' a' = some s' ∧
        s'.receipt.jitterMs = s.receipt.jitterMs) ∧
    (InClockOrder (streamData order omitWindow ticks a) →
      ((∀ d ∈ streamData order omitWindow ticks a, ∀ e ∈ streamData order omitWindow ticks a,
        d.transitMs = e.transitMs) → s.receipt.jitterMs = 0) ∧
      0 ≤ s.receipt.jitterMs ∧
      s.receipt.jitterMs ≤
        maxVariation ((streamData order omitWindow ticks a).map DataDatagram.transitMs)) := by
  have hjitter : ∀ {order : List SocketAddr} {a : SocketAddr}, a ∈ order →
      ∀ (omitWindow : Nat) (ticks : List Tick),
      ∃ s, udpStreamState order omitWindow ticks a = some s ∧
        s.receipt.jitterMs = (meter 16 (transits (streamData order omitWindow ticks a))).avg := by
    intro order a ha omitWindow ticks
    obtain ⟨saw, hstate⟩ := udpStreamState_eq_foldl ha omitWindow ticks
    exact ⟨_, hstate, congrArg Meter.avg (foldl_meter omitWindow _)⟩
  obtain ⟨s, hstate, havg⟩ := hjitter ha omitWindow ticks
  refine ⟨s, hstate, ?_, ?_⟩
  · intro order' omitWindow' ticks' a' k c ha' hshift
    obtain ⟨s', hstate', havg'⟩ := hjitter ha' omitWindow' ticks'
    exact ⟨s', hstate', by rw [havg', havg, jitter_of_shifted hshift]⟩
  · intro hclock
    rw [havg, jitter_eq_meter_transitMs hclock]
    refine ⟨fun heq => meter_eq_zero (by norm_num) ?_, meter_mem_Icc (by norm_num) _⟩
    intro x hx y hy
    obtain ⟨d, hd, rfl⟩ := List.mem_map.mp hx
    obtain ⟨e, he, rfl⟩ := List.mem_map.mp hy
    exact heq d hd e he

/-- A datagram of the lone peer, stamped with microseconds. -/
def stampedDatagram (now : Nat) (usec : BitVec 32) (seq : BitVec 64) : Arrival :=
  ⟨now, lonePeer, (UdpHeader.mk 0 usec seq).bytes⟩

theorem streamData_feed {as : List Arrival} (h : ∀ x ∈ as, x.datagram.src = lonePeer) :
    streamData [lonePeer] 0 (feed as) lonePeer = as.filterMap Arrival.data := by
  obtain ⟨-, hconsumed⟩ := delivers_run (delivers_feed as) [lonePeer] 0
  rw [streamData, hconsumed, List.filter_eq_self.mpr fun x hx => decide_eq_true (h x hx)]

/-- Sent one millisecond apart, received five apart; the second run on clocks that are 7 µs and
    half a millisecond ahead. -/
theorem jitter_from_transit_variation_twoDatagrams :
    ∃ s s', udpStreamState [lonePeer] 0
        (feed [stampedDatagram 0 0 0, stampedDatagram 5000000 1000 1]) lonePeer = some s ∧
      udpStreamState [lonePeer] 0
        (feed [stampedDatagram 7000 500 0, stampedDatagram 5007000 1500 1]) lonePeer = some s' ∧
      s'.receipt.jitterMs = s.receipt.jitterMs ∧ 0 ≤ s.receipt.jitterMs ∧
      s.receipt.jitterMs ≤ 4 := by
  have hdata : streamData [lonePeer] 0
      (feed [stampedDatagram 0 0 0, stampedDatagram 5000000 1000 1]) lonePeer =
      [⟨0, 16, ⟨0, 0, 0⟩⟩, ⟨5000000, 16, ⟨0, 1000, 1⟩⟩] := by
    rw [streamData_feed (by decide)]
    decide +kernel
  have hdata' : streamData [lonePeer] 0
      (feed [stampedDatagram 7000 500 0, stampedDatagram 5007000 1500 1]) lonePeer =
      [⟨7000, 16, ⟨0, 500, 0⟩⟩, ⟨5007000, 16, ⟨0, 1500, 1⟩⟩] := by
    rw [streamData_feed (by decide)]
    decide +kernel
  obtain ⟨s, hstate, hshift, hbounds⟩ := jitter_from_transit_variation [lonePeer] 0
    (feed [stampedDatagram 0 0 0, stampedDatagram 5000000 1000 1]) lonePeer List.mem_cons_self
  rw [hdata] at hshift hbounds
  obtain ⟨s', hstate', heq⟩ := hshift [lonePeer] 0
    (feed [stampedDatagram 7000 500 0, stampedDatagram 5007000 1500 1]) lonePeer 7000 (1 / 2)
    List.mem_cons_self (by
      rw [hdata']
      refine .cons ⟨by norm_num, ?_⟩ (.cons ⟨by norm_num, ?_⟩ .nil)
      · simp [DataDatagram.sendMs]; norm_num
      · simp [DataDatagram.sendMs]; norm_num)
  obtain ⟨-, hlo, hhi⟩ := hbounds (by unfold InClockOrder; decide)
  have hmax : maxVariation ([⟨0, 16, ⟨0, 0, 0⟩⟩, ⟨5000000, 16, ⟨0, 1000, 1⟩⟩].map
      DataDatagram.transitMs) = 4 := by
    decide +kernel
  exact ⟨s, s', hstate, hstate', heq, hlo, hmax ▸ hhi⟩

end Rperf3
