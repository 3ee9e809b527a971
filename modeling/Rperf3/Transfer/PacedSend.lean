/-
  PACING: `Stream::start_udp` and `run_udp_send_streams` with their token bucket.

  `Paced` is the invariant of the bucket at the top of the body: it has recorded the bytes of the
  receipt, and its lead over the schedule is at most ONE transfer — a call is made without a lead,
  and time only shrinks a lead.

  1. `udp_pacing_bound` — hence the rate is kept up to one packet, at every moment, and no pause is
     longer than a packet is worth.
  2. `sleeps_within_test_iff` — a pause ends when the recorded bytes are due, which nothing relates
     to the end of the test: the last packet before the end may be due long after it.  No pause of
     any run reaches beyond the end exactly when a packet is worth at most a nanosecond or none is
     ever waited for.
-/
import Mathlib.Tactic.NormNum
import Rperf3.Server.Options
import Rperf3.Transfer.Loops

namespace Rperf3

open Turns WindowTally RateMeter

def maxU64 : Nat := 2 ^ 64 - 1

namespace DataLoop

variable {R : Type} {L : DataLoop R}

/-- The bucket of a paced loop, with its lead over the schedule. -/
structure Paced (L : DataLoop R) (rate : Nat) (s : LoopState R) (b : TokenBucket) : Prop where
  bucket : s.bucket = some b
  rateBps : b.rateBps = rate
  bytesSent : b.bytesSent = min (L.count s) maxU64
  started : secs s.timer ≤ b.start
  running : b.start ≤ secs s.clock
  lead : 0 < rate → lead b.byteRate b.bytesSent (secs s.clock - b.start) ≤ L.len

namespace Paced

variable {s : LoopState R} {b : TokenBucket} {rate : Nat}

theorem start (hrate : L.rate = some rate) (timer setup : Nat) :
    ∃ b, L.Paced rate (L.start timer setup) b := by
  refine ⟨.new rate (secs (timer + setup)), ?_, rfl, ?_, secs_le_secs (Nat.le_add_right _ _),
    le_refl _, fun _ => ?_⟩
  · show L.rate.map _ = _
    rw [hrate]
    rfl
  · rw [L.count_start]
    rfl
  · show RateMeter.lead _ ((0 : Nat) : ℚ) (secs (timer + setup) - secs (timer + setup)) ≤ _
    rw [RateMeter.lead, sub_self, mul_zero, sub_zero, Nat.cast_zero]
    exact Nat.cast_nonneg _

theorem after (h : L.Paced rate s b) (d : Nat) : L.Paced rate (s.after d) b := by
  have hlater : secs s.clock ≤ secs (s.after d).clock := secs_le_secs (Nat.le_add_right _ _)
  refine ⟨h.bucket, h.rateBps, h.bytesSent, h.started, le_trans h.running hlater, fun hpos => ?_⟩
  have hrate : 0 ≤ b.byteRate := (TokenBucket.byteRate_pos (h.rateBps ▸ hpos)).le
  exact le_trans (lead_le_of_le hrate (sub_le_sub_right hlater b.start)) (h.lead hpos)

theorem called (h : L.Paced rate s b) (t : Turn) : L.Paced rate (L.called t s) b := by
  have hlater := ((h.after t.beforeTest).after t.beforePace).after t.inCall
  exact ⟨hlater.bucket, hlater.rateBps, hlater.bytesSent, hlater.started, hlater.running,
    hlater.lead⟩

/-- The pacer of a reached state is its bucket. -/
theorem wait_eq (h : L.Paced rate s b) : s.wait = b.wait (secs s.clock) := by
  rw [LoopState.wait, h.bucket]
  rfl

/-- Without a pause there is no lead. -/
theorem bytesSent_le (h : L.Paced rate s b) (hpos : 0 < rate) (hwait : s.wait = none) :
    (b.bytesSent : ℚ) ≤ b.byteRate * (secs s.clock - b.start) := by
  rw [h.wait_eq, TokenBucket.wait_eq_none_iff (h.rateBps ▸ hpos),
    TokenBucket.elapsed_of_le h.running] at hwait
  exact hwait

/-- **A transfer**: made without a lead, it leaves a lead of at most itself. -/
theorem moved (h : L.Paced rate s b) {t : Turn} (hcalls : L.Calls t s) {n : Nat}
    (hlen : n ≤ L.len) : L.Paced rate (L.moved n (L.called t s)) (b.record n) := by
  have hcalled := h.called t
  have hcount : L.count (L.moved n (L.called t s)) = L.count s + n := L.count_moved n (L.called t s)
  refine ⟨congrArg (Option.map _) hcalled.bucket, h.rateBps, ?_, hcalled.started, hcalled.running,
    fun hpos => ?_⟩
  · rw [hcount]
    show saturatingAdd64 b.bytesSent n = _
    rw [h.bytesSent, saturatingAdd64, maxU64]
    omega
  · have hrate : 0 ≤ b.byteRate := (TokenBucket.byteRate_pos (h.rateBps ▸ hpos)).le
    have hpaced := (h.after t.beforeTest).after t.beforePace
    have hnow := hpaced.bytesSent_le hpos hcalls.wait
    have hdone : secs ((s.after t.beforeTest).after t.beforePace).clock ≤
        secs (L.called t s).clock := secs_le_secs (Nat.le_add_right _ _)
    have hbefore : RateMeter.lead b.byteRate (b.bytesSent : ℚ)
        (secs (L.called t s).clock - b.start) ≤ 0 :=
      le_trans (lead_le_of_le hrate (sub_le_sub_right hdone b.start)) (sub_nonpos.mpr hnow)
    have hrecorded : ((b.record n).bytesSent : ℚ) ≤ b.bytesSent + n := by
      exact_mod_cast TokenBucket.bytesSent_record_le b n
    exact le_trans (sub_le_sub_right hrecorded _) (lead_send hbefore (by exact_mod_cast hlen))

/-- A pause follows a transfer. -/
theorem sent_of_wait (h : L.Paced rate s b) {d : ℚ} (hwait : b.wait (secs s.clock) = some d) :
    b.bytesSent ≠ 0 := by
  intro hzero
  have hpos := TokenBucket.rateBps_pos_of_wait hwait
  obtain ⟨hlead, -⟩ := TokenBucket.wait_eq_some hpos hwait
  rw [TokenBucket.elapsed_of_le h.running, hzero, Nat.cast_zero] at hlead
  have hdue := mul_nonneg (TokenBucket.byteRate_pos hpos).le (sub_nonneg.mpr h.running)
  unfold RateMeter.lead at hlead
  linarith

/-- The lead is at most a packet at every later moment. -/
theorem lead_le (h : L.Paced rate s b) (hpos : 0 < rate) {now : Nat} (hnow : s.clock ≤ now) :
    RateMeter.lead b.byteRate b.bytesSent (secs now - b.start) ≤ L.len := by
  have hrate : 0 ≤ b.byteRate := (TokenBucket.byteRate_pos (h.rateBps ▸ hpos)).le
  have hlater : secs s.clock - b.start ≤ secs now - b.start :=
    sub_le_sub_right (secs_le_secs hnow) b.start
  exact le_trans (lead_le_of_le hrate hlater) (h.lead hpos)

end Paced

theorem Reachable.paced {rate : Nat} (hrate : L.rate = some rate) {s : LoopState R}
    (h : L.Reachable s) : ∃ b, L.Paced rate s b := by
  refine h.invariant (P := fun s => ∃ b, L.Paced rate s b) (Paced.start hrate) ?_ ?_ ?_
  · rintro s d ⟨b, hb⟩
    exact ⟨b, hb.after d⟩
  · rintro t s ⟨b, hb⟩ _
    exact ⟨b, hb.called t⟩
  · rintro t s n ⟨b, hb⟩ hcalls - hlen
    exact ⟨_, hb.moved hcalls hlen⟩

/-! ## The bound -/

/-- The rate is kept up to one packet: the bytes recorded before a datagram are within the rate; at
    every moment they are within the rate and one packet; and every pause is positive, at most what
    a packet is worth, and long enough. -/
def PacingBound (L : DataLoop R) (rate : Nat) : Prop :=
  ∀ s, L.Reachable s → ∃ b : TokenBucket, s.bucket = some b ∧ b.rateBps = rate ∧
    b.bytesSent = min (L.count s) maxU64 ∧
    (∀ t u, L.turn t s = .next u → u.log ≠ s.log →
      (b.bytesSent : ℚ) ≤ rate / 8 * (secs (s.clock + t.beforeTest + t.beforePace) - b.start)) ∧
    (∀ now, s.clock ≤ now → (b.bytesSent : ℚ) ≤ rate / 8 * (secs now - b.start) + L.len) ∧
    ∀ now d, s.clock ≤ now → b.wait (secs now) = some d →
      0 < d ∧ d ≤ 8 * L.len / rate ∧ b.wait (secs now + d) = none

/-- Only a call adds to the log. -/
theorem calls_of_log_ne {t : Turn} {s u : LoopState R} (hnext : L.turn t s = .next u)
    (hne : u.log ≠ s.log) : L.Calls t s := by
  cases pass_of_next hnext with
  | pauses hgo hwait => exact absurd rfl hne
  | moves hcalls hout hpos => exact hcalls
  | nothing hcalls hout hzero hends => exact hcalls
  | again hcalls hout hretry => exact hcalls

theorem pacingBound {rate : Nat} (hrate : L.rate = some rate) (hpos : 0 < rate) :
    L.PacingBound rate := by
  intro s hreach
  obtain ⟨b, hb⟩ := hreach.paced hrate
  have hbyteRate : b.byteRate = (rate : ℚ) / 8 := by rw [TokenBucket.byteRate, hb.rateBps]
  have hbpos : 0 < b.byteRate := TokenBucket.byteRate_pos (hb.rateBps ▸ hpos)
  refine ⟨b, hb.bucket, hb.rateBps, hb.bytesSent, ?_, ?_, ?_⟩
  · intro t u hnext hne
    have hcalls := calls_of_log_ne hnext hne
    rw [← hbyteRate]
    exact ((hb.after t.beforeTest).after t.beforePace).bytesSent_le hpos hcalls.wait
  · intro now hnow
    rw [← hbyteRate]
    exact sub_le_iff_le_add'.mp (hb.lead_le hpos hnow)
  · intro now d hnow hd
    have hstart : b.start ≤ secs now := le_trans hb.running (secs_le_secs hnow)
    obtain ⟨hlead, rfl⟩ := TokenBucket.wait_eq_some (hb.rateBps ▸ hpos) hd
    have hbound := hb.lead_le hpos hnow
    rw [← TokenBucket.elapsed_of_le hstart] at hbound
    refine ⟨pause_pos hbpos hlead, ?_, TokenBucket.wait_after_sleep hstart hd⟩
    calc pause b.byteRate b.bytesSent (b.elapsed (secs now))
        ≤ L.len / b.byteRate := pause_le hbpos hbound
      _ = 8 * L.len / rate := by
        rw [hbyteRate, div_div_eq_mul_div, mul_comm]

/-- **A pause is a `Duration`**: `Duration::from_secs_f64` panics on negative numbers and from
    `2 ^ 64` seconds on. -/
theorem Reachable.pause_fits {rate : Nat} (hrate : L.rate = some rate) (hlen : L.len < 2 ^ 32)
    {s : LoopState R} (h : L.Reachable s) {t : Turn} {d : ℚ}
    (hwait : ((s.after t.beforeTest).after t.beforePace).wait = some d) : 0 < d ∧ d < 2 ^ 64 := by
  obtain ⟨b, hb⟩ := h.paced hrate
  rw [((hb.after t.beforeTest).after t.beforePace).wait_eq] at hwait
  have hpos : 0 < rate := hb.rateBps ▸ TokenBucket.rateBps_pos_of_wait hwait
  obtain ⟨b', hbucket, -, -, -, -, hpause⟩ := pacingBound hrate hpos s h
  rw [hb.bucket] at hbucket
  cases hbucket
  have hlater : s.clock ≤ ((s.after t.beforeTest).after t.beforePace).clock :=
    (Nat.le_add_right _ _).trans (Nat.le_add_right _ _)
  obtain ⟨hd, hle, -⟩ := hpause _ d hlater hwait
  refine ⟨hd, ?_⟩
  -- at one bit per second a packet is worth the most
  have hrate1 : (1 : ℚ) ≤ rate := by exact_mod_cast hpos
  have hpacket : (L.len : ℚ) < 2 ^ 32 := by exact_mod_cast hlen
  have hworth : (8 * L.len : ℚ) / rate ≤ 8 * L.len :=
    div_le_self (by positivity) hrate1
  linarith

end DataLoop

/-- **The UDP senders keep their rate**, up to one packet. -/
theorem udp_pacing_bound :
    (∀ cfg streamId, 0 < cfg.bandwidth →
      (startUdpLoop cfg streamId).PacingBound cfg.bandwidth) ∧
    ∀ opts streamId, 0 < opts.bandwidth →
      (runUdpSendStreamsLoop opts streamId).PacingBound opts.bandwidth :=
  ⟨fun _ _ hpos => DataLoop.pacingBound rfl hpos, fun _ _ hpos => DataLoop.pacingBound rfl hpos⟩

namespace DataLoop

variable {R : Type} {L : DataLoop R}

/-! ## Runs without delays -/

theorem goesOn_of {s : LoopState R} {D : Nat} (hbudget : L.budget = some D)
    (htime : s.clock - s.timer < D) (hlen : 0 < L.len)
    (hlimit : limitReached L.len L.maxBytes L.maxBlocks (L.count s) = false) : L.GoesOn s := by
  obtain ⟨hbytes, hblocks⟩ := (Bool.or_eq_false_iff).mp hlimit
  refine ⟨?_, Bool.eq_false_iff.mp hbytes, ?_, Bool.eq_false_iff.mp hblocks⟩
  · rw [isElapsed, hbudget]
    exact fun h => Nat.not_le.mpr htime (of_decide_eq_true h)
  · rw [Bool.and_eq_true, decide_eq_true_iff]
    exact fun h => Nat.ne_of_gt hlen h.2

theorem GoesOn.lt_budget {s : LoopState R} (h : L.GoesOn s) {D : Nat}
    (hbudget : L.budget = some D) : s.clock - s.timer < D := by
  have htime := h.time
  rw [isElapsed, hbudget] at htime
  exact Nat.not_le.mp fun hle => htime (decide_eq_true hle)

/-! ## Whole datagrams -/

/-- A send on a datagram socket takes the whole packet or fails. -/
def Whole (L : DataLoop R) (t : Turn) : Prop := ∀ n, t.outcome = .ok n → L.len ≤ n

/-- The states at the top of the body, over all runs in which the sends do so. -/
def ReachableWhole (L : DataLoop R) (s : LoopState R) : Prop :=
  ∃ timer setup, Reaches (fun t : { t : Turn // L.Whole t } => L.turn t.val) (L.start timer setup) s

theorem ReachableWhole.reachable {s : LoopState R} (h : L.ReachableWhole s) : L.Reachable s := by
  obtain ⟨timer, setup, hreach⟩ := h
  exact ⟨timer, setup, hreach.invariant (fun t u v hu hnext => hu.next hnext) .refl⟩

/-- Nothing has been sent, or a whole packet. -/
theorem ReachableWhole.len_le_count {s : LoopState R} (h : L.ReachableWhole s) :
    L.count s = 0 ∨ L.len ≤ L.count s := by
  obtain ⟨timer, setup, hreach⟩ := h
  refine hreach.invariant (P := fun s => L.count s = 0 ∨ L.len ≤ L.count s) ?_
    (.inl (L.count_start timer setup))
  intro t u v hu hnext
  cases pass_of_next hnext with
  | pauses hgo hwait => exact hu
  | moves hcalls hout hpos =>
    rw [Nat.min_eq_right (t.property _ hout), L.count_moved]
    exact .inr (Nat.le_add_left _ _)
  | nothing hcalls hout hzero hends => exact hu
  | again hcalls hout hretry => exact hu

/-- A packet sent in no time. -/
theorem ReachableWhole.send {s : LoopState R} (h : L.ReachableWhole s) (hgo : L.GoesOn s)
    (hwait : s.wait = none) (hlen : 0 < L.len) :
    L.ReachableWhole (L.moved L.len (L.call s)) := by
  obtain ⟨timer, setup, hreach⟩ := h
  have hmin : min L.len L.len = L.len := Nat.min_self _
  have hturn := turn_of_transfer (t := ⟨0, 0, 0, .ok L.len⟩) ⟨hgo, hwait⟩ rfl (hmin.symm ▸ hlen)
  rw [hmin] at hturn
  have hwhole : L.Whole ⟨0, 0, 0, .ok L.len⟩ := by
    intro n hn
    cases hn
    exact Nat.le_refl _
  exact ⟨timer, setup, hreach.next (t := ⟨_, hwhole⟩) hturn⟩

theorem limitReached_mono {len : Nat} {maxBytes maxBlocks : Option Nat} {m n : Nat} (hmn : m ≤ n)
    (h : limitReached len maxBytes maxBlocks n = false) :
    limitReached len maxBytes maxBlocks m = false := by
  obtain ⟨hbytes, hblocks⟩ := (Bool.or_eq_false_iff).mp h
  refine (Bool.or_eq_false_iff).mpr ⟨?_, ?_⟩
  · cases maxBytes with
    | none => rfl
    | some N =>
      have hN : ¬ N ≤ n := of_decide_eq_false hbytes
      exact decide_eq_false fun hle => hN (Nat.le_trans hle hmn)
  · cases maxBlocks with
    | none => rfl
    | some K =>
      have hK : ¬ K ≤ n / len := of_decide_eq_false hblocks
      exact decide_eq_false fun hle => hK (Nat.le_trans hle (Nat.div_le_div_right hmn))

/-! ## Pauses and the end of the test -/

/-- No pause of any run ends after the time `D` of the test: wherever the loop test has passed and
    the pacer asks for a pause, the pause is at most the time that remains. -/
def NeverOversleeps (L : DataLoop R) (D : Nat) : Prop :=
  ∀ s, L.ReachableWhole s → ∀ (t : Turn) (d : ℚ), L.GoesOn (s.after t.beforeTest) →
    ((s.after t.beforeTest).after t.beforePace).wait = some d →
    d ≤ secs (s.timer + D) - secs (s.clock + t.beforeTest + t.beforePace)

section Oversleep

variable {rate D : Nat} (hrate : L.rate = some rate) (hpos : 0 < rate)
  (hbudget : L.budget = some D)
include hrate hpos hbudget

/-- The last packet before a pause was sent before the end; if it is worth at most a nanosecond, the
    pause ends with the test at the latest. -/
theorem pause_le_remaining {s : LoopState R} (hreach : L.Reachable s) {t : Turn} {d : ℚ}
    (hgo : L.GoesOn (s.after t.beforeTest))
    (hwait : ((s.after t.beforeTest).after t.beforePace).wait = some d)
    (hworth : 8 * nanos * L.len ≤ rate) :
    d ≤ secs (s.timer + D) - secs (s.clock + t.beforeTest + t.beforePace) := by
  obtain ⟨b, hb⟩ := hreach.paced hrate
  have hb' := (hb.after t.beforeTest).after t.beforePace
  have hbpos : 0 < b.byteRate := TokenBucket.byteRate_pos (hb.rateBps ▸ hpos)
  rw [hb'.wait_eq] at hwait
  have hend := TokenBucket.wait_end hb'.running hwait
  -- the test has passed, so at least a nanosecond remains
  have htime : s.clock + 1 ≤ s.timer + D := by
    have hpassed : s.clock + t.beforeTest - s.timer < D := hgo.lt_budget hbudget
    omega
  have hsecs : secs s.clock + secs 1 ≤ secs (s.timer + D) := by
    rw [← secs_add]
    exact secs_le_secs htime
  have hlast := hb.lead hpos
  have hns : (L.len : ℚ) / b.byteRate ≤ secs 1 := by
    rw [div_le_iff₀ hbpos, TokenBucket.byteRate, hb.rateBps, secs]
    have hcast : (8 * nanos * L.len : ℚ) ≤ rate := by exact_mod_cast hworth
    have hnanos : (0 : ℚ) < nanos := by unfold nanos; norm_num
    field_simp
    push_cast
    linarith
  have hdue : (b.bytesSent : ℚ) / b.byteRate ≤ secs s.clock - b.start + L.len / b.byteRate := by
    rw [div_le_iff₀ hbpos, add_mul, div_mul_cancel₀ _ hbpos.ne']
    unfold RateMeter.lead at hlast
    linarith
  have hclock : secs ((s.after t.beforeTest).after t.beforePace).clock =
      secs (s.clock + t.beforeTest + t.beforePace) := rfl
  rw [hclock] at hend
  linarith

end Oversleep

/-- The first packet of a run, sent as soon as the bucket exists. -/
theorem ReachableWhole.firstPacket {rate D : Nat} (hrate : L.rate = some rate) (hpos : 0 < rate)
    (hbudget : L.budget = some D) {setup : Nat} (hsetup : setup < D) (hlen : 0 < L.len)
    (hlimit : limitReached L.len L.maxBytes L.maxBlocks L.len = false) (hmax : L.len < 2 ^ 64) :
    ∃ s, L.ReachableWhole s ∧ s.timer = 0 ∧ s.clock = setup ∧ L.GoesOn s ∧
      s.wait = some ((8 * L.len : ℚ) / rate) := by
  have hstart : L.ReachableWhole (L.start 0 setup) := ⟨0, setup, .refl⟩
  have htime : (L.start 0 setup).clock - (L.start 0 setup).timer < D := by
    show 0 + setup - 0 < D
    omega
  have hgo : L.GoesOn (L.start 0 setup) := by
    refine goesOn_of hbudget htime hlen ?_
    rw [L.count_start]
    exact limitReached_mono (Nat.zero_le _) hlimit
  have hbucket : (L.start 0 setup).bucket = some (.new rate (secs (0 + setup))) := by
    show L.rate.map _ = _
    rw [hrate]
    rfl
  have hwait : (L.start 0 setup).wait = none := by
    rw [LoopState.wait, hbucket]
    show TokenBucket.wait _ _ = none
    rw [TokenBucket.wait_eq_none_iff hpos]
    show ((0 : Nat) : ℚ) ≤ _
    rw [Nat.cast_zero]
    exact mul_nonneg (TokenBucket.byteRate_pos hpos).le (le_max_left _ _)
  refine ⟨_, hstart.send hgo hwait hlen, rfl, Nat.zero_add setup, ?_, ?_⟩
  · refine goesOn_of hbudget htime hlen ?_
    rw [count_moved]
    show limitReached _ _ _ (L.count (L.start 0 setup) + L.len) = false
    rw [L.count_start, Nat.zero_add]
    exact hlimit
  · have hmoved : (L.moved L.len (L.call (L.start 0 setup))).bucket =
        some ((TokenBucket.new rate (secs (0 + setup))).record L.len) :=
      congrArg (Option.map _) hbucket
    rw [LoopState.wait, hmoved]
    exact TokenBucket.wait_first hpos hlen hmax _

/-- Where a limit is reached by one packet, the tests at the top leave no room for a pause. -/
theorem ReachableWhole.limit_not_reached {rate : Nat} (hrate : L.rate = some rate)
    {s : LoopState R} (h : L.ReachableWhole s) {t : Turn} {d : ℚ}
    (hgo : L.GoesOn (s.after t.beforeTest))
    (hwait : ((s.after t.beforeTest).after t.beforePace).wait = some d) :
    limitReached L.len L.maxBytes L.maxBlocks L.len = false := by
  obtain ⟨b, hb⟩ := h.reachable.paced hrate
  have hb' := (hb.after t.beforeTest).after t.beforePace
  rw [hb'.wait_eq] at hwait
  have hsent := hb'.sent_of_wait hwait
  have hlen : L.len ≤ L.count s := by
    refine h.len_le_count.resolve_left fun hzero => hsent ?_
    rw [hb.bytesSent, hzero, Nat.zero_min]
  have hlimit : limitReached L.len L.maxBytes L.maxBlocks (L.count s) = false :=
    (Bool.or_eq_false_iff).mpr
      ⟨Bool.eq_false_iff.mpr hgo.bytes, Bool.eq_false_iff.mpr hgo.blocks⟩
  exact limitReached_mono hlen hlimit

/-- **When no pause reaches beyond the end of the test.** -/
theorem neverOversleeps_iff {rate D : Nat} (hrate : L.rate = some rate)
    (hbudget : L.budget = some D) (hlen : 0 < L.len) (hmax : L.len < 2 ^ 64) :
    L.NeverOversleeps D ↔ rate = 0 ∨ D = 0 ∨
      limitReached L.len L.maxBytes L.maxBlocks L.len = true ∨ 8 * nanos * L.len ≤ rate := by
  constructor
  · intro hnever
    rcases Nat.eq_zero_or_pos rate with hzero | hpos
    · exact .inl hzero
    rcases Nat.eq_zero_or_pos D with hD | hD
    · exact .inr (.inl hD)
    refine .inr (.inr (Bool.eq_false_or_eq_true _ |>.imp_right fun hlimit => ?_))
    -- the first packet, sent in the last nanosecond of the test
    obtain ⟨s, hreach, htimer, hclock, hgo, hwait⟩ :=
      ReachableWhole.firstPacket hrate hpos hbudget (Nat.sub_one_lt_of_lt hD) hlen hlimit hmax
    have hle := hnever s hreach ⟨0, 0, 0, .ok 0⟩ _ hgo hwait
    have hremain : secs (s.timer + D) - secs (s.clock + 0 + 0) = secs 1 := by
      have hsum : s.timer + D = s.clock + 0 + 0 + 1 := by omega
      rw [hsum, secs_add, add_sub_cancel_left]
    rw [hremain, secs, div_le_div_iff₀ (Nat.cast_pos.mpr hpos) (by unfold nanos; norm_num)] at hle
    have hcast : ((8 * nanos * L.len : Nat) : ℚ) ≤ rate := by
      rw [Nat.cast_one, one_mul] at hle
      push_cast
      linarith
    exact_mod_cast hcast
  · intro h s hreach t d hgo hwait
    have hpos : 0 < rate := by
      obtain ⟨b, hb⟩ := hreach.reachable.paced hrate
      rw [((hb.after t.beforeTest).after t.beforePace).wait_eq] at hwait
      exact hb.rateBps ▸ TokenBucket.rateBps_pos_of_wait hwait
    have hlt := hgo.lt_budget hbudget
    have hlimit := hreach.limit_not_reached hrate hgo hwait
    have hworth := ((h.resolve_left (Nat.ne_of_gt hpos)).resolve_left (by omega)).resolve_left
      (Bool.eq_false_iff.mp hlimit)
    exact pause_le_remaining hrate hpos hbudget hreach.reachable hgo hwait hworth

end DataLoop

/-- **Sleeping within the test.**  Over all runs in which a send takes the whole packet or fails,
    the pauses of the server's sender end with the test exactly when there is no time to send at
    all, or the peer's rate moves a packet in a nanosecond; those of the client's sender also when
    it is not paced, or when one packet reaches a limit, so that the loop ends before the pacer is
    asked again. (A packet shorter than the header does not get to the loop.) -/
theorem sleeps_within_test_iff (opts : ClientOptions) (cfg : Config) (streamId : Nat) :
    (validateOptions opts = .ok () → opts.udp = true → opts.reverse = true → 0 < opts.bandwidth →
      ((runUdpSendStreamsLoop opts streamId).NeverOversleeps
          (totalDuration opts.time opts.omitSecs) ↔
        opts.time + opts.omitSecs = 0 ∨ 8 * nanos * reverseLen opts ≤ opts.bandwidth)) ∧
    (udpHeaderLen ≤ cfg.len → cfg.len < 2 ^ 32 →
      ((startUdpLoop cfg streamId).NeverOversleeps (totalDuration cfg.time cfg.omitSecs) ↔
        cfg.bandwidth = 0 ∨ totalDuration cfg.time cfg.omitSecs = 0 ∨
        limitReached cfg.len cfg.totalBytes cfg.totalBlocks cfg.len = true ∨
        8 * nanos * cfg.len ≤ cfg.bandwidth)) := by
  constructor
  · intro hvalid _ _ hpos
    obtain ⟨-, ⟨-, hlen⟩, htime, homit⟩ := (validateOptions_ok_iff opts).mp hvalid
    unfold maxPayloadLen at hlen
    unfold maxTestDurationSecs at htime
    unfold maxOmitSecs at homit
    have hmax : reverseLen opts < 2 ^ 64 := by
      unfold reverseLen udpHeaderLen
      omega
    have hheader : 0 < reverseLen opts := Nat.lt_of_lt_of_le (by decide) (Nat.le_max_right _ _)
    have hduration : totalDuration opts.time opts.omitSecs = 0 ↔ opts.time + opts.omitSecs = 0 := by
      unfold totalDuration fromSecs nanos
      omega
    rw [DataLoop.neverOversleeps_iff rfl rfl hheader hmax, hduration,
      or_iff_right (Nat.ne_of_gt hpos)]
    -- the server's sender has no limits
    exact or_congr_right (or_iff_right Bool.false_ne_true)
  · intro hheader hlen
    have hpos : 0 < cfg.len := Nat.lt_of_lt_of_le (by decide) hheader
    exact DataLoop.neverOversleeps_iff rfl rfl hpos (Nat.lt_trans hlen (by norm_num))

/-- A reverse test of ten seconds at the given rate, with packets that fit an Ethernet frame. -/
def pacedOptions (bandwidth : Nat) : ClientOptions :=
  { ClientOptions.tcpDefaults 10 1 1460 with
    tcp := false, udp := true, reverse := true, bandwidth := bandwidth }

/-- Its sender after the first datagram. -/
theorem reachable_pacedOptions {bandwidth : Nat} (hpos : 0 < bandwidth) :
    ∃ s, (runUdpSendStreamsLoop (pacedOptions bandwidth) 1).ReachableWhole s ∧
      (runUdpSendStreamsLoop (pacedOptions bandwidth) 1).GoesOn s ∧ s.timer = 0 ∧ s.clock = 0 ∧
      s.wait = some ((11680 : ℚ) / bandwidth) := by
  obtain ⟨s, hreach, htimer, hclock, hgo, hwait⟩ :=
    DataLoop.ReachableWhole.firstPacket (L := runUdpSendStreamsLoop (pacedOptions bandwidth) 1) rfl
      hpos rfl (show 0 < totalDuration 10 0 by decide) (show 0 < 1460 by decide) rfl
      (show 1460 < 2 ^ 64 by decide)
  refine ⟨s, hreach, hgo, htimer, hclock, hwait.trans ?_⟩
  show some ((8 * (1460 : Nat) : ℚ) / bandwidth) = _
  norm_num

/-- The server accepts a rate of one bit per second; after its first datagram, with ten seconds to
    go, the sender sleeps for more than three hours. -/
theorem sender_sleeps_for_hours :
    validateOptions (pacedOptions 1) = .ok () ∧
    ∃ s, (runUdpSendStreamsLoop (pacedOptions 1) 1).ReachableWhole s ∧
      (runUdpSendStreamsLoop (pacedOptions 1) 1).GoesOn s ∧ s.timer = 0 ∧ s.clock = 0 ∧
      s.wait = some 11680 ∧ secs (fromSecs 10) < 11680 := by
  obtain ⟨s, hreach, hgo, htimer, hclock, hwait⟩ := reachable_pacedOptions Nat.one_pos
  refine ⟨rfl, s, hreach, hgo, htimer, hclock, ?_, ?_⟩
  · rw [hwait]
    norm_num
  · norm_num [secs, fromSecs, nanos]

theorem sleeps_within_test_iff_oneBit :
    ¬ (runUdpSendStreamsLoop (pacedOptions 1) 1).NeverOversleeps
      (totalDuration (pacedOptions 1).time (pacedOptions 1).omitSecs) := by
  rw [(sleeps_within_test_iff (pacedOptions 1) (.withHost "localhost") 1).1 rfl rfl rfl (by decide)]
  decide

/-- At a megabit per second a packet of 1460 bytes is worth a pause of 11.68 ms. -/
theorem udp_pacing_bound_oneMegabit :
    ∃ s b d, (runUdpSendStreamsLoop (pacedOptions 1000000) 1).Reachable s ∧
      s.bucket = some b ∧ b.wait (secs s.clock) = some d ∧ 0 < d ∧
      d ≤ 8 * (1460 : Nat) / (1000000 : Nat) ∧ b.wait (secs s.clock + d) = none := by
  obtain ⟨s, hreach, -, -, -, hwait⟩ :=
    reachable_pacedOptions (show 0 < 1000000 by decide)
  obtain ⟨b, hb, -, -, -, -, hpause⟩ :=
    udp_pacing_bound.2 (pacedOptions 1000000) 1 (by decide) s hreach.reachable
  rw [LoopState.wait, hb] at hwait
  exact ⟨s, b, _, hreach.reachable, hb, hwait, hpause s.clock _ (Nat.le_refl _) hwait⟩

end Rperf3
