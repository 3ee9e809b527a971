/-
  THE RATE IS REACHED: `Stream::start_udp` and `run_udp_send_streams` on a machine that keeps up.

  `Transfer/PacedSend` bounds the paced senders from above: never more than a packet ahead of the
  schedule.  Here the other side.  Nothing can be said about a machine that stalls, so the passes
  are `Swift`: apart from the pause itself they take at most `δ`, and the call takes the whole
  packet; and a packet is worth at least `δ` at the rate asked for.

  1. `OnPace` — the invariant: the lag behind the schedule is at most what `δ` and the rounding of a
     pause to whole nanoseconds are worth.  A transfer takes no longer than it is worth, and a pause
     is asked for only without a lag and ends where the schedule catches up.
  2. `OnPace.inside` — inside a pass the lag grows by another `δ` at most.
  3. `udp_rate_reached` — hence the byte count follows the schedule at every moment, and a test that
     runs out of time has moved what the rate makes of its duration, counted from the start of the
     bucket, up to two delays.
-/
import Rperf3.Transfer.PacedSend

namespace Rperf3

open Turns RateMeter

/-- A pass that takes at most `δ` (its pause aside) and whose call takes the whole packet. -/
structure Turn.Swift (t : Turn) (len δ : Nat) : Prop where
  delay : t.beforeTest + t.beforePace + t.inCall ≤ δ
  whole : ∃ m, t.outcome = .ok m ∧ len ≤ m

theorem secs_sleepNanos_le {d : ℚ} (hd : 0 ≤ d) : secs (sleepNanos d) ≤ d + secs 1 := by
  have hnanos : (0 : ℚ) < nanos := by unfold nanos; norm_num
  have hdue : 0 ≤ d * nanos := mul_nonneg hd hnanos.le
  have hfloor : ((sleepNanos d : Nat) : ℚ) ≤ d * nanos + 1 / 2 := Nat.floor_le (by linarith)
  unfold secs
  rw [div_le_iff₀ hnanos, add_mul, div_mul_cancel₀ _ hnanos.ne', Nat.cast_one]
  linarith

theorem le_of_secs_le {m n : Nat} (h : secs m ≤ secs n) : m ≤ n := by
  have hnanos : (0 : ℚ) < nanos := by unfold nanos; norm_num
  unfold secs at h
  rw [div_le_div_iff_of_pos_right hnanos] at h
  exact_mod_cast h

namespace DataLoop

variable {R : Type} {L : DataLoop R}

/-- The sender that started its bucket at `origin` is at most `δ` and a nanosecond behind. -/
structure OnPace (L : DataLoop R) (rate δ timer origin : Nat) (s : LoopState R) (b : TokenBucket) :
    Prop extends L.Paced rate s b where
  timer : s.timer = timer
  origin : b.start = secs origin
  lag : -(b.byteRate * secs (δ + 1)) ≤
    RateMeter.lead b.byteRate (L.count s) (secs s.clock - b.start)

namespace OnPace

variable {rate δ timer origin : Nat} {s : LoopState R} {b : TokenBucket} {t : Turn}

theorem byteRate_nonneg (b : TokenBucket) : 0 ≤ b.byteRate :=
  div_nonneg (Nat.cast_nonneg _) (by norm_num)

theorem secs_nonneg (n : Nat) : 0 ≤ secs n := div_nonneg (Nat.cast_nonneg _) (Nat.cast_nonneg _)

theorem start (hrate : L.rate = some rate) (timer setup : Nat) :
    ∃ b, L.OnPace rate δ timer (timer + setup) (L.start timer setup) b := by
  obtain ⟨b, hb⟩ := Paced.start hrate timer setup
  have hbucket : (L.start timer setup).bucket = some (.new rate (secs (timer + setup))) := by
    show L.rate.map _ = _
    rw [hrate]
    rfl
  obtain rfl := Option.some.inj (hbucket.symm.trans hb.bucket)
  refine ⟨_, hb, rfl, rfl, ?_⟩
  have hzero : RateMeter.lead (TokenBucket.new rate (secs (timer + setup))).byteRate
      (L.count (L.start timer setup) : ℚ)
      (secs (timer + setup) - secs (timer + setup)) = 0 := by
    rw [L.count_start, sub_self, Nat.cast_zero, RateMeter.lead, mul_zero, sub_zero]
  refine le_of_le_of_eq ?_ hzero.symm
  exact neg_nonpos.mpr (mul_nonneg (byteRate_nonneg _) (secs_nonneg _))

/-- **A pause** ends where the schedule catches up, or a delay later. -/
theorem pauses (h : L.OnPace rate δ timer origin s b) (ht : t.Swift L.len δ) {d : ℚ}
    (hwait : ((s.after t.beforeTest).after t.beforePace).wait = some d) :
    L.OnPace rate δ timer origin
      (((s.after t.beforeTest).after t.beforePace).after (sleepNanos d + t.inCall)) b := by
  have hb := (h.toPaced.after t.beforeTest).after t.beforePace
  rw [hb.wait_eq] at hwait
  have hpos := TokenBucket.rateBps_pos_of_wait hwait
  have hrate := TokenBucket.byteRate_pos hpos
  obtain ⟨hlead, hd⟩ := TokenBucket.wait_eq_some hpos hwait
  rw [TokenBucket.elapsed_of_le hb.running] at hlead hd
  subst hd
  have hdpos := pause_pos hrate hlead
  refine ⟨hb.after _, h.timer, h.origin, ?_⟩
  -- the pause is rounded to whole nanoseconds, and the thread wakes up within `δ`
  have hlate : ∀ sleep : Nat, secs sleep ≤ pause b.byteRate b.bytesSent
        (secs (s.clock + t.beforeTest + t.beforePace) - b.start) + secs 1 →
      secs (s.clock + t.beforeTest + t.beforePace + (sleep + t.inCall)) - b.start ≤
        secs (s.clock + t.beforeTest + t.beforePace) - b.start + pause b.byteRate b.bytesSent
          (secs (s.clock + t.beforeTest + t.beforePace) - b.start) + secs (δ + 1) := by
    intro sleep hsleep
    have hcall : secs t.inCall ≤ secs δ := secs_le_secs (by have := ht.delay; omega)
    rw [secs_add _ (sleep + t.inCall), secs_add sleep, secs_add δ]
    linarith
  have hlag := lag_after_pause hrate (hlate _ (secs_sleepNanos_le hdpos.le))
  have hsent : (b.bytesSent : ℚ) ≤ L.count s := by
    rw [h.bytesSent]
    exact_mod_cast Nat.min_le_left _ _
  exact le_trans hlag (sub_le_sub_right hsent _)

/-- **A transfer** takes no longer than it is worth. -/
theorem moves (h : L.OnPace rate δ timer origin s b) (hworth : rate * δ ≤ 8 * nanos * L.len)
    (ht : t.Swift L.len δ) (hcalls : L.Calls t s) :
    L.OnPace rate δ timer origin (L.moved L.len (L.called t s)) (b.record L.len) := by
  refine ⟨h.toPaced.moved hcalls (Nat.le_refl _), h.timer, h.origin, ?_⟩
  have hcount : (L.count (L.moved L.len (L.called t s)) : ℚ) = L.count s + L.len := by
    rw [L.count_moved]
    exact Nat.cast_add _ _
  have hclock : secs (L.moved L.len (L.called t s)).clock - b.start =
      secs s.clock - b.start + secs (t.beforeTest + t.beforePace + t.inCall) := by
    have hsum : (L.moved L.len (L.called t s)).clock =
        s.clock + (t.beforeTest + t.beforePace + t.inCall) := by
      show s.clock + t.beforeTest + t.beforePace + t.inCall = _
      omega
    rw [hsum, secs_add]
    ring
  have hpacket : b.byteRate * secs (t.beforeTest + t.beforePace + t.inCall) ≤ L.len := by
    have hdelay := mul_le_mul_of_nonneg_left (secs_le_secs ht.delay) (byteRate_nonneg b)
    refine le_trans hdelay ?_
    have hnanos : (0 : ℚ) < nanos := by unfold nanos; norm_num
    have hcast : (rate : ℚ) * δ ≤ 8 * nanos * L.len := by exact_mod_cast hworth
    unfold TokenBucket.byteRate secs
    rw [h.rateBps, ← mul_div_assoc, div_le_iff₀ hnanos]
    linarith
  show -(b.byteRate * secs (δ + 1)) ≤ RateMeter.lead b.byteRate _ _
  rw [hcount]
  show -(b.byteRate * secs (δ + 1)) ≤ RateMeter.lead b.byteRate _
    (secs (L.moved L.len (L.called t s)).clock - b.start)
  rw [hclock]
  exact lag_send h.lag hpacket

/-- Every swift pass keeps the pace. -/
theorem next (h : L.OnPace rate δ timer origin s b) (hworth : rate * δ ≤ 8 * nanos * L.len)
    (hlen : 0 < L.len) (ht : t.Swift L.len δ) {s' : LoopState R} (hnext : L.turn t s = .next s') :
    ∃ b', L.OnPace rate δ timer origin s' b' := by
  obtain ⟨m, hout, hm⟩ := ht.whole
  have hmin : min m L.len = L.len := Nat.min_eq_right hm
  cases pass_of_next hnext with
  | pauses hgo hwait => exact ⟨b, h.pauses ht hwait⟩
  | moves hcalls hout' hpos =>
    obtain rfl := Except.ok.inj (hout'.symm.trans hout)
    rw [hmin]
    exact ⟨_, h.moves hworth ht hcalls⟩
  | nothing hcalls hout' hzero hends =>
    obtain rfl := Except.ok.inj (hout'.symm.trans hout)
    rw [hmin] at hzero
    exact absurd hlen hzero
  | again hcalls hout' hretry =>
    rw [hout] at hout'
    cases hout'

/-- A pass that ends is a pause, or takes no longer than its delays. -/
theorem pause_or_clock_le {s' : LoopState R}
    (hpass : L.turn t s = .next s' ∨ L.turn t s = .leave s') :
    (∃ d, ((s.after t.beforeTest).after t.beforePace).wait = some d ∧
      s' = ((s.after t.beforeTest).after t.beforePace).after (sleepNanos d + t.inCall)) ∨
    s'.clock ≤ s.clock + (t.beforeTest + t.beforePace + t.inCall) := by
  have hcalled : (L.called t s).clock ≤ s.clock + (t.beforeTest + t.beforePace + t.inCall) := by
    show s.clock + t.beforeTest + t.beforePace + t.inCall ≤ _
    omega
  have htested : (s.after t.beforeTest).clock ≤
      s.clock + (t.beforeTest + t.beforePace + t.inCall) := by
    show s.clock + t.beforeTest ≤ _
    omega
  rcases hpass with hnext | hleave
  · cases pass_of_next hnext with
    | pauses hgo hwait => exact .inl ⟨_, hwait, rfl⟩
    | moves hcalls hout hpos => exact .inr hcalled
    | nothing hcalls hout hzero hends => exact .inr hcalled
    | again hcalls hout hretry => exact .inr hcalled
  · cases pass_of_leave hleave with
    | timeUp htime => exact .inr htested
    | bytesFull htime hbytes => exact .inr htested
    | blocksFull htime hbytes hzero hblocks => exact .inr htested
    | atEnd hcalls hout hzero hends => exact .inr hcalled
    | fails hcalls hout hretry => exact .inr hcalled

/-- **Inside a pass** the lag is at most another delay. -/
theorem inside (h : L.OnPace rate δ timer origin s b) (ht : t.Swift L.len δ) {s' : LoopState R}
    (hpass : L.turn t s = .next s' ∨ L.turn t s = .leave s') {now : Nat} (hnow : now ≤ s'.clock) :
    -(b.byteRate * secs (2 * δ + 1)) ≤
      RateMeter.lead b.byteRate (L.count s) (secs now - b.start) := by
  have hrate := byteRate_nonneg b
  have hdouble : secs (2 * δ + 1) = secs (δ + 1) + secs δ := by
    rw [← secs_add]
    congr 1
    omega
  have hdelta := mul_nonneg hrate (secs_nonneg δ)
  rw [hdouble, mul_add]
  rcases pause_or_clock_le hpass with ⟨d, hwait, rfl⟩ | hclock
  · -- at the end of a pause the lag is one delay, and before it there is less
    have hend := (h.pauses ht hwait).lag
    refine le_trans (by linarith) (le_trans hend (lead_le_of_le hrate ?_))
    exact sub_le_sub_right (secs_le_secs hnow) b.start
  · have hlate : secs now ≤ secs s.clock + secs δ := by
      rw [← secs_add]
      exact secs_le_secs (Nat.le_trans hnow (Nat.le_trans hclock
        (Nat.add_le_add_left ht.delay _)))
    have hlag := h.lag
    have hworth := mul_le_mul_of_nonneg_left hlate hrate
    unfold RateMeter.lead at hlag ⊢
    linarith

end OnPace

/-- On a machine that keeps up, the byte count follows the schedule of the bucket, which starts
    `setup` after the timer: at the top of a pass up to what a delay and a nanosecond are worth, and
    inside a pass up to another delay.  A test that is only ended by its time `D` has moved what the
    rate makes of the time since the bucket was started, up to two delays. -/
def RateReached (L : DataLoop R) (rate : Nat) : Prop :=
  ∀ (δ timer setup : Nat) (turns : List Turn), rate * δ ≤ 8 * nanos * L.len →
    (∀ t ∈ turns, t.Swift L.len δ) →
    (∀ s, through L.turn turns (L.start timer setup) = some s →
      (rate : ℚ) / 8 * (secs s.clock - secs (timer + setup)) ≤
        L.count s + rate / 8 * secs (δ + 1) ∧
      ∀ t s' now, t.Swift L.len δ → L.turn t s = .next s' ∨ L.turn t s = .leave s' →
        s.clock ≤ now → now ≤ s'.clock →
        (rate : ℚ) / 8 * (secs now - secs (timer + setup)) ≤
          L.count s + rate / 8 * secs (2 * δ + 1)) ∧
    ∀ s D, L.run timer setup turns = some (.left s) → L.budget = some D → L.maxBytes = none →
      L.maxBlocks = none →
      (rate : ℚ) / 8 * (secs D - secs setup) ≤ L.count s + rate / 8 * secs (2 * δ + 1)

theorem rateReached {rate : Nat} (hrate : L.rate = some rate) (hlen : 0 < L.len) :
    L.RateReached rate := by
  intro δ timer setup turns hworth hswift
  have hpace : ∀ ts, (∀ t ∈ ts, t.Swift L.len δ) → ∀ s,
      through L.turn ts (L.start timer setup) = some s →
      ∃ b, L.OnPace rate δ timer (timer + setup) s b := by
    intro ts hts s hthrough
    refine through_invariant (P := fun s => ∃ b, L.OnPace rate δ timer (timer + setup) s b) ?_
      hthrough (OnPace.start hrate timer setup)
    rintro t ht u v ⟨b, hb⟩ hnext
    exact hb.next hworth hlen (hts t ht) hnext
  constructor
  · intro s hthrough
    obtain ⟨b, hb⟩ := hpace turns hswift s hthrough
    constructor
    · have hlag := hb.lag
      rw [hb.origin, TokenBucket.byteRate, hb.rateBps] at hlag
      unfold RateMeter.lead at hlag
      linarith
    · intro t s' now ht hpass _ hnow
      have hlag := hb.inside ht hpass hnow
      rw [hb.origin, TokenBucket.byteRate, hb.rateBps] at hlag
      unfold RateMeter.lead at hlag
      linarith
  · intro s D hrun hbudget hbytes hblocks
    obtain ⟨pre, t, post, u, rfl, hthrough, hleave⟩ := loop_left_through hrun
    obtain ⟨b, hb⟩ := hpace pre (fun t' ht' => hswift t' (List.mem_append_left _ ht')) u hthrough
    have ht := hswift t (List.mem_append_right _ List.mem_cons_self)
    obtain ⟨m, hout, hm⟩ := ht.whole
    cases pass_of_leave hleave with
    | timeUp htime =>
      have hdue : timer + D ≤ u.clock + t.beforeTest := by
        rw [isElapsed, hbudget] at htime
        have hle : D ≤ u.clock + t.beforeTest - u.timer := of_decide_eq_true htime
        have hran : u.timer ≤ u.clock := le_of_secs_le (hb.started.trans hb.running)
        rw [hb.timer] at hle hran
        omega
      have hlag := hb.inside ht (.inr hleave) hdue
      rw [hb.origin, TokenBucket.byteRate, hb.rateBps] at hlag
      unfold RateMeter.lead at hlag
      rw [secs_add timer D, secs_add timer setup] at hlag
      show (rate : ℚ) / 8 * (secs D - secs setup) ≤ (L.count u : ℚ) + rate / 8 * secs (2 * δ + 1)
      linarith
    | bytesFull htime hfull =>
      rw [hbytes] at hfull
      cases hfull
    | blocksFull htime hfull hzero hblocks' =>
      rw [hblocks] at hblocks'
      cases hblocks'
    | atEnd hcalls hout' hzero hends =>
      obtain rfl := Except.ok.inj (hout'.symm.trans hout)
      exact absurd (Nat.lt_min.mpr ⟨Nat.lt_of_lt_of_le hlen hm, hlen⟩) hzero
    | fails hcalls hout' hretry =>
      rw [hout] at hout'
      cases hout'

end DataLoop

/-- **The UDP senders reach their rate** on a machine that keeps up. -/
theorem udp_rate_reached :
    (∀ cfg streamId, 0 < cfg.len → (startUdpLoop cfg streamId).RateReached cfg.bandwidth) ∧
    ∀ opts streamId, (runUdpSendStreamsLoop opts streamId).RateReached opts.bandwidth := by
  constructor
  · intro cfg streamId hlen
    exact DataLoop.rateReached rfl hlen
  · intro opts streamId
    refine DataLoop.rateReached rfl ?_
    exact Nat.lt_of_lt_of_le (by decide) (Nat.le_max_right opts.len udpHeaderLen)

/-- A kilobyte a second, for one second. -/
def slowUdpTest : Config :=
  { Config.withHost "server" with len := 1000, bandwidth := 8000, time := 1 }

/-- A packet that takes five nanoseconds, a pause from which the thread wakes up five nanoseconds
    late, and the end of the test. -/
def pausedRun : List Turn := [⟨0, 0, 5, .ok 1000⟩, ⟨0, 0, 5, .ok 1000⟩, ⟨0, 0, 0, .ok 1000⟩]

/-- Five nanoseconds are allowed; the bucket is started three nanoseconds after the timer. -/
theorem udp_rate_reached_paused :
    ∃ s, through (startUdpLoop slowUdpTest 1).turn (pausedRun.take 2)
        ((startUdpLoop slowUdpTest 1).start 0 3) = some s ∧ s.clock = nanos + 8 ∧
      (8000 : Nat) / 8 * (secs s.clock - secs (0 + 3)) ≤
        (startUdpLoop slowUdpTest 1).count s + (8000 : Nat) / 8 * secs (5 + 1) ∧
      (startUdpLoop slowUdpTest 1).run 0 3 pausedRun = some (.left s) ∧
      (8000 : Nat) / 8 * (secs (fromSecs 1) - secs 3) ≤
        (startUdpLoop slowUdpTest 1).count s + (8000 : Nat) / 8 * secs (2 * 5 + 1) := by
  have hswift : ∀ t ∈ pausedRun, t.Swift 1000 5 := by
    have hcall : ∀ inCall ≤ 5, Turn.Swift ⟨0, 0, inCall, .ok 1000⟩ 1000 5 := by
      intro inCall hcall
      refine ⟨?_, 1000, rfl, Nat.le_refl 1000⟩
      show 0 + 0 + inCall ≤ 5
      omega
    intro t ht
    simp only [pausedRun, List.mem_cons, List.not_mem_nil, or_false] at ht
    rcases ht with rfl | rfl | rfl
    · exact hcall 5 (by decide)
    · exact hcall 5 (by decide)
    · exact hcall 0 (by decide)
  obtain ⟨s, hs, hmarks⟩ : ∃ s, through (startUdpLoop slowUdpTest 1).turn (pausedRun.take 2)
      ((startUdpLoop slowUdpTest 1).start 0 3) = some s ∧ (s.timer, s.clock) = (0, nanos + 8) :=
    Option.map_eq_some_iff.mp (by decide +kernel)
  obtain ⟨htimer, hclock⟩ := Prod.mk.inj hmarks
  -- the third pass finds the second over
  have hover : (startUdpLoop slowUdpTest 1).isElapsed (s.after 0) = true := by
    have hbudget : (startUdpLoop slowUdpTest 1).budget = some (totalDuration 1 0) := rfl
    have hdue : totalDuration 1 0 ≤ (s.after 0).clock - (s.after 0).timer := by
      show totalDuration 1 0 ≤ s.clock + 0 - s.timer
      rw [htimer, hclock]
      decide
    rw [DataLoop.isElapsed, hbudget, Option.any_some]
    exact decide_eq_true hdue
  have hrun : (startUdpLoop slowUdpTest 1).run 0 3 pausedRun = some (.left s) := by
    show loop _ (pausedRun.take 2 ++ [⟨0, 0, 0, .ok 1000⟩]) _ = _
    rw [loop_append hs, loop, DataLoop.turn, if_pos hover]
    rfl
  have htwo := udp_rate_reached.1 slowUdpTest 1 (by decide) 5 0 3 (pausedRun.take 2) (by decide)
    fun t ht => hswift t (List.mem_of_mem_take ht)
  have hall := udp_rate_reached.1 slowUdpTest 1 (by decide) 5 0 3 pausedRun (by decide) hswift
  exact ⟨s, hs, hclock, (htwo.1 s hs).1, hrun, hall.2 s _ hrun rfl rfl rfl⟩

end Rperf3
