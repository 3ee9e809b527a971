/-
  BYTE AND BLOCK LIMITS of the four send loops.

  `Stream::start`, `Stream::start_udp` and `run_tcp_send_streams` test both limits before every
  call; `run_udp_send_streams` reads neither.  So the first three keep to them in every run, and the
  fourth only when time and rate do not let it get that far: it can have sent what the rate allows
  before the last nanosecond of the test and one more packet (`paceable`), whatever the limits.
-/
import Rperf3.Transfer.PacedSend

namespace Rperf3

open Turns WindowTally RateMeter

namespace DataLoop

variable {R : Type} {L : DataLoop R}

/-- A state at the top of the body or at the end of the loop. -/
def Visits (L : DataLoop R) (s : LoopState R) : Prop := L.Reachable s ∨ L.Final s

/-- The limits `N` and `K` hold the loop: no call is started once the count has reached `N` bytes or
    `K` blocks, and the count at the end exceeds neither by a block. -/
structure LimitsBind (L : DataLoop R) (N K : Nat) : Prop where
  starts : ∀ s, L.Visits s → ∀ c ∈ s.starts, c < N ∧ c / L.len < K
  exit : ∀ s, L.Final s →
    L.count s < N + L.len ∧ (N = 0 → L.count s = 0) ∧ L.count s < (K + 1) * L.len

/-- The count is what the last call found, and at most a buffer more. -/
def Started (L : DataLoop R) (s : LoopState R) : Prop :=
  L.count s = 0 ∨ ∃ c ∈ s.starts, L.count s ≤ c + L.len

theorem Visits.invariant {P : LoopState R → Prop} (hstart : ∀ timer setup, P (L.start timer setup))
    (hafter : ∀ s d, P s → P (s.after d))
    (hcalled : ∀ t s, P s → L.Calls t s → P (L.called t s))
    (hmoved : ∀ t s n, P s → L.Calls t s → 0 < n → n ≤ L.len → P (L.moved n (L.called t s)))
    {s : LoopState R} (h : L.Visits s) : P s := by
  rcases h with h | h
  · exact h.invariant hstart hafter hcalled hmoved
  · exact h.invariant hstart hafter hcalled hmoved

theorem Visits.started {s : LoopState R} (h : L.Visits s) : L.Started s := by
  refine h.invariant (P := L.Started) (fun timer setup => .inl (L.count_start timer setup))
    (fun _ _ hs => hs) ?_ ?_
  · rintro t s (hzero | ⟨c, hc, hle⟩) _
    · exact .inl hzero
    · exact .inr ⟨c, List.mem_append_left _ hc, hle⟩
  · intro t s n _ _ _ hlen
    refine .inr ⟨L.count s, List.mem_append_right _ List.mem_cons_self, ?_⟩
    rw [count_moved]
    exact Nat.add_le_add_left hlen _

/-- It is enough to bound the calls. -/
theorem limitsBind_iff_starts {N K : Nat} (hlen : 1 ≤ L.len) :
    L.LimitsBind N K ↔ ∀ s, L.Visits s → ∀ c ∈ s.starts, c < N ∧ c / L.len < K := by
  refine ⟨fun h => h.starts, fun h => ⟨h, fun s hfinal => ?_⟩⟩
  have hblock : L.len ≤ (K + 1) * L.len := Nat.le_mul_of_pos_left _ (Nat.succ_pos K)
  rcases Visits.started (.inr hfinal) with hzero | ⟨c, hc, hle⟩
  · rw [hzero]
    exact ⟨by omega, fun _ => rfl, by omega⟩
  · obtain ⟨hbytes, hblocks⟩ := h s (.inr hfinal) c hc
    have hc' : c < K * L.len := (Nat.div_lt_iff_lt_mul hlen).mp hblocks
    have hsucc : (K + 1) * L.len = K * L.len + L.len := Nat.succ_mul K L.len
    exact ⟨by omega, fun hN => by omega, by omega⟩

/-- **A loop that tests its limits keeps to them.** -/
theorem limitsBind {N K : Nat} (hN : L.maxBytes = some N) (hK : L.maxBlocks = some K)
    (hlen : 1 ≤ L.len) : L.LimitsBind N K := by
  rw [limitsBind_iff_starts hlen]
  intro s hvisits
  have hcalls : ∀ t s, (∀ c ∈ s.starts, c < N ∧ c / L.len < K) → L.Calls t s →
      ∀ c ∈ (L.called t s).starts, c < N ∧ c / L.len < K := by
    intro t s hs hcalls c hc
    rcases List.mem_append.mp hc with hc | hc
    · exact hs c hc
    · rw [List.mem_singleton.mp hc]
      have hbytes := hcalls.bytes
      have hblocks := hcalls.blocks
      rw [hN] at hbytes
      rw [hK] at hblocks
      exact ⟨Nat.not_le.mp fun hle => hbytes (decide_eq_true hle),
        Nat.not_le.mp fun hle => hblocks (decide_eq_true hle)⟩
  exact hvisits.invariant (P := fun s => ∀ c ∈ s.starts, c < N ∧ c / L.len < K)
    (fun _ _ c hc => absurd hc List.not_mem_nil) (fun _ _ hs => hs) hcalls
    fun t s n hs hc _ _ => hcalls t s hs hc

/-! ## A paced loop without limits -/

/-- The bytes that a rate allows after so many nanoseconds, in whole numbers. -/
theorem le_byteRate_iff (k rate e : Nat) :
    (k : ℚ) ≤ rate / 8 * secs e ↔ k * (8 * nanos) ≤ rate * e := by
  have hpos : (0 : ℚ) < 8 * nanos := by unfold nanos; norm_num
  rw [secs, div_mul_div_comm, le_div_iff₀ hpos]
  exact_mod_cast Iff.rfl

/-- The largest count at which a paced loop without limits can start a call: what the rate allows
    before the last nanosecond, and one more buffer. -/
def paceable (rate D len : Nat) : Nat := rate * (D - 1) / (8 * nanos) + len

/-- With no time there is no call. -/
theorem starts_nil {D : Nat} (hbudget : L.budget = some D) (hD : D = 0) {s : LoopState R}
    (h : L.Visits s) : s.starts = [] := by
  have hnever : ∀ t s, ¬ L.Calls t s := fun t s hcalls => by
    have hlt := hcalls.lt_budget hbudget
    omega
  exact h.invariant (P := fun s => s.starts = []) (fun _ _ => rfl) (fun _ _ hs => hs)
    (fun t s _ hcalls => absurd hcalls (hnever t s))
    fun t s _ _ hcalls _ _ => absurd hcalls (hnever t s)

/-- What holds the count of a paced loop: below the bound while there is time. -/
structure Held (L : DataLoop R) (rate D : Nat) (s : LoopState R) : Prop where
  starts : ∀ c ∈ s.starts, c ≤ paceable rate D L.len
  count : s.clock - s.timer < D → L.count s ≤ paceable rate D L.len
  timer : s.timer ≤ s.clock
  paced : ∃ b, L.Paced rate s b

namespace Held

variable {rate D : Nat} {s : LoopState R}

theorem start (hrate : L.rate = some rate) (timer setup : Nat) :
    L.Held rate D (L.start timer setup) where
  starts _ hc := absurd hc List.not_mem_nil
  count _ := by
    rw [L.count_start]
    exact Nat.zero_le _
  timer := Nat.le_add_right _ _
  paced := Paced.start hrate timer setup

theorem after (h : L.Held rate D s) (d : Nat) : L.Held rate D (s.after d) where
  starts := h.starts
  count hlt := h.count (by
    have hclock : (s.after d).clock - (s.after d).timer = s.clock + d - s.timer := rfl
    omega)
  timer := Nat.le_trans h.timer (Nat.le_add_right _ _)
  paced := by
    obtain ⟨b, hb⟩ := h.paced
    exact ⟨b, hb.after d⟩

variable (hbudget : L.budget = some D)
include hbudget

/-- A call finds a count within the bound. -/
theorem count_le {t : Turn} (h : L.Held rate D s) (hcalls : L.Calls t s) :
    L.count s ≤ paceable rate D L.len := by
  have hlt : s.clock + t.beforeTest - s.timer < D := hcalls.lt_budget hbudget
  exact h.count (by omega)

theorem called {t : Turn} (h : L.Held rate D s) (hcalls : L.Calls t s) :
    L.Held rate D (L.called t s) where
  starts c hc := by
    rcases List.mem_append.mp hc with hc | hc
    · exact h.starts c hc
    · rw [List.mem_singleton.mp hc]
      show L.count s ≤ _
      exact h.count_le hbudget hcalls
  count _ := by
    show L.count s ≤ _
    exact h.count_le hbudget hcalls
  timer := (((h.after t.beforeTest).after t.beforePace).after t.inCall).timer
  paced := by
    obtain ⟨b, hb⟩ := h.paced
    exact ⟨b, hb.called t⟩

/-- **A transfer.**  A call that was started with more than the rate allows before the last
    nanosecond was started after it. -/
theorem moved {t : Turn} {n : Nat} (h : L.Held rate D s) (hpos : 0 < rate)
    (hmax : paceable rate D L.len ≤ maxU64) (hcalls : L.Calls t s)
    (hlen : n ≤ L.len) : L.Held rate D (L.moved n (L.called t s)) := by
  have hcalled := h.called hbudget hcalls
  obtain ⟨b, hb⟩ := h.paced
  refine ⟨hcalled.starts, fun hlt => ?_, hcalled.timer, _, hb.moved hcalls hlen⟩
  rw [count_moved]
  show L.count s + n ≤ _
  have hcount := h.count_le hbudget hcalls
  -- the bytes are within the rate when the pacer lets the call through
  have hpaced := (hb.after t.beforeTest).after t.beforePace
  have hnow := hpaced.bytesSent_le hpos hcalls.wait
  have htimer := ((h.after t.beforeTest).after t.beforePace).timer
  obtain ⟨e, he⟩ := Nat.exists_eq_add_of_le htimer
  have hsent : b.bytesSent = L.count s := by
    rw [hb.bytesSent]
    omega
  have hallowed : (L.count s : ℚ) ≤ rate / 8 * secs e := by
    have hstarted : secs ((s.after t.beforeTest).after t.beforePace).timer ≤ b.start := hb.started
    have hbyteRate : b.byteRate = (rate : ℚ) / 8 := by rw [TokenBucket.byteRate, hb.rateBps]
    have hnonneg : (0 : ℚ) ≤ rate / 8 := div_nonneg (Nat.cast_nonneg _) (by norm_num)
    rw [he, secs_add, hsent, hbyteRate] at hnow
    exact le_trans hnow (mul_le_mul_of_nonneg_left (by linarith) hnonneg)
  rw [le_byteRate_iff] at hallowed
  -- with time left, it was before the last nanosecond
  have hlast : e ≤ D - 1 := by
    have hclock : (L.called t s).clock =
        ((s.after t.beforeTest).after t.beforePace).clock + t.inCall := rfl
    have hmoved : (L.moved n (L.called t s)).clock - (L.moved n (L.called t s)).timer =
        (L.called t s).clock - ((s.after t.beforeTest).after t.beforePace).timer := rfl
    omega
  have hwithin : L.count s ≤ rate * (D - 1) / (8 * nanos) :=
    (Nat.le_div_iff_mul_le (by decide)).mpr
      (Nat.le_trans hallowed (Nat.mul_le_mul_left rate hlast))
  exact Nat.add_le_add hwithin hlen

end Held

theorem Visits.held {rate D : Nat} (hrate : L.rate = some rate) (hbudget : L.budget = some D)
    (hpos : 0 < rate) (hmax : paceable rate D L.len ≤ maxU64) {s : LoopState R}
    (h : L.Visits s) : L.Held rate D s :=
  h.invariant (P := L.Held rate D) (Held.start hrate) (fun _ d hs => hs.after d)
    (fun _ _ hs hcalls => hs.called hbudget hcalls)
    fun _ _ _ hs hcalls _ hlen => hs.moved hbudget hpos hmax hcalls hlen

/-! ## Runs at full rate -/

/-- A state before the last nanosecond, in a run whose bucket has existed from the start. -/
structure AtRate (L : DataLoop R) (rate D k : Nat) (s : LoopState R) : Prop where
  reach : L.Reachable s
  timer : s.timer = 0
  clock : s.clock ≤ D - 1
  count : L.count s = k
  bucket : ∃ b, s.bucket = some b ∧ b.rateBps = rate ∧ b.start = 0 ∧ b.bytesSent ≤ k

namespace AtRate

variable {rate D k : Nat} {s : LoopState R}

theorem start (hrate : L.rate = some rate) (D : Nat) : L.AtRate rate D 0 (L.start 0 0) where
  reach := ⟨0, 0, .refl⟩
  timer := rfl
  clock := Nat.zero_le _
  count := L.count_start 0 0
  bucket := by
    refine ⟨.new rate (secs (0 + 0)), ?_, rfl, ?_, Nat.le_refl 0⟩
    · show L.rate.map _ = _
      rw [hrate]
      rfl
    · show secs 0 = 0
      rw [secs, Nat.cast_zero, zero_div]

/-- The pass that tests the time in the last nanosecond, asks the pacer `pause` later and then moves
    `n` bytes. -/
def lastNano (D : Nat) (s : LoopState R) (pause n : Nat) : Turn :=
  ⟨D - 1 - s.clock, pause, 0, .ok n⟩

variable (hbudget : L.budget = some D) (hD : 0 < D) (hN : L.maxBytes = none)
  (hK : L.maxBlocks = none)
include hbudget hD hN hK

theorem calls (h : L.AtRate rate D k s) (hlen : 0 < L.len) {pause n : Nat}
    (hk : rate = 0 ∨ k * (8 * nanos) ≤ rate * (D - 1 + pause)) :
    L.Calls (lastNano D s pause n) s := by
  have hclock : s.clock + (D - 1 - s.clock) = D - 1 := Nat.add_sub_cancel' h.clock
  refine ⟨goesOn_of hbudget ?_ hlen (by rw [hN, hK]; rfl), ?_⟩
  · show s.clock + (D - 1 - s.clock) - s.timer < D
    omega
  · obtain ⟨b, hb, hrate, hstart, hsent⟩ := h.bucket
    rw [LoopState.wait]
    show Option.bind s.bucket _ = none
    rw [hb]
    show b.wait (secs (s.clock + (D - 1 - s.clock) + pause)) = none
    rw [hclock]
    rcases Nat.eq_zero_or_pos rate with hzero | hpos
    · rw [TokenBucket.wait, if_pos (hrate.trans hzero)]
    · have hallowed := (le_byteRate_iff k rate (D - 1 + pause)).mpr
        (hk.resolve_left (Nat.ne_of_gt hpos))
      have hnonneg : (0 : ℚ) ≤ secs (D - 1 + pause) :=
        div_nonneg (Nat.cast_nonneg _) (Nat.cast_nonneg _)
      rw [TokenBucket.wait_eq_none_iff (hrate ▸ hpos), TokenBucket.elapsed_of_le (hstart ▸ hnonneg),
        hstart, sub_zero, TokenBucket.byteRate, hrate]
      exact le_trans (by exact_mod_cast hsent) hallowed

/-- The call of such a pass is started. -/
theorem starts (h : L.AtRate rate D k s) (hlen : 0 < L.len) (pause : Nat)
    (hk : rate = 0 ∨ k * (8 * nanos) ≤ rate * (D - 1 + pause)) :
    ∃ s', L.Reachable s' ∧ k ∈ s'.starts := by
  obtain ⟨timer, setup, hreach⟩ := h.reach
  have hmin : 0 < min 1 L.len := by omega
  have hturn := turn_of_transfer (t := lastNano D s pause 1)
    (h.calls hbudget hD hN hK hlen hk) rfl hmin
  refine ⟨_, ⟨timer, setup, hreach.next hturn⟩, ?_⟩
  rw [← h.count]
  exact List.mem_append_right _ List.mem_cons_self

/-- Without a pause, what it moves is counted before the last nanosecond is over. -/
theorem transfer (h : L.AtRate rate D k s) (hk : rate = 0 ∨ k * (8 * nanos) ≤ rate * (D - 1))
    {n : Nat} (hn : 0 < n) (hlen : n ≤ L.len) : ∃ s', L.AtRate rate D (k + n) s' := by
  obtain ⟨timer, setup, hreach⟩ := h.reach
  have hmin : min n L.len = n := Nat.min_eq_left hlen
  have hturn := turn_of_transfer (t := lastNano D s 0 n)
    (h.calls hbudget hD hN hK (Nat.lt_of_lt_of_le hn hlen) hk) rfl (hmin.symm ▸ hn)
  rw [hmin] at hturn
  obtain ⟨b, hb, hrate, hstart, hsent⟩ := h.bucket
  refine ⟨_, ⟨timer, setup, hreach.next hturn⟩, h.timer, ?_, ?_, b.record n, ?_, hrate, hstart, ?_⟩
  · show s.clock + (D - 1 - s.clock) + 0 + 0 ≤ D - 1
    have hclock := h.clock
    omega
  · rw [count_moved]
    show L.count s + n = k + n
    rw [h.count]
  · exact congrArg (Option.map _) hb
  · exact Nat.le_trans (TokenBucket.bytesSent_record_le b n) (Nat.add_le_add_right hsent n)

/-- Byte by byte, every count is reached that the rate allows. -/
theorem exists_of_le (hrate : L.rate = some rate) (hlen : 0 < L.len) : ∀ k : Nat,
    (rate = 0 ∨ k * (8 * nanos) ≤ rate * (D - 1)) → ∃ s, L.AtRate rate D k s := by
  intro k
  induction k with
  | zero =>
    intro _
    exact ⟨_, start hrate D⟩
  | succ k ih =>
    intro hk
    have hk' : rate = 0 ∨ k * (8 * nanos) ≤ rate * (D - 1) :=
      hk.imp_right (Nat.le_trans (Nat.mul_le_mul_right _ (Nat.le_succ k)))
    obtain ⟨s, hs⟩ := ih hk'
    exact hs.transfer hbudget hD hN hK hk' Nat.one_pos hlen

end AtRate

/-- **When a paced loop without limits keeps to them all the same.** -/
theorem limitsBind_iff_paceable {rate D N K : Nat} (hrate : L.rate = some rate)
    (hbudget : L.budget = some D) (hN : L.maxBytes = none) (hK : L.maxBlocks = none)
    (hlen : 1 ≤ L.len) (hmax : N ≤ maxU64) :
    L.LimitsBind N K ↔ D = 0 ∨
      0 < rate ∧ paceable rate D L.len < N ∧ paceable rate D L.len / L.len < K := by
  rw [limitsBind_iff_starts hlen]
  constructor
  · intro h
    rcases Nat.eq_zero_or_pos D with hD | hD
    · exact .inl hD
    right
    rcases Nat.eq_zero_or_pos rate with hzero | hpos
    · -- an unpaced loop reaches `N` bytes
      obtain ⟨s, hs⟩ := AtRate.exists_of_le hbudget hD hN hK hrate hlen N (.inl hzero)
      obtain ⟨s', hreach, hmem⟩ := hs.starts hbudget hD hN hK hlen 0 (.inl hzero)
      exact absurd (h s' (.inl hreach) N hmem).1 (Nat.lt_irrefl N)
    · -- a paced one reaches its bound, with a late call
      have hfull : rate * (D - 1) / (8 * nanos) * (8 * nanos) ≤ rate * (D - 1) :=
        Nat.div_mul_le_self _ _
      obtain ⟨s, hs⟩ := AtRate.exists_of_le hbudget hD hN hK hrate hlen _ (.inr hfull)
      obtain ⟨s', hs'⟩ := hs.transfer hbudget hD hN hK (.inr hfull) hlen (Nat.le_refl L.len)
      have hlate : paceable rate D L.len * (8 * nanos) ≤
          rate * (D - 1 + paceable rate D L.len * (8 * nanos)) :=
        calc paceable rate D L.len * (8 * nanos)
            ≤ D - 1 + paceable rate D L.len * (8 * nanos) := Nat.le_add_left _ _
          _ ≤ rate * (D - 1 + paceable rate D L.len * (8 * nanos)) :=
            Nat.le_mul_of_pos_left _ hpos
      obtain ⟨s'', hreach, hmem⟩ := hs'.starts hbudget hD hN hK hlen _ (.inr hlate)
      exact ⟨hpos, h s'' (.inl hreach) _ hmem⟩
  · rintro (hD | ⟨hpos, hbytes, hblocks⟩) s hvisits c hc
    · rw [starts_nil hbudget hD hvisits] at hc
      cases hc
    · have hle := (hvisits.held hrate hbudget hpos (by omega)).starts c hc
      exact ⟨Nat.lt_of_le_of_lt hle hbytes,
        Nat.lt_of_le_of_lt (Nat.div_le_div_right hle) hblocks⟩

end DataLoop

/-- **Which senders the limits bind.**  `Stream::start`, `Stream::start_udp` and
    `run_tcp_send_streams` always; `run_udp_send_streams` exactly when the time or the rate keeps it
    below the limits. -/
theorem limits_bind_iff (cfg : Config) (opts : ClientOptions) (streamId N K : Nat) :
    (cfg.totalBytes = some N → cfg.totalBlocks = some K → 1 ≤ cfg.len →
      (startLoop cfg streamId).LimitsBind N K) ∧
    (cfg.totalBytes = some N → cfg.totalBlocks = some K → udpHeaderLen ≤ cfg.len →
      (startUdpLoop cfg streamId).LimitsBind N K) ∧
    (opts.totalBytes = some N → opts.totalBlocks = some K → 1 ≤ opts.len →
      (runTcpSendStreamsLoop opts streamId).LimitsBind N K) ∧
    (opts.totalBytes = some N → opts.totalBlocks = some K → udpHeaderLen ≤ opts.len → N < 2 ^ 64 →
      ((runUdpSendStreamsLoop opts streamId).LimitsBind N K ↔
        totalDuration opts.time opts.omitSecs = 0 ∨
        0 < opts.bandwidth ∧
          DataLoop.paceable opts.bandwidth (totalDuration opts.time opts.omitSecs) opts.len < N ∧
          DataLoop.paceable opts.bandwidth (totalDuration opts.time opts.omitSecs) opts.len /
            opts.len < K)) := by
  refine ⟨fun hN hK hlen => DataLoop.limitsBind hN hK hlen,
    fun hN hK hlen => DataLoop.limitsBind hN hK (Nat.le_trans (by decide) hlen),
    fun hN hK hlen => DataLoop.limitsBind hN hK hlen, ?_⟩
  intro _ _ hlen hmax
  have hreverse : reverseLen opts = opts.len := Nat.max_eq_left hlen
  have hpos : 1 ≤ reverseLen opts := by
    rw [hreverse]
    exact Nat.le_trans (by decide) hlen
  rw [DataLoop.limitsBind_iff_paceable (L := runUdpSendStreamsLoop opts streamId) rfl rfl rfl rfl
    hpos (Nat.le_sub_one_of_lt hmax)]
  show _ ∨ _ ∧ DataLoop.paceable _ _ (reverseLen opts) < N ∧
    DataLoop.paceable _ _ (reverseLen opts) / reverseLen opts < K ↔ _
  rw [hreverse]

/-- A reverse test that should stop after one packet of a thousand bytes. -/
def onePacketOptions : ClientOptions :=
  { ClientOptions.tcpDefaults 10 1 1000 with
    tcp := false, udp := true, reverse := true, totalBytes := some 1000, totalBlocks := some 1 }

/-- The server's UDP sender goes on: its second packet is started at the limit, and it ends with
    twice the bytes asked for. -/
theorem udp_sender_ignores_limits :
    ∃ s, (runUdpSendStreamsLoop onePacketOptions 1).run 0 0
        [⟨0, 0, 0, .ok 1000⟩, ⟨0, 0, 0, .ok 1000⟩, ⟨fromSecs 10, 0, 0, .ok 1000⟩] =
          some (.left s) ∧
      s.starts = [0, 1000] ∧ s.receipt.bytes = 2000 :=
  ⟨_, rfl, rfl, rfl⟩

theorem limits_bind_iff_onePacket :
    (runTcpSendStreamsLoop onePacketOptions 1).LimitsBind 1000 1 ∧
    ¬ (runUdpSendStreamsLoop onePacketOptions 1).LimitsBind 1000 1 := by
  obtain ⟨-, -, htcp, hudp⟩ := limits_bind_iff (.withHost "localhost") onePacketOptions 1 1000 1
  refine ⟨htcp rfl rfl (by decide), ?_⟩
  rw [hudp rfl rfl (by decide) (by decide)]
  decide

end Rperf3
