/-
  The TIME an authentication takes, and what it does for the replay cache.

  `check_auth` answers no sooner than a tenth of a second after it began, accepted or not
  (`smear_auth_timing`).  The floor is there against timing attacks.  It also bounds the replay
  cache: entries live for twenty seconds and are evicted only when a later call takes the cache, but
  every entry was made by a call of its own, and calls cannot come faster than the floor lets them.

  1. `respondsAt_ge` — the floor.
  2. `Live` — the deadlines in the cache are those of calls less than twenty seconds before the
     latest clock reading so far, or that were still waiting for the lock at it (`live_cacheAfter`).
  3. `replay_cache_bounded` — with at most `W` calls in progress at a time, at most `201 * W`
     entries.
-/
import Rperf3.Lib.Overlap
import Rperf3.Server.Logins

namespace Rperf3

/-! ## The floor -/

/-- `AUTH_RESPONSE_FLOOR`: 100 ms. -/
def authResponseFloor : Nat := 100000000

/-- `smear_auth_timing`: how long it asks to sleep when `elapsed` has gone by. -/
def smearAuthTiming (elapsed : Nat) : Nat :=
  if elapsed < authResponseFloor then authResponseFloor - elapsed else 0

/-- One call of `check_auth`: when it began, when it got the lock of the cache, how long
    `check_auth_inner` took, and how much longer than asked for the thread slept.  A call that fails
    before it comes to the cache takes no lock; any instant will do. -/
structure AuthCall where
  login : Login
  start : Nat
  locked : Nat
  elapsed : Nat
  overslept : Nat

/-- When `check_auth` goes on to its answer. -/
def AuthCall.respondsAt (c : AuthCall) : Nat :=
  c.start + c.elapsed + smearAuthTiming c.elapsed + c.overslept

/-- While `check_auth_inner` runs, `check_and_record` reads the clock and then takes the lock. -/
structure AuthCall.WellTimed (c : AuthCall) : Prop where
  start_le : c.start ≤ c.login.now
  now_le : c.login.now ≤ c.locked
  locked_le : c.locked ≤ c.start + c.elapsed

/-- **No answer before the floor**, whatever the outcome. -/
theorem AuthCall.respondsAt_ge (c : AuthCall) : c.start + authResponseFloor ≤ c.respondsAt := by
  unfold respondsAt smearAuthTiming
  split
  · omega
  · omega

theorem AuthCall.WellTimed.locked_le_respondsAt {c : AuthCall} (h : c.WellTimed) :
    c.locked ≤ c.respondsAt := by
  have hto := h.locked_le
  unfold respondsAt
  omega

/-! ## What is in the cache -/

namespace NonceCache

variable {D : Type}

/-- The deadlines of the entries, newest first. -/
def deadlines (c : NonceCache D) : List Nat := c.seen.entries.map fun e => e.2

theorem length_deadlines (c : NonceCache D) : c.deadlines.length = c.seen.size := by
  unfold deadlines Table.size
  rw [List.length_map]
  exact (List.length_map _).symm

variable [DecidableEq D]

/-- **One consultation**: what has expired goes, and an accepted digest comes in front. -/
theorem deadlines_checkAndRecord (c : NonceCache D) (d : D) (now : Nat) :
    (c.checkAndRecord d now).2.deadlines =
      (if (c.checkAndRecord d now).1 = .ok () then [now + c.ttl] else []) ++
        c.deadlines.filter fun deadline => decide (now < deadline) := by
  have hretain :
      ((c.seen.retain fun deadline => decide (now < deadline)).entries.map fun e => e.2) =
        c.deadlines.filter fun deadline => decide (now < deadline) := by
    unfold deadlines
    rw [List.filter_map]
    rfl
  unfold checkAndRecord
  dsimp only
  split
  · rw [if_neg (fun h => nomatch h)]
    exact hretain
  · rename_i hnew
    have hnotMem : d ∉ c.seen.retain fun deadline => decide (now < deadline) := by
      rw [← AList.lookup_isSome]
      exact hnew
    rw [if_pos rfl]
    show ((c.seen.retain fun deadline => decide (now < deadline)).insert d
      (now + c.ttl)).entries.map (fun e => e.2) = _
    rw [AList.entries_insert_of_notMem hnotMem, List.map_cons, hretain]
    rfl

end NonceCache

section Cache

variable {K D : Type} [DecidableEq D] {C : Crypto K D} {F : KeyFormats K}

/-- The cache after the calls `calls`, listed as they took the lock: its entries are those of some
    of the calls, newest first.  With `latest` the latest clock reading, each of these has its
    reading less than a lifetime before, or got the lock only after it. -/
def Live (calls : List AuthCall) (cache : NonceCache D) : Prop :=
  ∃ (live : List AuthCall) (latest : Nat), live.Sublist calls.reverse ∧
    cache.deadlines = live.map (fun c => c.login.now + cache.ttl) ∧
    (latest = 0 ∨ ∃ c ∈ calls, latest ≤ c.locked) ∧
    ∀ c ∈ live, c.login.now ≤ latest ∧ (latest < c.login.now + cache.ttl ∨ latest ≤ c.locked)

/-- A call that takes the cache. -/
theorem Live.consult {calls : List AuthCall} {cache : NonceCache D} (h : Live calls cache)
    {call : AuthCall} (hnow : call.login.now ≤ call.locked)
    (hlater : ∀ c ∈ calls, c.locked ≤ call.locked) (d : D) :
    Live (calls ++ [call]) (cache.checkAndRecord d call.login.now).2 := by
  obtain ⟨live, latest, hsub, hdeadlines, hlocked, hwindow⟩ := h
  -- the latest reading is the old one or the one of this call
  have hmax : ∃ m, latest ≤ m ∧ call.login.now ≤ m ∧ (m = latest ∨ m = call.login.now) :=
    ⟨max latest call.login.now, Nat.le_max_left _ _, Nat.le_max_right _ _, by omega⟩
  obtain ⟨m, hold, hnew, hm⟩ := hmax
  have hbefore : latest ≤ call.locked := by
    rcases hlocked with rfl | ⟨c, hc, hle⟩
    · exact Nat.zero_le _
    · exact Nat.le_trans hle (hlater c hc)
  have hmlocked : m ≤ call.locked := by omega
  have hkeep : cache.deadlines.filter (fun deadline => decide (call.login.now < deadline)) =
      (live.filter fun c => decide (call.login.now < c.login.now + cache.ttl)).map
        fun c => c.login.now + cache.ttl := by
    rw [hdeadlines, List.filter_map]
    rfl
  have hearlier : ∀ c ∈ live.filter fun c => decide (call.login.now < c.login.now + cache.ttl),
      c.login.now ≤ m ∧ (m < c.login.now + cache.ttl ∨ m ≤ c.locked) := by
    intro c hc
    obtain ⟨hmem, htime⟩ := List.mem_filter.mp hc
    have hkept := of_decide_eq_true htime
    obtain ⟨hle, hrecent⟩ := hwindow c hmem
    refine ⟨Nat.le_trans hle hold, ?_⟩
    rcases hm with rfl | rfl
    · exact hrecent
    · exact Or.inl hkept
  have hsub' : (live.filter fun c => decide (call.login.now < c.login.now + cache.ttl)).Sublist
      calls.reverse := List.filter_sublist.trans hsub
  have hreached : m = 0 ∨ ∃ c ∈ calls ++ [call], m ≤ c.locked :=
    Or.inr ⟨call, List.mem_append_right _ List.mem_cons_self, hmlocked⟩
  rw [Live, NonceCache.checkAndRecord_ttl, NonceCache.deadlines_checkAndRecord, hkeep,
    List.reverse_append, List.reverse_singleton, List.singleton_append]
  split
  · refine ⟨call :: live.filter fun c => decide (call.login.now < c.login.now + cache.ttl), m,
      hsub'.cons_cons call, rfl, hreached, ?_⟩
    intro c hc
    rcases List.mem_cons.mp hc with rfl | hold
    · exact ⟨hnew, Or.inr hmlocked⟩
    · exact hearlier c hold
  · exact ⟨_, m, hsub'.cons call, rfl, hreached, hearlier⟩

/-- Any call: one that fails before it comes to the cache leaves it alone. -/
theorem Live.call {calls : List AuthCall} {cache : NonceCache D} (h : Live calls cache)
    {call : AuthCall} (hnow : call.login.now ≤ call.locked)
    (hlater : ∀ c ∈ calls, c.locked ≤ call.locked) :
    Live (calls ++ [call]) (checkAuthInner C (call.login.attempt F) cache).2 := by
  unfold checkAuthInner
  split
  · obtain ⟨live, latest, hsub, hdeadlines, hlocked, hwindow⟩ := h
    refine ⟨live, latest, ?_, hdeadlines, ?_, hwindow⟩
    · rw [List.reverse_append, List.reverse_singleton, List.singleton_append]
      exact hsub.cons call
    · exact hlocked.imp_right fun ⟨c, hc, hle⟩ => ⟨c, List.mem_append_left _ hc, hle⟩
  · rename_i ciphertext claim users hpresents
    have hconsult := h.consult hnow hlater (C.sha256 ciphertext)
    split
    · rename_i e cache' hrec
      have heq : (cache.checkAndRecord (C.sha256 ciphertext) call.login.now).2 = cache' := by
        rw [show cache.checkAndRecord (C.sha256 ciphertext) call.login.now = _ from hrec]
      exact heq ▸ hconsult
    · rename_i cache' hrec
      have heq : (cache.checkAndRecord (C.sha256 ciphertext) call.login.now).2 = cache' := by
        rw [show cache.checkAndRecord (C.sha256 ciphertext) call.login.now = _ from hrec]
      exact heq ▸ hconsult

/-- What a run of calls leaves in the cache. -/
theorem live_cacheAfter (calls : List AuthCall) (htimed : ∀ c ∈ calls, c.WellTimed)
    (horder : calls.Pairwise fun c c' => c.locked ≤ c'.locked) :
    Live calls (cacheAfter C (calls.map fun c => c.login.attempt F) (.new : NonceCache D)) ∧
      (cacheAfter C (calls.map fun c => c.login.attempt F) (.new : NonceCache D)).ttl =
        fromSecs (timestampSkewSecs * 2) := by
  induction calls using List.reverseRecOn with
  | nil =>
    refine ⟨⟨[], 0, List.nil_sublist _, rfl, Or.inl rfl, ?_⟩, rfl⟩
    exact fun c hc => absurd hc List.not_mem_nil
  | append_singleton calls call ih =>
    obtain ⟨hbefore, -, hlast⟩ := List.pairwise_append.mp horder
    obtain ⟨htimed', hcall⟩ := List.forall_mem_append.mp htimed
    obtain ⟨hlive, httl⟩ := ih htimed' hbefore
    have hlater : ∀ c ∈ calls, c.locked ≤ call.locked :=
      fun c hc => hlast c hc call List.mem_cons_self
    have hnow : call.login.now ≤ call.locked := (hcall call List.mem_cons_self).now_le
    rw [List.map_append, cacheAfter_append]
    exact ⟨hlive.call hnow hlater, (checkAuthInner_ttl C _ _).trans httl⟩

/-- The instant of a call that counts at `latest`: when it got the lock, or `latest` if it was still
    waiting for it. -/
def AuthCall.mark (latest : Nat) (c : AuthCall) : Nat := max c.start (min c.locked latest)

/-- **The replay cache is bounded.**  With at most `W` calls of `check_auth` in progress at a time —
    one when sessions are served one after the other — it never holds more than `201 * W` entries,
    however many calls there are and whatever they present.  The calls are listed as they take the
    lock of the cache; each has read the clock before, so the readings need not be in that order. -/
theorem replay_cache_bounded (C : Crypto K D) (F : KeyFormats K) (calls : List AuthCall) (W : Nat)
    (htimed : ∀ c ∈ calls, c.WellTimed)
    (horder : calls.Pairwise fun c c' => c.locked ≤ c'.locked)
    (hwithin : Overlap.Within AuthCall.start AuthCall.respondsAt W calls) :
    (cacheAfter C (calls.map fun c => c.login.attempt F) (.new : NonceCache D)).seen.size
      ≤ 201 * W := by
  obtain ⟨⟨live, latest, hsub, hdeadlines, -, hwindow⟩, httl⟩ :=
    live_cacheAfter (C := C) (F := F) calls htimed horder
  have hlength : (cacheAfter C (calls.map fun c => c.login.attempt F)
      (.new : NonceCache D)).seen.size = live.length := by
    rw [← NonceCache.length_deadlines, hdeadlines, List.length_map]
  -- a lifetime is two hundred floors
  have hfloors : fromSecs (timestampSkewSecs * 2) = 200 * authResponseFloor := by decide
  rw [httl, hfloors] at hwindow
  have hmark : ∀ c ∈ calls, c.start ≤ c.mark latest ∧ c.mark latest ≤ c.respondsAt := by
    intro c hc
    have hreads := (htimed c hc).start_le
    have hlocks := (htimed c hc).now_le
    have hstop := (htimed c hc).locked_le_respondsAt
    unfold AuthCall.mark
    omega
  have hmarked := Overlap.countP_marked_le hwithin (fun c _ => c.respondsAt_ge)
    (AuthCall.mark latest) hmark latest 200
  have hfloor : 0 < authResponseFloor := by decide
  have hall : live.countP (fun c => decide (c.mark latest ≤ latest ∧
      latest < c.mark latest + 200 * authResponseFloor)) = live.length := by
    refine List.countP_eq_length.mpr fun c hc => decide_eq_true ?_
    have hcall := htimed c (List.mem_reverse.mp (hsub.subset hc))
    have hreads := hcall.start_le
    have hlocks := hcall.now_le
    obtain ⟨hle, hrecent⟩ := hwindow c hc
    unfold AuthCall.mark
    omega
  calc (cacheAfter C (calls.map fun c => c.login.attempt F) (.new : NonceCache D)).seen.size
      = live.countP (fun c => decide (c.mark latest ≤ latest ∧
          latest < c.mark latest + 200 * authResponseFloor)) := hlength.trans hall.symm
    _ ≤ calls.reverse.countP (fun c => decide (c.mark latest ≤ latest ∧
          latest < c.mark latest + 200 * authResponseFloor)) := hsub.countP_le
    _ = calls.countP (fun c => decide (c.mark latest ≤ latest ∧
          latest < c.mark latest + 200 * authResponseFloor)) := List.countP_reverse
    _ ≤ 201 * W := hmarked

end Cache

/-- Two of Alice's tokens at once: the call that reads the clock first gets the lock last. -/
def twoCalls : List AuthCall :=
  [⟨{ aliceLogin (tokenAt 100) 105 with now := fromSecs 105 + 50 }, fromSecs 105 + 10,
      fromSecs 105 + 50, 90, 0⟩,
    ⟨aliceLogin (tokenAt 101) 105, fromSecs 105, fromSecs 105 + 60, 100, 0⟩]

theorem replay_cache_bounded_overlapping :
    (cacheAfter latinCrypto.toCrypto (twoCalls.map fun c => c.login.attempt anyText)
      NonceCache.new).seen.size = 2 ∧
    (cacheAfter latinCrypto.toCrypto (twoCalls.map fun c => c.login.attempt anyText)
      NonceCache.new).seen.size ≤ 201 * 2 := by
  have hwithin : Overlap.Within AuthCall.start AuthCall.respondsAt 2 twoCalls :=
    fun t => List.countP_le_length
  have hlocks : fromSecs 105 + 50 ≤ fromSecs 105 + 60 := Nat.add_le_add_left (by decide) _
  refine ⟨by decide +kernel,
    replay_cache_bounded latinCrypto.toCrypto anyText twoCalls 2 ?_ ?_ hwithin⟩
  · intro c hc
    rcases List.mem_pair.mp hc with rfl | rfl
    · exact ⟨Nat.add_le_add_left (by decide) _, Nat.le_refl _, by
        show fromSecs 105 + 50 ≤ fromSecs 105 + 10 + 90
        omega⟩
    · exact ⟨Nat.le_refl _, Nat.le_add_right _ _, Nat.add_le_add_left (by decide) _⟩
  · exact List.pairwise_pair.mpr hlocks

end Rperf3
