/-
  Replay safety of `check_auth_inner` over whole runs.

  1. **The cache law** — `Tracks c hist now` relates the cache to the full history of acceptances:
     an unexpired entry for a digest is exactly an acceptance of it less than `ttl` ago.  One call
     of `check_and_record` keeps it (`tracks_accept`/`tracks_reject`), and under it the call
     accepts a digest iff every earlier acceptance of it has expired (`checkAndRecord_ok_iff`).

  2. **The window** — a timestamp `T` passes on wall-clock seconds `T - skew .. T + skew`, seconds
     being TRUNCATED.  That is a closed interval of `2 * skew + 1` whole seconds, one more than the
     lifetime `2 * skew` of a cache entry.

  3. **Whole runs** — over any run no ciphertext is accepted twice iff none LAPSES (`Lapsed`): its
     first presentation goes on record, a later call reads an instant at which that entry has
     expired and evicts it, and the ciphertext is presented again.  This is followed through the
     entry of one digest (`mem_authRun_of_cold`, `mem_authRun_of_hot`) and needs no order of the
     clock readings.

  4. **Which runs lapse** — the wall clock is read before the monotonic one.  If the two readings of
     an attempt are at most `d` apart and the attempts are in order, a run lapses iff a ciphertext
     is presented in the FIRST second of its window or `d` after it, and again, at least `2 * skew`
     seconds later, in the LAST one or `d` before it.
-/
import Mathlib.Data.List.Induction
import Mathlib.Data.List.Nodup
import Rperf3.Common.Auth

namespace Rperf3

variable {K D : Type} [DecidableEq D]

/-! ## The cache law -/

namespace NonceCache

/-- Unexpired entries of the cache are exactly the acceptances less than `ttl` old. -/
def Tracks (c : NonceCache D) (hist : List (D × Nat)) (now : Nat) : Prop :=
  ∀ d dl, now < dl → (c.seen.lookup d = some dl ↔ ∃ t, (d, t) ∈ hist ∧ t + c.ttl = dl)

theorem tracks_withTtl (ttl : Nat) (now : Nat) : Tracks (withTtl ttl : NonceCache D) [] now := by
  intro d dl _
  constructor
  · intro h
    exact absurd h (by simp [withTtl])
  · rintro ⟨t, hmem, -⟩
    exact absurd hmem List.not_mem_nil

theorem Tracks.mono {c : NonceCache D} {hist : List (D × Nat)} {now now' : Nat}
    (h : Tracks c hist now) (hle : now ≤ now') : Tracks c hist now' :=
  fun d dl hdl => h d dl (Nat.lt_of_le_of_lt hle hdl)

/-- What survives the eviction at `now` is an acceptance that has not expired at `now`. -/
theorem Tracks.retained {c : NonceCache D} {hist : List (D × Nat)} {now : Nat}
    (h : Tracks c hist now) (d : D) (dl : Nat) :
    (c.seen.retain fun deadline => decide (now < deadline)).lookup d = some dl ↔
      now < dl ∧ ∃ t, (d, t) ∈ hist ∧ t + c.ttl = dl := by
  rw [Table.lookup_retain, Option.filter_eq_some_iff, decide_eq_true_eq]
  constructor
  · rintro ⟨hlook, hlt⟩
    exact ⟨hlt, (h d dl hlt).mp hlook⟩
  · rintro ⟨hlt, hex⟩
    exact ⟨(h d dl hlt).mpr hex, hlt⟩

/-- **The acceptance test.**  A digest passes iff every earlier acceptance of it has expired. -/
theorem checkAndRecord_ok_iff {c : NonceCache D} {hist : List (D × Nat)} {now : Nat}
    (h : Tracks c hist now) (d : D) :
    (c.checkAndRecord d now).1 = .ok () ↔ ∀ t, (d, t) ∈ hist → t + c.ttl ≤ now := by
  unfold checkAndRecord
  by_cases hsome : ((c.seen.retain fun deadline => decide (now < deadline)).lookup d).isSome
  · -- an unexpired entry is there: the call refuses
    obtain ⟨dl, hdl⟩ := Option.isSome_iff_exists.mp hsome
    obtain ⟨hlt, t, hmem, ht⟩ := (h.retained d dl).mp hdl
    simp only [hsome, if_true]
    constructor
    · intro hok
      cases hok
    · intro hall
      have := hall t hmem
      omega
  · simp only [hsome]
    refine ⟨fun _ t hmem => ?_, fun _ => rfl⟩
    by_contra hlt
    have hdl := (h.retained d (t + c.ttl)).mpr ⟨by omega, t, hmem, rfl⟩
    exact hsome (by rw [hdl]; rfl)

/-- A refused digest has a live acceptance. -/
theorem live_of_refused {c : NonceCache D} {hist : List (D × Nat)} {now : Nat}
    (h : Tracks c hist now) {d : D} (hne : (c.checkAndRecord d now).1 ≠ .ok ()) :
    ∃ t, (d, t) ∈ hist ∧ now < t + c.ttl := by
  by_contra hno
  refine hne ((checkAndRecord_ok_iff h d).mpr fun t ht => ?_)
  by_contra hlt
  exact hno ⟨t, ht, by omega⟩

theorem checkAndRecord_ttl (c : NonceCache D) (d : D) (now : Nat) :
    (c.checkAndRecord d now).2.ttl = c.ttl := by
  unfold checkAndRecord
  dsimp only
  split <;> rfl

/-- A refused call leaves the cache evicted and nothing more. -/
theorem cache_of_error {c : NonceCache D} {d : D} {now : Nat} {e : String}
    (hrej : (c.checkAndRecord d now).1 = .error e) :
    (c.checkAndRecord d now).2 =
      { c with seen := c.seen.retain fun deadline => decide (now < deadline) } := by
  unfold checkAndRecord at hrej ⊢
  dsimp only at hrej ⊢
  split
  · rfl
  · rename_i hnone
    rw [if_neg hnone] at hrej
    cases hrej

/-- An accepted call also records its digest. -/
theorem cache_of_ok {c : NonceCache D} {d : D} {now : Nat}
    (hacc : (c.checkAndRecord d now).1 = .ok ()) :
    (c.checkAndRecord d now).2 =
      { c with
        seen := (c.seen.retain fun deadline => decide (now < deadline)).insert d
          (now + c.ttl) } := by
  unfold checkAndRecord at hacc ⊢
  dsimp only at hacc ⊢
  split
  · rename_i hsome
    rw [if_pos hsome] at hacc
    cases hacc
  · rfl

theorem tracks_reject {c : NonceCache D} {hist : List (D × Nat)} {now : Nat}
    (h : Tracks c hist now) {d : D} {e : String} (hrej : (c.checkAndRecord d now).1 = .error e) :
    Tracks (c.checkAndRecord d now).2 hist now := by
  rw [cache_of_error hrej]
  intro d' dl hdl
  rw [h.retained]
  exact ⟨fun hx => hx.2, fun hx => ⟨hdl, hx⟩⟩

theorem tracks_accept {c : NonceCache D} {hist : List (D × Nat)} {now : Nat}
    (h : Tracks c hist now) {d : D} (hacc : (c.checkAndRecord d now).1 = .ok ()) :
    Tracks (c.checkAndRecord d now).2 ((d, now) :: hist) now := by
  have hold := (checkAndRecord_ok_iff h d).mp hacc
  rw [cache_of_ok hacc]
  intro d' dl hdl
  by_cases hd : d' = d
  · -- the digest just recorded: its only live acceptance is the new one
    subst hd
    rw [AList.lookup_insert]
    constructor
    · intro hx
      exact ⟨now, List.mem_cons_self, Option.some.inj hx⟩
    · rintro ⟨t, hmem, ht⟩
      rcases List.mem_cons.mp hmem with heq | hmem
      · rw [← ht, (Prod.mk.inj heq).2]
      · have := hold t hmem
        change t + c.ttl = dl at ht
        omega
  · rw [AList.lookup_insert_ne hd, h.retained]
    constructor
    · rintro ⟨-, t, hmem, ht⟩
      exact ⟨t, List.mem_cons_of_mem _ hmem, ht⟩
    · rintro ⟨t, hmem, ht⟩
      rcases List.mem_cons.mp hmem with heq | hmem
      · exact absurd (Prod.mk.inj heq).1 hd
      · exact ⟨hdl, t, hmem, ht⟩

/-! ## Runs of the cache -/

/-- One call of `check_and_record`: the ciphertext and the instant it reads. -/
structure RecordCall where
  token : Bytes
  now : Nat
  deriving DecidableEq

/-- A cache with the calls it has accepted, the latest first. -/
structure CacheRun (D : Type) where
  cache : NonceCache D
  accepted : List RecordCall

/-- One more call. -/
def CacheRun.record (sha256 : Bytes → D) (s : CacheRun D) (x : RecordCall) : CacheRun D :=
  match s.cache.checkAndRecord (sha256 x.token) x.now with
  | (.ok (), cache) => ⟨cache, x :: s.accepted⟩
  | (.error _, cache) => ⟨cache, s.accepted⟩

/-- All calls, on a fresh cache. -/
def recordAll (sha256 : Bytes → D) (ttl : Nat) (calls : List RecordCall) : CacheRun D :=
  calls.foldl (CacheRun.record sha256) ⟨withTtl ttl, []⟩

theorem recordAll_concat (sha256 : Bytes → D) (ttl : Nat) (calls : List RecordCall)
    (x : RecordCall) :
    recordAll sha256 ttl (calls ++ [x]) = (recordAll sha256 ttl calls).record sha256 x :=
  List.foldl_concat _ _ _ _

/-- The accepted calls as digests with their instants. -/
def CacheRun.hist (sha256 : Bytes → D) (s : CacheRun D) : List (D × Nat) :=
  s.accepted.map fun y => (sha256 y.token, y.now)

omit [DecidableEq D] in
theorem mem_hist {sha256 : Bytes → D} {s : CacheRun D} {d : D} {t : Nat} :
    (d, t) ∈ s.hist sha256 ↔ ∃ y ∈ s.accepted, sha256 y.token = d ∧ y.now = t := by
  rw [CacheRun.hist, List.mem_map]
  constructor
  · rintro ⟨y, hy, heq⟩
    exact ⟨y, hy, (Prod.mk.inj heq).1, (Prod.mk.inj heq).2⟩
  · rintro ⟨y, hy, rfl, rfl⟩
    exact ⟨y, hy, rfl⟩

/-- The two ways a call ends. -/
theorem record_cases (sha256 : Bytes → D) (s : CacheRun D) (x : RecordCall) :
    ((s.cache.checkAndRecord (sha256 x.token) x.now).1 = .ok () ∧
      s.record sha256 x =
        ⟨(s.cache.checkAndRecord (sha256 x.token) x.now).2, x :: s.accepted⟩) ∨
    ∃ e, (s.cache.checkAndRecord (sha256 x.token) x.now).1 = .error e ∧
      s.record sha256 x = ⟨(s.cache.checkAndRecord (sha256 x.token) x.now).2, s.accepted⟩ := by
  unfold CacheRun.record
  rcases s.cache.checkAndRecord (sha256 x.token) x.now with ⟨result, cache⟩
  cases result with
  | ok u => exact .inl ⟨rfl, rfl⟩
  | error e => exact .inr ⟨e, rfl, rfl⟩

theorem record_ttl (sha256 : Bytes → D) (s : CacheRun D) (x : RecordCall) :
    (s.record sha256 x).cache.ttl = s.cache.ttl := by
  rcases record_cases sha256 s x with ⟨-, heq⟩ | ⟨e, -, heq⟩
  · rw [heq]
    exact checkAndRecord_ttl _ _ _
  · rw [heq]
    exact checkAndRecord_ttl _ _ _

/-- **One call** keeps the cache law. -/
theorem record_tracks {sha256 : Bytes → D} {s : CacheRun D} {x : RecordCall}
    (h : Tracks s.cache (s.hist sha256) x.now) :
    Tracks (s.record sha256 x).cache ((s.record sha256 x).hist sha256) x.now := by
  rcases record_cases sha256 s x with ⟨hacc, heq⟩ | ⟨e, hrej, heq⟩
  · rw [heq]
    exact tracks_accept h hacc
  · rw [heq]
    exact tracks_reject h hrej

/-- **All calls**, by induction on them: the law holds from the last instant on. -/
theorem recordAll_tracks (sha256 : Bytes → D) (ttl : Nat) (calls : List RecordCall) :
    calls.Pairwise (fun x y => x.now ≤ y.now) → ∀ now, (∀ x ∈ calls, x.now ≤ now) →
      Tracks (recordAll sha256 ttl calls).cache ((recordAll sha256 ttl calls).hist sha256) now ∧
        (recordAll sha256 ttl calls).cache.ttl = ttl := by
  induction calls using List.reverseRecOn with
  | nil =>
    intro _ now _
    exact ⟨tracks_withTtl ttl now, rfl⟩
  | append_singleton calls x ih =>
    intro hclock now hnow
    obtain ⟨hcalls, -, hlast⟩ := List.pairwise_append.mp hclock
    obtain ⟨htracks, httl⟩ := ih hcalls x.now fun y hy => hlast y hy x (List.mem_singleton_self x)
    rw [recordAll_concat]
    refine ⟨(record_tracks htracks).mono ?_, (record_ttl _ _ _).trans httl⟩
    exact hnow x (List.mem_append_right calls (List.mem_singleton_self x))

/-- What is in the table right after a call: what has not expired, and nothing else. -/
theorem lookup_record_iff {sha256 : Bytes → D} {s : CacheRun D} {x : RecordCall}
    (h : Tracks s.cache (s.hist sha256) x.now) (httl : 0 < s.cache.ttl) (d : D) (dl : Nat) :
    (s.record sha256 x).cache.seen.lookup d = some dl ↔
      x.now < dl ∧ ∃ t, (d, t) ∈ (s.record sha256 x).hist sha256 ∧ t + s.cache.ttl = dl := by
  have htracks := record_tracks h d dl
  rw [record_ttl] at htracks
  -- every entry left is ahead of the clock
  have hlive : (s.record sha256 x).cache.seen.lookup d = some dl → x.now < dl := by
    intro hlook
    rcases record_cases sha256 s x with ⟨hacc, heq⟩ | ⟨e, hrej, heq⟩
    · rw [heq, cache_of_ok hacc] at hlook
      dsimp only at hlook
      by_cases hd : d = sha256 x.token
      · subst hd
        rw [AList.lookup_insert] at hlook
        have hdl := Option.some.inj hlook
        omega
      · rw [AList.lookup_insert_ne hd] at hlook
        exact ((h.retained d dl).mp hlook).1
    · rw [heq, cache_of_error hrej] at hlook
      exact ((h.retained d dl).mp hlook).1
  constructor
  · intro hlook
    exact ⟨hlive hlook, (htracks (hlive hlook)).mp hlook⟩
  · rintro ⟨hlt, hex⟩
    exact (htracks hlt).mpr hex

/-- **The law of the replay cache.**  After any calls at non-decreasing instants, one more call is
    accepted iff no accepted call with its digest is younger than `ttl`; a refusal leaves the
    deadline of the digest as it was; and the table then holds exactly the digests accepted less
    than `ttl` ago, each once. -/
theorem replay_cache_law (sha256 : Bytes → D) (ttl : Nat) (httl : 0 < ttl)
    (calls : List RecordCall) (x : RecordCall)
    (hclock : (calls ++ [x]).Pairwise fun a b => a.now ≤ b.now) :
    (((recordAll sha256 ttl calls).cache.checkAndRecord (sha256 x.token) x.now).1 = .ok () ↔
      ¬ ∃ y ∈ (recordAll sha256 ttl calls).accepted,
        sha256 y.token = sha256 x.token ∧ x.now < y.now + ttl) ∧
    (((recordAll sha256 ttl calls).cache.checkAndRecord (sha256 x.token) x.now).1 ≠ .ok () →
      ∃ deadline, (recordAll sha256 ttl calls).cache.seen.lookup (sha256 x.token) =
          some deadline ∧
        (recordAll sha256 ttl (calls ++ [x])).cache.seen.lookup (sha256 x.token) =
          some deadline) ∧
    (∀ d deadline, (recordAll sha256 ttl (calls ++ [x])).cache.seen.lookup d = some deadline ↔
      x.now < deadline ∧ ∃ y ∈ (recordAll sha256 ttl (calls ++ [x])).accepted,
        sha256 y.token = d ∧ y.now + ttl = deadline) ∧
    (recordAll sha256 ttl (calls ++ [x])).cache.seen.keys.Nodup := by
  obtain ⟨hcalls, -, hlast⟩ := List.pairwise_append.mp hclock
  obtain ⟨htracks, httl'⟩ := recordAll_tracks sha256 ttl calls hcalls x.now
    fun y hy => hlast y hy x (List.mem_singleton_self x)
  have hok := checkAndRecord_ok_iff htracks (sha256 x.token)
  have hlookup := lookup_record_iff htracks (by rw [httl']; exact httl)
  rw [httl'] at hok hlookup
  rw [recordAll_concat]
  refine ⟨?_, ?_, ?_, AList.keys_nodup _⟩
  · rw [hok]
    constructor
    · rintro hall ⟨y, hy, hsha, hlt⟩
      have hold := hall y.now (mem_hist.mpr ⟨y, hy, hsha, rfl⟩)
      omega
    · intro hno t ht
      obtain ⟨y, hy, hsha, rfl⟩ := mem_hist.mp ht
      by_contra hlt
      exact hno ⟨y, hy, hsha, by omega⟩
  · intro hne
    -- the entry that refuses the call is live, so the eviction keeps it
    obtain ⟨t, ht, hlt⟩ := live_of_refused htracks hne
    rw [httl'] at hlt
    refine ⟨t + ttl, (htracks _ _ hlt).mpr ⟨t, ht, by rw [httl']⟩, ?_⟩
    rw [hlookup]
    refine ⟨hlt, t, ?_, rfl⟩
    rcases record_cases sha256 (recordAll sha256 ttl calls) x with ⟨hacc, -⟩ | ⟨e, -, heq⟩
    · exact absurd hacc hne
    · rw [heq]
      exact ht
  · intro d deadline
    rw [hlookup]
    constructor
    · rintro ⟨hlt, t, ht, hdl⟩
      obtain ⟨y, hy, hsha, rfl⟩ := mem_hist.mp ht
      exact ⟨hlt, y, hy, hsha, hdl⟩
    · rintro ⟨hlt, y, hy, hsha, hdl⟩
      exact ⟨hlt, y.now, mem_hist.mpr ⟨y, hy, hsha, rfl⟩, hdl⟩

/-- A token refused at instant 5 is accepted again at 10, the instant its first entry expires. -/
theorem replay_cache_law_atExpiry :
    ((recordAll id 10 [⟨[1], 0⟩, ⟨[1], 5⟩]).cache.checkAndRecord [1] 10).1 = .ok () :=
  (replay_cache_law id 10 (by decide) [⟨[1], 0⟩, ⟨[1], 5⟩] ⟨[1], 10⟩ (by decide)).1.mpr (by decide)

end NonceCache

/-! ## Runs of authentication attempts -/

/-- The ciphertext this attempt gets ACCEPTED, if any: it decodes, its timestamp validates and the
    replay cache records it. -/
def recordedToken (C : Crypto K D) (a : Attempt K) (cache : NonceCache D) : Option Bytes :=
  match presentedToken C a with
  | .error _ => none
  | .ok (ciphertext, _, _) =>
    match (cache.checkAndRecord (C.sha256 ciphertext) a.now).1 with
    | .ok () => some ciphertext
    | .error _ => none

/-- The ciphertexts accepted over a sequence of attempts, in order, each attempt running
    `check_auth_inner` on the cache the previous ones left behind. -/
def authRun (C : Crypto K D) : List (Attempt K) → NonceCache D → List Bytes
  | [], _ => []
  | a :: as, cache => (recordedToken C a cache).toList ++ authRun C as (checkAuthInner C a cache).2

/-- The attempt presents `ciphertext` with a timestamp inside the window. -/
def Presents (C : Crypto K D) (a : Attempt K) (ciphertext : Bytes) : Prop :=
  ∃ claim users, presentedToken C a = .ok (ciphertext, claim, users)

omit [DecidableEq D] in
/-- An attempt presents one ciphertext. -/
theorem Presents.unique {C : Crypto K D} {a : Attempt K} {c c' : Bytes} (h : Presents C a c)
    (h' : Presents C a c') : c = c' := by
  obtain ⟨claim, users, hp⟩ := h
  obtain ⟨claim', users', hp'⟩ := h'
  exact (Prod.mk.inj (Except.ok.inj (hp.symm.trans hp'))).1

/-- The history of acceptances as the cache sees it. -/
def digests (C : Crypto K D) (hist : List (Bytes × Nat)) : List (D × Nat) :=
  hist.map fun e => (C.sha256 e.1, e.2)

omit [DecidableEq D] in
theorem mem_digests {C : Crypto K D} {hist : List (Bytes × Nat)} {d : D} {t : Nat} :
    (d, t) ∈ digests C hist ↔ ∃ c, (c, t) ∈ hist ∧ C.sha256 c = d := by
  unfold digests
  rw [List.mem_map]
  constructor
  · rintro ⟨⟨c, t'⟩, hmem, heq⟩
    obtain ⟨rfl, rfl⟩ := Prod.mk.inj heq
    exact ⟨c, hmem, rfl⟩
  · rintro ⟨c, hmem, rfl⟩
    exact ⟨(c, t), hmem, rfl⟩

/-- The cache an attempt leaves is the one `check_and_record` leaves. -/
theorem checkAuthInner_cache {C : Crypto K D} {a : Attempt K} {c : Bytes} {claim : AuthClaim}
    {users : Table Text Text} (hp : presentedToken C a = .ok (c, claim, users))
    (cache : NonceCache D) :
    (checkAuthInner C a cache).2 = (cache.checkAndRecord (C.sha256 c) a.now).2 := by
  rw [checkAuthInner, hp]
  dsimp only
  split <;> rename_i heq <;> rw [heq]

/-- **What one attempt can do.**  Either nothing is accepted, and then whatever in-window
    ciphertext it presented has an unexpired acceptance on record; or it presents a ciphertext all
    of whose acceptances have expired, and this one is put on record. -/
theorem attempt_cases {C : Crypto K D} {a : Attempt K} {cache : NonceCache D}
    {hist : List (Bytes × Nat)} (h : cache.Tracks (digests C hist) a.now) :
    (recordedToken C a cache = none ∧
      (checkAuthInner C a cache).2.Tracks (digests C hist) a.now ∧
      ∀ c, Presents C a c → ∃ c' t, (c', t) ∈ hist ∧ C.sha256 c' = C.sha256 c ∧
        a.now < t + cache.ttl) ∨
    (∃ c, Presents C a c ∧ recordedToken C a cache = some c ∧
      (checkAuthInner C a cache).2.Tracks (digests C ((c, a.now) :: hist)) a.now ∧
      ∀ c' t, (c', t) ∈ hist → C.sha256 c' = C.sha256 c → t + cache.ttl ≤ a.now) := by
  cases hp : presentedToken C a with
  | error e =>
    refine Or.inl ⟨by rw [recordedToken, hp], ?_, ?_⟩
    · rw [checkAuthInner, hp]
      exact h
    · rintro c ⟨claim, users, hc⟩
      rw [hp] at hc
      cases hc
  | ok r =>
    obtain ⟨c, claim, users⟩ := r
    have hrec : recordedToken C a cache =
        match (cache.checkAndRecord (C.sha256 c) a.now).1 with
        | .ok () => some c
        | .error _ => none := by
      rw [recordedToken, hp]
    have hiff := NonceCache.checkAndRecord_ok_iff h (C.sha256 c)
    rw [checkAuthInner_cache hp, hrec]
    cases hres : (cache.checkAndRecord (C.sha256 c) a.now).1 with
    | error e =>
      refine Or.inl ⟨rfl, NonceCache.tracks_reject h hres, ?_⟩
      intro c₁ hc₁
      obtain rfl : c = c₁ := Presents.unique ⟨claim, users, hp⟩ hc₁
      have hnot : ¬ ∀ t, (C.sha256 c, t) ∈ digests C hist → t + cache.ttl ≤ a.now := by
        rw [← hiff, hres]
        exact fun hx => nomatch hx
      push Not at hnot
      obtain ⟨t, hmem, hlt⟩ := hnot
      obtain ⟨c', hmem', hsha⟩ := mem_digests.mp hmem
      exact ⟨c', t, hmem', hsha, hlt⟩
    | ok u =>
      refine Or.inr ⟨c, ⟨claim, users, hp⟩, rfl, NonceCache.tracks_accept h hres, ?_⟩
      intro c' t hmem hsha
      exact hiff.mp hres t (mem_digests.mpr ⟨c', hmem, hsha⟩)

theorem checkAuthInner_ttl (C : Crypto K D) (a : Attempt K) (cache : NonceCache D) :
    (checkAuthInner C a cache).2.ttl = cache.ttl := by
  unfold checkAuthInner
  split
  · rfl
  · rename_i c claim users _
    have httl := cache.checkAndRecord_ttl (C.sha256 c) a.now
    split <;> rename_i heq <;> rw [heq] at httl <;> exact httl

/-! ## The entry of one ciphertext -/

/-- SHA-256 tells the ciphertexts presented in the run apart. -/
def NoCollision (C : Crypto K D) (as : List (Attempt K)) : Prop :=
  ∀ a ∈ as, ∀ b ∈ as, ∀ c c', Presents C a c → Presents C b c' → C.sha256 c = C.sha256 c' → c = c'

/-- No other ciphertext of the run has the digest of `c`. -/
def Alone (C : Crypto K D) (c : Bytes) (as : List (Attempt K)) : Prop :=
  ∀ a ∈ as, ∀ c', Presents C a c' → C.sha256 c' = C.sha256 c → c' = c

/-- The deadline on record for a ciphertext. -/
def NonceCache.entry (C : Crypto K D) (c : Bytes) (cache : NonceCache D) : Option Nat :=
  cache.seen.lookup (C.sha256 c)

section Entry

variable {C : Crypto K D} {c : Bytes} {a : Attempt K} {cache : NonceCache D}

/-- An attempt that does not get to the cache changes nothing. -/
theorem attempt_of_absent (cache : NonceCache D) (h : ∀ c', ¬ Presents C a c') :
    recordedToken C a cache = none ∧ (checkAuthInner C a cache).2 = cache := by
  cases hp : presentedToken C a with
  | error e =>
    rw [recordedToken, checkAuthInner, hp]
    exact ⟨rfl, rfl⟩
  | ok r =>
    obtain ⟨c', claim, users⟩ := r
    exact absurd ⟨claim, users, hp⟩ (h c')

/-- An attempt with another digest evicts the entry if it has expired. -/
theorem attempt_of_other {c' : Bytes} (cache : NonceCache D) (hp : Presents C a c')
    (hne : C.sha256 c' ≠ C.sha256 c) :
    recordedToken C a cache ≠ some c ∧
      (checkAuthInner C a cache).2.entry C c = (cache.entry C c).filter (a.now < ·) := by
  obtain ⟨claim, users, hp⟩ := hp
  constructor
  · intro hrec
    rw [recordedToken, hp] at hrec
    dsimp only at hrec
    split at hrec
    · exact hne (congrArg C.sha256 (Option.some.inj hrec))
    · cases hrec
  · rw [checkAuthInner_cache hp]
    unfold NonceCache.entry NonceCache.checkAndRecord
    dsimp only
    split
    · exact Table.lookup_retain _ _ _
    · exact (AList.lookup_insert_ne hne.symm).trans (Table.lookup_retain _ _ _)

/-- An attempt with the ciphertext itself is accepted exactly if no live entry is on record. -/
theorem attempt_of_same (hp : Presents C a c) :
    ((cache.entry C c).filter (a.now < ·) = none →
      recordedToken C a cache = some c ∧
        (checkAuthInner C a cache).2.entry C c = some (a.now + cache.ttl)) ∧
    ∀ deadline, (cache.entry C c).filter (a.now < ·) = some deadline →
      recordedToken C a cache = none ∧ (checkAuthInner C a cache).2.entry C c = some deadline := by
  obtain ⟨claim, users, hp⟩ := hp
  have hlookup : (cache.seen.retain fun deadline => decide (a.now < deadline)).lookup
      (C.sha256 c) = (cache.entry C c).filter (a.now < ·) := Table.lookup_retain _ _ _
  constructor
  · intro hnone
    rw [recordedToken, hp, checkAuthInner_cache hp]
    unfold NonceCache.entry NonceCache.checkAndRecord
    simp only [hlookup, hnone, Option.isSome_none, Bool.false_eq_true, if_false, true_and]
    exact AList.lookup_insert _
  · intro deadline hsome
    rw [recordedToken, hp, checkAuthInner_cache hp]
    unfold NonceCache.entry NonceCache.checkAndRecord
    simp only [hlookup, hsome, Option.isSome_some, if_true, true_and]

/-- An attempt without the ciphertext leaves its entry alone, if that has not expired. -/
theorem attempt_keeps {as : List (Attempt K)} (cache : NonceCache D) (halone : Alone C c (a :: as))
    (hnot : ¬ Presents C a c)
    (hlive : (∃ c', Presents C a c') → (cache.entry C c).filter (a.now < ·) = cache.entry C c) :
    recordedToken C a cache ≠ some c ∧
      (checkAuthInner C a cache).2.entry C c = cache.entry C c := by
  by_cases hreaches : ∃ c', Presents C a c'
  · obtain ⟨c', hc'⟩ := hreaches
    have hne : C.sha256 c' ≠ C.sha256 c := fun heq =>
      hnot (halone a List.mem_cons_self c' hc' heq ▸ hc')
    obtain ⟨hrec, hentry⟩ := attempt_of_other cache hc' hne
    exact ⟨hrec, hentry.trans (hlive ⟨c', hc'⟩)⟩
  · obtain ⟨hrec, hcache⟩ := attempt_of_absent cache (not_exists.mp hreaches)
    rw [hrec, hcache]
    exact ⟨nofun, rfl⟩

/-- **Without an entry**, a ciphertext is accepted in a run exactly if it is presented. -/
theorem mem_authRun_of_cold : ∀ (as : List (Attempt K)) (cache : NonceCache D),
    cache.entry C c = none → Alone C c as →
    (c ∈ authRun C as cache ↔ ∃ b ∈ as, Presents C b c) := by
  intro as
  induction as with
  | nil =>
    intro cache _ _
    simp [authRun]
  | cons a as ih =>
    intro cache hcold halone
    have halone' : Alone C c as := fun b hb => halone b (List.mem_cons_of_mem a hb)
    rw [authRun, List.mem_append, Option.mem_toList, List.exists_mem_cons_iff]
    by_cases hsame : Presents C a c
    · have hnow := ((attempt_of_same hsame).1 (by rw [hcold]; rfl)).1
      exact iff_of_true (.inl hnow) (.inl hsame)
    · -- the attempt leaves no entry behind
      obtain ⟨hrec, hentry⟩ := attempt_keeps cache halone hsame fun _ => by rw [hcold]; rfl
      rw [or_iff_right hrec, or_iff_right hsame]
      exact ih _ (hentry.trans hcold) halone'

/-- The attempt evicts an entry with this deadline. -/
def Evicts (C : Crypto K D) (deadline : Nat) (x : Attempt K) : Prop :=
  (∃ c, Presents C x c) ∧ deadline ≤ x.now

/-- The splits of a list at one of its elements: at the head, or further on. -/
theorem exists_split_cons {α : Type} {P : α → List α → Prop} {x : α} {xs : List α} :
    (∃ middle y rest, x :: xs = middle ++ y :: rest ∧ P y rest) ↔
      P x xs ∨ ∃ middle y rest, xs = middle ++ y :: rest ∧ P y rest := by
  constructor
  · rintro ⟨middle, y, rest, heq, hP⟩
    cases middle with
    | nil =>
      cases heq
      exact .inl hP
    | cons z middle =>
      cases heq
      exact .inr ⟨middle, y, rest, rfl, hP⟩
  · rintro (hP | ⟨middle, y, rest, rfl, hP⟩)
    · exact ⟨[], x, xs, rfl, hP⟩
    · exact ⟨x :: middle, y, rest, rfl, hP⟩

/-- **With an entry**, a ciphertext is accepted in a run exactly if it is presented at or after an
    attempt that evicts the entry. -/
theorem mem_authRun_of_hot {deadline : Nat} : ∀ (as : List (Attempt K)) (cache : NonceCache D),
    cache.entry C c = some deadline → Alone C c as →
    (c ∈ authRun C as cache ↔ ∃ middle x rest, as = middle ++ x :: rest ∧
      Evicts C deadline x ∧ ∃ b ∈ x :: rest, Presents C b c) := by
  intro as
  induction as with
  | nil =>
    intro cache _ _
    simp [authRun]
  | cons a as ih =>
    intro cache hhot halone
    have halone' : Alone C c as := fun b hb => halone b (List.mem_cons_of_mem a hb)
    rw [authRun, List.mem_append, Option.mem_toList, exists_split_cons]
    by_cases hevicts : Evicts C deadline a
    · -- from here on the run is one without an entry
      have hgone : (cache.entry C c).filter (a.now < ·) = none := by
        rw [hhot, Option.filter_some, if_neg]
        simpa using hevicts.2
      by_cases hsame : Presents C a c
      · exact iff_of_true (.inl ((attempt_of_same hsame).1 hgone).1)
          (.inl ⟨hevicts, a, List.mem_cons_self, hsame⟩)
      · obtain ⟨c', hc'⟩ := hevicts.1
        have hne : C.sha256 c' ≠ C.sha256 c := fun heq =>
          hsame (halone a List.mem_cons_self c' hc' heq ▸ hc')
        obtain ⟨hrec, hentry⟩ := attempt_of_other cache hc' hne
        rw [or_iff_right hrec, mem_authRun_of_cold as _ (hentry.trans hgone) halone']
        constructor
        · rintro ⟨b, hb, hpb⟩
          exact .inl ⟨hevicts, b, List.mem_cons_of_mem a hb, hpb⟩
        · rintro (⟨-, hb⟩ | ⟨middle, x, rest, rfl, -, b, hb, hpb⟩)
          · exact (List.exists_mem_cons_iff _ _ _).mp hb |>.resolve_left hsame
          · exact ⟨b, List.mem_append_right _ hb, hpb⟩
    · -- the entry stays
      have hlive : (∃ c', Presents C a c') →
          (cache.entry C c).filter (a.now < ·) = cache.entry C c := by
        intro hreaches
        rw [hhot, Option.filter_some, if_pos]
        have hlt : a.now < deadline := Nat.not_le.mp fun hle => hevicts ⟨hreaches, hle⟩
        simpa using hlt
      have hkeeps : recordedToken C a cache ≠ some c ∧
          (checkAuthInner C a cache).2.entry C c = some deadline := by
        by_cases hsame : Presents C a c
        · obtain ⟨hrec, hentry⟩ :=
            (attempt_of_same hsame).2 deadline ((hlive ⟨c, hsame⟩).trans hhot)
          exact ⟨by rw [hrec]; nofun, hentry⟩
        · obtain ⟨hrec, hentry⟩ := attempt_keeps cache halone hsame hlive
          exact ⟨hrec, hentry.trans hhot⟩
      rw [or_iff_right hkeeps.1, ih _ hkeeps.2 halone',
        or_iff_right fun h => hevicts h.1]

end Entry

/-! ## Runs in which an acceptance lapses -/

/-- A ciphertext goes on record when it is first presented, by `a`; `x` evicts that entry; and the
    ciphertext is presented again, by `x` or after it. -/
def Lapsed (C : Crypto K D) (ttl : Nat) (as : List (Attempt K)) : Prop :=
  ∃ c before a middle x rest, as = before ++ a :: (middle ++ x :: rest) ∧ Presents C a c ∧
    (∀ e ∈ before, ¬ Presents C e c) ∧ Evicts C (a.now + ttl) x ∧ ∃ b ∈ x :: rest, Presents C b c

/-- The cache after a run. -/
def cacheAfter (C : Crypto K D) (as : List (Attempt K)) (cache : NonceCache D) : NonceCache D :=
  as.foldl (fun cache a => (checkAuthInner C a cache).2) cache

section Runs

variable {C : Crypto K D}

theorem authRun_append (as bs : List (Attempt K)) (cache : NonceCache D) :
    authRun C (as ++ bs) cache = authRun C as cache ++ authRun C bs (cacheAfter C as cache) := by
  induction as generalizing cache with
  | nil => rfl
  | cons a as ih =>
    rw [List.cons_append, authRun, authRun, ih, List.append_assoc]
    rfl

theorem cacheAfter_ttl (as : List (Attempt K)) (cache : NonceCache D) :
    (cacheAfter C as cache).ttl = cache.ttl := by
  induction as generalizing cache with
  | nil => rfl
  | cons a as ih => exact (ih _).trans (checkAuthInner_ttl C a cache)

/-- A ciphertext that has not been presented has no entry. -/
theorem entry_cacheAfter {c : Bytes} (as : List (Attempt K)) (cache : NonceCache D)
    (hcold : cache.entry C c = none) (halone : Alone C c as) (hnew : ∀ e ∈ as, ¬ Presents C e c) :
    (cacheAfter C as cache).entry C c = none := by
  induction as generalizing cache with
  | nil => exact hcold
  | cons a as ih =>
    refine ih _ ?_ (fun b hb => halone b (List.mem_cons_of_mem a hb))
      fun e he => hnew e (List.mem_cons_of_mem a he)
    by_cases hreaches : ∃ c', Presents C a c'
    · obtain ⟨c', hc'⟩ := hreaches
      have hne : C.sha256 c' ≠ C.sha256 c := fun heq =>
        hnew a List.mem_cons_self (halone a List.mem_cons_self c' hc' heq ▸ hc')
      rw [(attempt_of_other _ hc' hne).2, hcold]
      rfl
    · have hcache := (attempt_of_absent cache (not_exists.mp hreaches)).2
      exact (congrArg (NonceCache.entry C c) hcache).trans hcold

omit [DecidableEq D] in
theorem Alone.of_noCollision {as : List (Attempt K)} (h : NoCollision C as) {a : Attempt K}
    (ha : a ∈ as) {c : Bytes} (hc : Presents C a c) : Alone C c as :=
  fun b hb c' hc' heq => h b hb a ha c' c hc' hc heq

/-- What a run makes of a ciphertext first presented by `a`. -/
theorem authRun_at_first {c : Bytes} {before after : List (Attempt K)} {a : Attempt K} (ttl : Nat)
    (halone : Alone C c (before ++ a :: after)) (hpa : Presents C a c)
    (hfirst : ∀ e ∈ before, ¬ Presents C e c) :
    ∃ cache : NonceCache D, cache.entry C c = some (a.now + ttl) ∧
      authRun C (before ++ a :: after) (.withTtl ttl) =
        authRun C before (.withTtl ttl) ++ c :: authRun C after cache ∧
      c ∉ authRun C before (.withTtl ttl) := by
  have hbefore : Alone C c before := fun b hb => halone b (List.mem_append_left _ hb)
  have hcold := entry_cacheAfter before (.withTtl ttl) rfl hbefore hfirst
  obtain ⟨hrec, hentry⟩ := (attempt_of_same hpa).1 (by rw [hcold]; rfl)
  refine ⟨_, hentry.trans ?_, ?_, ?_⟩
  · rw [cacheAfter_ttl]
    rfl
  · rw [authRun_append, authRun, hrec]
    rfl
  · rw [mem_authRun_of_cold before _ rfl hbefore]
    rintro ⟨e, he, hpe⟩
    exact hfirst e he hpe

/-- Whatever is accepted has been presented. -/
theorem presents_of_mem_authRun {c : Bytes} (as : List (Attempt K)) (cache : NonceCache D)
    (h : c ∈ authRun C as cache) : ∃ b ∈ as, Presents C b c := by
  induction as generalizing cache with
  | nil => exact absurd h List.not_mem_nil
  | cons a as ih =>
    rcases List.mem_append.mp h with hnow | hlater
    · refine ⟨a, List.mem_cons_self, ?_⟩
      cases hp : presentedToken C a with
      | error e =>
        rw [recordedToken, hp] at hnow
        exact absurd hnow List.not_mem_nil
      | ok r =>
        obtain ⟨c', claim, users⟩ := r
        by_contra hnot
        have hother : c' ≠ c := fun heq => hnot (heq ▸ ⟨claim, users, hp⟩)
        rw [Option.mem_toList, recordedToken, hp] at hnow
        dsimp only at hnow
        split at hnow
        · exact hother (Option.some.inj hnow)
        · cases hnow
    · obtain ⟨b, hb, hpb⟩ := ih _ hlater
      exact ⟨b, List.mem_cons_of_mem a hb, hpb⟩

omit [DecidableEq D] in
/-- The first attempt that presents a ciphertext. -/
theorem exists_first {c : Bytes} {as : List (Attempt K)} (h : ∃ b ∈ as, Presents C b c) :
    ∃ before a after, as = before ++ a :: after ∧ Presents C a c ∧
      ∀ e ∈ before, ¬ Presents C e c := by
  classical
  obtain ⟨b, hb, hpb⟩ := h
  have hfound : (as.find? fun e => decide (Presents C e c)).isSome = true :=
    List.find?_isSome.mpr ⟨b, hb, decide_eq_true hpb⟩
  obtain ⟨a, ha⟩ := Option.isSome_iff_exists.mp hfound
  obtain ⟨hpa, before, after, heq, hbefore⟩ := List.find?_eq_some_iff_append.mp ha
  refine ⟨before, a, after, heq, of_decide_eq_true hpa, fun e he => ?_⟩
  simpa using hbefore e he

/-- **Replay safety, exactly**: nothing is accepted twice iff nothing lapses. -/
theorem authRun_nodup_iff_not_lapsed {as : List (Attempt K)} (hsha : NoCollision C as) (ttl : Nat) :
    (authRun C as (.withTtl ttl)).Nodup ↔ ¬ Lapsed C ttl as := by
  constructor
  · rintro hnodup ⟨c, before, a, middle, x, rest, rfl, hpa, hfirst, hx, hb⟩
    have halone := Alone.of_noCollision hsha (List.mem_append_right before List.mem_cons_self) hpa
    obtain ⟨cache, hentry, hrun, -⟩ := authRun_at_first ttl halone hpa hfirst
    have hagain : c ∈ authRun C (middle ++ x :: rest) cache := by
      rw [mem_authRun_of_hot _ cache hentry fun b hb =>
        halone b (List.mem_append_right _ (List.mem_cons_of_mem a hb))]
      exact ⟨middle, x, rest, rfl, hx, hb⟩
    rw [hrun] at hnodup
    exact (List.nodup_cons.mp (List.nodup_append.mp hnodup).2.1).1 hagain
  · intro hnot
    rw [List.nodup_iff_count_le_one]
    intro c
    by_contra htwice
    have hmem : c ∈ authRun C as (.withTtl ttl) := List.count_pos_iff.mp (by omega)
    obtain ⟨before, a, after, rfl, hpa, hfirst⟩ := exists_first (presents_of_mem_authRun _ _ hmem)
    have halone := Alone.of_noCollision hsha (List.mem_append_right before List.mem_cons_self) hpa
    obtain ⟨cache, hentry, hrun, hnew⟩ := authRun_at_first ttl halone hpa hfirst
    -- accepted at `a` and not before, so once more after it
    have hagain : c ∈ authRun C after cache := by
      rw [hrun, List.count_append, List.count_eq_zero.mpr hnew, List.count_cons_self] at htwice
      exact List.count_pos_iff.mp (by omega)
    rw [mem_authRun_of_hot _ cache hentry fun b hb =>
      halone b (List.mem_append_right _ (List.mem_cons_of_mem a hb))] at hagain
    obtain ⟨middle, x, rest, rfl, hx, hb⟩ := hagain
    exact hnot ⟨c, before, a, middle, x, rest, rfl, hpa, hfirst, hx, hb⟩

/-! ## Readings in order -/

/-- `b` comes while an acceptance at `a` would still be on record, for every ciphertext both of
    them present. -/
def Fresh (C : Crypto K D) (ttl : Nat) (a b : Attempt K) : Prop :=
  ∀ c, Presents C a c → Presents C b c → b.now < a.now + ttl

/-- The instants of a run are in the order of the attempts. -/
def Monotone (as : List (Attempt K)) : Prop := as.Pairwise fun a b => a.now ≤ b.now

omit [DecidableEq D] in
/-- **With the readings in order**, an acceptance lapses exactly if a ciphertext comes again a
    lifetime after one of its presentations. -/
theorem not_lapsed_iff_fresh {as : List (Attempt K)} {ttl : Nat} (hmono : Monotone as) :
    ¬ Lapsed C ttl as ↔ as.Pairwise (Fresh C ttl) := by
  constructor
  · intro hnot
    refine List.pairwise_iff_forall_sublist.mpr fun {a b} hsub c hpa hpb => ?_
    by_contra hlate
    have ha : a ∈ as := hsub.subset List.mem_cons_self
    obtain ⟨before, a₀, after, rfl, hpa₀, hfirst⟩ := exists_first ⟨a, ha, hpa⟩
    -- `a` is `a₀` or comes after it, and `b` comes after `a`
    obtain ⟨l, l', hl, hbefore, hafter⟩ := List.sublist_append_iff.mp hsub
    have hnil : l = [] := by
      cases l with
      | nil => rfl
      | cons y l =>
        obtain rfl : a = y := (List.cons.inj hl).1
        exact absurd hpa (hfirst a (hbefore.subset List.mem_cons_self))
    rw [hnil, List.nil_append] at hl
    rw [← hl] at hafter
    have horder := List.pairwise_cons.mp (List.pairwise_append.mp hmono).2.1
    have hb : b ∈ after := by
      cases hafter with
      | cons _ h => exact h.subset (List.mem_cons_of_mem a List.mem_cons_self)
      | cons_cons _ h => exact h.subset List.mem_cons_self
    have hle : a₀.now ≤ a.now := by
      rcases List.mem_cons.mp (hafter.subset List.mem_cons_self) with rfl | ha
      · exact Nat.le_refl _
      · exact horder.1 a ha
    obtain ⟨middle, rest, rfl⟩ := List.append_of_mem hb
    refine hnot ⟨c, before, a₀, middle, b, rest, rfl, hpa₀, hfirst, ⟨⟨c, hpb⟩, ?_⟩, b,
      List.mem_cons_self, hpb⟩
    omega
  · rintro hfresh ⟨c, before, a, middle, x, rest, rfl, hpa, -, ⟨-, hx⟩, b, hb, hpb⟩
    have hlater := (List.pairwise_cons.mp (List.pairwise_append.mp hfresh).2.1).1 b
      (List.mem_append_right _ hb) c hpa hpb
    have horder := (List.pairwise_cons.mp (List.pairwise_append.mp hmono).2.1).2
    rcases List.mem_cons.mp hb with rfl | hb
    · omega
    · have hxb := (List.pairwise_cons.mp (List.pairwise_append.mp horder).2.1).1 b hb
      omega

end Runs

/-! ## The timestamp window, and the theorem -/

omit [DecidableEq D] in
/-- What a presented token went through. -/
theorem presentedToken_ok {C : Crypto K D} {a : Attempt K} {c : Bytes} {claim : AuthClaim}
    {users : Table Text Text} (h : presentedToken C a = .ok (c, claim, users)) :
    ∃ k, a.keyFile = .ok k ∧ decodeAuthtokenBytes C k c = .ok claim ∧
      validateTimestamp a.wall claim timestampSkewSecs = .ok () := by
  obtain ⟨k, hk, h⟩ := bind_eq_ok.mp h
  obtain ⟨users', -, h⟩ := bind_eq_ok.mp h
  obtain ⟨token, -, h⟩ := bind_eq_ok.mp h
  obtain ⟨c', -, h⟩ := bind_eq_ok.mp h
  obtain ⟨claim', hdec, h⟩ := bind_eq_ok.mp h
  obtain ⟨u, hval, h⟩ := bind_eq_ok.mp h
  obtain ⟨rfl, hrest⟩ := Prod.mk.inj (Except.ok.inj h)
  obtain ⟨rfl, -⟩ := Prod.mk.inj hrest
  exact ⟨k, hk, hdec, hval⟩

/-- The acceptance window in truncated seconds. -/
theorem validateTimestamp_ok_iff {wall : Int} {claim : AuthClaim} {skew : Nat} :
    validateTimestamp wall claim skew = .ok () ↔
      ∃ s, unixSecs wall = .ok s ∧ claim.timestamp ≤ s + skew ∧ s ≤ claim.timestamp + skew := by
  unfold validateTimestamp
  cases hs : unixSecs wall with
  | error e =>
    constructor
    · intro h
      cases h
    · rintro ⟨s, h, -⟩
      cases h
  | ok s =>
    dsimp only
    by_cases hle : absDiff s claim.timestamp > skew
    · rw [if_pos hle]
      unfold absDiff at hle
      constructor
      · intro h
        cases h
      · rintro ⟨s', h, h1, h2⟩
        obtain rfl := Except.ok.inj h
        omega
    · rw [if_neg hle]
      unfold absDiff at hle
      exact ⟨fun _ => ⟨s, rfl, by omega, by omega⟩, fun _ => rfl⟩

/-- The wall clock at a truncated second. -/
theorem unixSecs_ok_iff {wall : Int} {s : Nat} :
    unixSecs wall = .ok s ↔ (fromSecs s : Int) ≤ wall ∧ wall < fromSecs (s + 1) := by
  unfold unixSecs fromSecs nanos
  split
  · exact iff_of_false nofun (by omega)
  · rw [Except.ok.injEq]
    omega

/-- One ciphertext presented by `a` in the FIRST second of its window, or less than `d` after it,
    and by `b` in the LAST second or at most `d` before it, when an acceptance by `a` has
    expired. -/
def EdgeReplay (C : Crypto K D) (d : Nat) (a b : Attempt K) : Prop :=
  ∃ c claim users users', presentedToken C a = .ok (c, claim, users) ∧
    presentedToken C b = .ok (c, claim, users') ∧
    a.wall + fromSecs timestampSkewSecs < fromSecs (claim.timestamp + 1) + d ∧
    fromSecs (claim.timestamp + timestampSkewSecs) ≤ b.wall + d ∧
    a.now + fromSecs (timestampSkewSecs * 2) ≤ b.now

/-- Attempts in the order in which they get to the cache, as the environment provides them. -/
structure AuthTrace (C : Crypto K D) (offset : Int) (as : List (Attempt K)) : Prop where
  /-- The wall clock and the monotonic clock advance at the same rate; an attempt reads the wall
      clock first. -/
  wall : ∀ a ∈ as, a.wall ≤ a.now + offset
  /-- The private key does not change, so decryption is a function of the ciphertext. -/
  key : ∀ a ∈ as, ∀ b ∈ as, ∀ k k', a.keyFile = .ok k → b.keyFile = .ok k' → k = k'
  /-- SHA-256 has no collision on the presented ciphertexts. -/
  sha : NoCollision C as

/-- Two readings in the window of `T` that are `2 * skew` less `d` apart are near its two ends. -/
theorem window_ends {wall wall' offset : Int} {now now' d T s s' : Nat}
    (ha : wall ≤ now + offset) (hb : now' + offset ≤ wall' + d) (hs : unixSecs wall = .ok s)
    (hs' : unixSecs wall' = .ok s') (hlo : T ≤ s + timestampSkewSecs)
    (hhi : s' ≤ T + timestampSkewSecs) (hlate : now + fromSecs (timestampSkewSecs * 2) ≤ now') :
    wall + fromSecs timestampSkewSecs < fromSecs (T + 1) + d ∧
      fromSecs (T + timestampSkewSecs) ≤ wall' + d := by
  obtain ⟨hstart, -⟩ := unixSecs_ok_iff.mp hs
  obtain ⟨-, hend⟩ := unixSecs_ok_iff.mp hs'
  clear hs hs'
  unfold fromSecs timestampSkewSecs nanos at *
  omega

omit [DecidableEq D] in
/-- A late repetition can only happen from one edge of the window to the other. -/
theorem fresh_iff_not_edgeReplay {C : Crypto K D} {offset : Int} {d : Nat} {a b : Attempt K}
    (ha : a.wall ≤ a.now + offset) (hb : b.now + offset ≤ b.wall + d)
    (hkey : ∀ k k', a.keyFile = .ok k → b.keyFile = .ok k' → k = k') :
    Fresh C (fromSecs (timestampSkewSecs * 2)) a b ↔ ¬ EdgeReplay C d a b := by
  constructor
  · rintro hf ⟨c, claim, users, users', hpa, hpb, -, -, hlate⟩
    have := hf c ⟨claim, users, hpa⟩ ⟨claim, users', hpb⟩
    omega
  · rintro hne c ⟨claim, users, hpa⟩ ⟨claim', users', hpb⟩
    by_contra hlate
    obtain ⟨k, hk, hdec, hval⟩ := presentedToken_ok hpa
    obtain ⟨k', hk', hdec', hval'⟩ := presentedToken_ok hpb
    obtain rfl := hkey k k' hk hk'
    obtain rfl : claim = claim' := Except.ok.inj (hdec.symm.trans hdec')
    obtain ⟨s, hs, hlo, -⟩ := validateTimestamp_ok_iff.mp hval
    obtain ⟨s', hs', -, hhi⟩ := validateTimestamp_ok_iff.mp hval'
    obtain ⟨hbegin, hend⟩ := window_ends ha hb hs hs' hlo hhi (Nat.not_lt.mp hlate)
    exact hne ⟨c, claim, users, users', hpa, hpb, hbegin, hend, Nat.not_lt.mp hlate⟩

/-- **Replay safety, exactly.**  Over any run no ciphertext is accepted twice iff no acceptance
    lapses.  If the instants are in order and the two readings of an attempt at most `d` apart, that
    is: iff no ciphertext is presented at the beginning of its window and again, `2 * skew` seconds
    later, at its end, the two ends being taken to `d`. -/
theorem authRun_nodup_iff (C : Crypto K D) (offset : Int) (as : List (Attempt K))
    (h : AuthTrace C offset as) :
    ((authRun C as NonceCache.new).Nodup ↔
      ¬ Lapsed C (fromSecs (timestampSkewSecs * 2)) as) ∧
    ∀ d : Nat, Monotone as → (∀ a ∈ as, a.now + offset ≤ a.wall + d) →
      ((authRun C as NonceCache.new).Nodup ↔ as.Pairwise fun a b => ¬ EdgeReplay C d a b) := by
  have hexact := authRun_nodup_iff_not_lapsed h.sha (fromSecs (timestampSkewSecs * 2))
  refine ⟨hexact, fun d hmono hlag => ?_⟩
  refine hexact.trans ((not_lapsed_iff_fresh hmono).trans ?_)
  refine List.Pairwise.iff_of_mem fun {a b} ha hb => ?_
  exact fresh_iff_not_edgeReplay (h.wall a ha) (hlag b hb) (h.key a ha b hb)

/-! ## A run that goes from one edge to the other -/

/-- A payload stamped with second 100, as `build_authtoken` formats it. -/
def edgePayload : Text := "100\nalice\n".toList ++ List.replicate 64 '0'

/-- A token that decrypts to `edgePayload`; digests are the ciphertexts themselves. -/
def edgeCrypto : Crypto Unit Bytes where
  base64Decode s := .ok (asBytes s.toList)
  decrypt _ _ := .ok (asBytes edgePayload)
  sha256 := id

/-- The token presented when the clocks read `wall` and `now`, both files loading. -/
def edgeAttempt (wall now : Nat) : Attempt Unit where
  keyFile := .ok ()
  usersFile := .ok ∅
  opts := { ClientOptions.tcpDefaults 10 1 defaultTcpLen with authtoken := some "dG9rZW4=" }
  wall := wall
  now := now

theorem edgePayload_parses :
    parseClaim edgePayload = .ok ⟨100, "alice".toList, List.replicate 64 '0'⟩ := by
  decide +kernel

/-- Inside the window the token is presented with its claim. -/
theorem edgeAttempt_presents {wall now : Nat} (hlo : fromSecs 90 ≤ wall)
    (hhi : wall < fromSecs 111) :
    presentedToken edgeCrypto (edgeAttempt wall now) =
      .ok (asBytes "dG9rZW4=".toList, ⟨100, "alice".toList, List.replicate 64 '0'⟩, ∅) := by
  have hdec : decodeAuthtokenBytes edgeCrypto () (asBytes "dG9rZW4=".toList) =
      .ok ⟨100, "alice".toList, List.replicate 64 '0'⟩ :=
    (decodeAuthtokenBytes_of_decrypt rfl).trans edgePayload_parses
  have hsecs : unixSecs wall = .ok (wall / nanos) := by
    rw [unixSecs, if_neg (by omega), Int.toNat_natCast]
  have hval : validateTimestamp wall
      ⟨100, "alice".toList, List.replicate 64 '0'⟩ timestampSkewSecs = .ok () := by
    refine validateTimestamp_ok_iff.mpr ⟨_, hsecs, ?_, ?_⟩
    · show 100 ≤ wall / nanos + 10
      unfold fromSecs nanos at *
      omega
    · show wall / nanos ≤ 100 + 10
      unfold fromSecs nanos at *
      omega
  unfold presentedToken
  refine bind_eq_ok.mpr ⟨(), rfl, bind_eq_ok.mpr ⟨∅, rfl, bind_eq_ok.mpr ⟨_, rfl, ?_⟩⟩⟩
  refine bind_eq_ok.mpr ⟨_, rfl, bind_eq_ok.mpr ⟨_, hdec, bind_eq_ok.mpr ⟨(), hval, rfl⟩⟩⟩

/-- Two attempts whose wall clock is read first form a run of the environment. -/
theorem edgeTrace {wall now wall' now' : Nat} (h : wall ≤ now) (h' : wall' ≤ now') :
    AuthTrace edgeCrypto 0 [edgeAttempt wall now, edgeAttempt wall' now'] where
  wall := by
    intro a ha
    rcases List.mem_pair.mp ha with rfl | rfl
    · show (wall : Int) ≤ now + 0
      omega
    · show (wall' : Int) ≤ now' + 0
      omega
  key := fun _ _ _ _ _ _ _ _ => rfl
  sha := fun _ _ _ _ _ _ _ _ h => h

omit [DecidableEq D] in
theorem lapsed_pair {C : Crypto K D} {ttl : Nat} {a b : Attempt K} {c : Bytes}
    (ha : Presents C a c) (hb : Presents C b c) (hlate : a.now + ttl ≤ b.now) :
    Lapsed C ttl [a, b] :=
  ⟨c, [], a, [], b, [], rfl, ha, fun _ he => absurd he List.not_mem_nil, ⟨⟨c, hb⟩, hlate⟩, b,
    List.mem_cons_self, hb⟩

/-- A lifetime after its first presentation the token is accepted again. -/
theorem edge_accepted_again {a b : Attempt Unit} {c : Bytes} (ha : Presents edgeCrypto a c)
    (hb : Presents edgeCrypto b c) (hlate : a.now + fromSecs (timestampSkewSecs * 2) ≤ b.now) :
    ¬ (authRun edgeCrypto [a, b] NonceCache.new).Nodup := by
  have hsha : NoCollision edgeCrypto [a, b] := fun _ _ _ _ _ _ _ _ h => h
  exact fun hnodup => (authRun_nodup_iff_not_lapsed hsha _).mp hnodup (lapsed_pair ha hb hlate)

/-- The token at second 90 and at second 110, each read off both clocks at once. -/
def edgeRun : List (Attempt Unit) :=
  [edgeAttempt (fromSecs 90) (fromSecs 90), edgeAttempt (fromSecs 110) (fromSecs 110)]

/-- The token at second 91, and again when the wall clock is read a tenth of a millisecond before
    second 111 and the other clock a tenth of a millisecond after it. -/
def lateRun : List (Attempt Unit) :=
  [edgeAttempt (fromSecs 91) (fromSecs 91),
    edgeAttempt (fromSecs 111 - 100000) (fromSecs 111 + 100000)]

/-- **The failing runs**: a token stamped 100 is accepted AGAIN twenty seconds later. -/
theorem edge_replay_accepted :
    (AuthTrace edgeCrypto 0 edgeRun ∧ ¬ (authRun edgeCrypto edgeRun NonceCache.new).Nodup) ∧
    (AuthTrace edgeCrypto 0 lateRun ∧ ¬ (authRun edgeCrypto lateRun NonceCache.new).Nodup) := by
  have hpresents : ∀ {wall now : Nat}, fromSecs 90 ≤ wall → wall < fromSecs 111 →
      Presents edgeCrypto (edgeAttempt wall now) (asBytes "dG9rZW4=".toList) :=
    fun hlo hhi => ⟨_, _, edgeAttempt_presents hlo hhi⟩
  refine ⟨⟨edgeTrace (by decide) (by decide), ?_⟩, ⟨edgeTrace (by decide) (by decide), ?_⟩⟩
  · exact edge_accepted_again (hpresents (by decide) (by decide))
      (hpresents (by decide) (by decide)) (by decide)
  · exact edge_accepted_again (hpresents (by decide) (by decide))
      (hpresents (by decide) (by decide)) (by decide)

/-- First presented one second later, the token is still on record at second 110. -/
theorem authRun_nodup_iff_edge :
    (authRun edgeCrypto [edgeAttempt (fromSecs 91) (fromSecs 91),
      edgeAttempt (fromSecs 110) (fromSecs 110)] NonceCache.new).Nodup := by
  have htrace : AuthTrace edgeCrypto 0 [edgeAttempt (fromSecs 91) (fromSecs 91),
      edgeAttempt (fromSecs 110) (fromSecs 110)] := edgeTrace (by decide) (by decide)
  refine ((authRun_nodup_iff edgeCrypto 0 _ htrace).2 0 ?_ ?_).mpr ?_
  · exact List.pairwise_pair.mpr (by decide)
  · intro a ha
    rcases List.mem_pair.mp ha with rfl | rfl
    · exact Int.le_refl _
    · exact Int.le_refl _
  · refine List.pairwise_pair.mpr ?_
    rintro ⟨c, claim, users, users', -, -, -, -, hlate⟩
    exact absurd hlate (by decide)

end Rperf3
