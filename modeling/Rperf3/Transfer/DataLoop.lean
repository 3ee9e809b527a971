/-
  THE DATA LOOPS of `common/stream.rs` and `server.rs`, as one loop with parameters.

  Seven threads move payload bytes through a socket, each in its own copy of one loop: test the
  time, test the limits, ask the pacer, make the call, account for what it moved.  `DataLoop` is
  what the copies differ in, and `DataLoop.turn` one pass through the body.

  The clock is part of the state and a turn only says how much time passes before each reading, so
  the readings of a run never go back.

  1. `Pass` — everything a pass can do, guards included; `pass_turn` is the only place where `turn`
     is unfolded.
  2. `Reachable.invariant` — the rule for what holds along all runs of a loop.
  3. `Recorded` — the first such invariant: the receipt is the tally of the transfers made so far,
     and these are in the order of time.
-/
import Mathlib.Data.Rat.Floor
import Rperf3.Lib.Turns
import Rperf3.Common.Interval
import Rperf3.Common.Pacing

namespace Rperf3

open Turns WindowTally

/-- `now.duration_since(first) < omit`. -/
def inOmit (omitWindow first now : Nat) : Bool := decide (now - first < omitWindow)

/-- What `std::thread::sleep` takes at the least: `Duration::from_secs_f64` rounds to the nearest
    nanosecond. -/
def sleepNanos (d : ℚ) : Nat := ⌊d * nanos + 1 / 2⌋₊

/-- What one pass meets: how long it takes to the loop test, from there to the pacer and from there
    to the end of the call or of the pause, and what the call returns. -/
structure Turn where
  beforeTest : Nat
  beforePace : Nat
  inCall : Nat
  outcome : Except IoError Nat

/-- What the copies of the loop differ in. -/
structure DataLoop (R : Type) where
  /-- Length of the buffer handed to the call. -/
  len : Nat
  /-- The loop ends when the timer has run this long. -/
  budget : Option Nat
  maxBytes : Option Nat
  maxBlocks : Option Nat
  /-- The rate of the token bucket, in a paced loop. -/
  rate : Option Nat
  /-- Does a call that moves nothing end the loop? -/
  zeroEnds : Bool
  /-- The errors after which the call is made again. -/
  retries : ErrorKind → Bool
  omitWindow : Nat
  /-- The stream id under which the loop prints interval rows. -/
  reports : Option Nat
  /-- Is the reporter flushed after the loop? -/
  flushes : Bool
  empty : R
  /-- The receipt after `n` bytes at `now`. -/
  record : Nat → Nat → R → R
  tally : R → Tally Nat
  tally_empty : tally empty = .empty
  tally_record : ∀ now n r, tally (record now n r) = (tally r).add (inOmit omitWindow) n now

/-- The local state of a loop.  `log` and `starts` are not in the source: the transfers made, and
    the byte count at the start of each call. -/
structure LoopState (R : Type) where
  timer : Nat
  clock : Nat
  receipt : R
  bucket : Option TokenBucket
  reporter : Option IntervalReporter
  rows : List IntervalSnapshot
  log : List Transfer
  starts : List Nat

namespace LoopState

variable {R : Type} (s : LoopState R)

/-- The same state, later. -/
def after (d : Nat) : LoopState R := { s with clock := s.clock + d }

/-- What the pacer asks for. -/
def wait : Option ℚ := s.bucket.bind fun b => b.wait (secs s.clock)

end LoopState

namespace DataLoop

variable {R : Type} (L : DataLoop R)

/-- The loop's byte count. -/
def count (s : LoopState R) : Nat := (L.tally s.receipt).total

/-- `Timer::is_elapsed`. -/
def isElapsed (s : LoopState R) : Bool := L.budget.any (· ≤ s.clock - s.timer)

/-- A call begins. -/
def call (s : LoopState R) : LoopState R := { s with starts := s.starts ++ [L.count s] }

/-- The call has moved `n` bytes: the bucket, the receipt and the reporter are told. -/
def moved (n : Nat) (s : LoopState R) : LoopState R :=
  let reported := s.reporter.map (·.onBytes n s.clock)
  { s with
    receipt := L.record s.clock n s.receipt
    bucket := s.bucket.map (·.record n)
    reporter := reported.map Prod.snd
    rows := s.rows ++ (reported.bind Prod.fst).toList
    log := s.log ++ [⟨n, s.clock⟩] }

/-- One pass through the loop, from the loop test. -/
def turn (t : Turn) (s : LoopState R) : Flow (LoopState R) :=
  let s := s.after t.beforeTest
  if L.isElapsed s then .leave s
  else if L.maxBytes.any (· ≤ L.count s) then .leave s
  else if L.maxBlocks.isSome && L.len = 0 then .panic
  else if L.maxBlocks.any (· ≤ L.count s / L.len) then .leave s
  else
    let s := s.after t.beforePace
    match s.wait with
    | some d => .next (s.after (sleepNanos d + t.inCall))
    | none =>
      let s := (L.call s).after t.inCall
      match t.outcome with
      | .ok m =>
        if 0 < min m L.len then .next (L.moved (min m L.len) s)
        else if L.zeroEnds then .leave s
        else .next s
      | .error e => if L.retries e.kind then .next s else .leave s

/-- The state before the first pass: the timer is started, then the bucket. -/
def start (timer setup : Nat) : LoopState R where
  timer := timer
  clock := timer + setup
  receipt := L.empty
  bucket := L.rate.map fun rate => .new rate (secs (timer + setup))
  reporter := L.reports.map fun streamId => .new streamId nanos
  rows := []
  log := []
  starts := []

/-- The whole loop. -/
def run (timer setup : Nat) (turns : List Turn) : Option (Turns.Ending (LoopState R)) :=
  loop L.turn turns (L.start timer setup)

/-- The rows printed when the loop's function returns: a flush reports at the last transfer, and
    only what has bytes. -/
def printed (s : LoopState R) : List IntervalSnapshot :=
  s.rows ++
    if L.flushes then
      match s.reporter, (L.tally s.receipt).last with
      | some r, some last => (r.flush last).1.toList.filter fun snap => 0 < snap.bytes
      | _, _ => []
    else []

/-! ## What a pass does -/

/-- The tests at the top of the body let the loop go on. -/
structure GoesOn (s : LoopState R) : Prop where
  time : ¬ L.isElapsed s = true
  bytes : ¬ L.maxBytes.any (· ≤ L.count s) = true
  divides : ¬ (L.maxBlocks.isSome && L.len = 0) = true
  blocks : ¬ L.maxBlocks.any (· ≤ L.count s / L.len) = true

/-- A call is made: the tests have let it through, and the pacer at `now`. -/
structure Calls (t : Turn) (s : LoopState R) : Prop extends L.GoesOn (s.after t.beforeTest) where
  wait : ((s.after t.beforeTest).after t.beforePace).wait = none

/-- The state when the call of a pass has returned. -/
def called (t : Turn) (s : LoopState R) : LoopState R :=
  (L.call ((s.after t.beforeTest).after t.beforePace)).after t.inCall

/-- What one pass can do. -/
inductive Pass (t : Turn) (s : LoopState R) : Flow (LoopState R) → Prop
  | timeUp (htime : L.isElapsed (s.after t.beforeTest) = true) :
      Pass t s (.leave (s.after t.beforeTest))
  | bytesFull (htime : ¬ L.isElapsed (s.after t.beforeTest) = true)
      (hbytes : L.maxBytes.any (· ≤ L.count s) = true) : Pass t s (.leave (s.after t.beforeTest))
  | divides (htime : ¬ L.isElapsed (s.after t.beforeTest) = true)
      (hbytes : ¬ L.maxBytes.any (· ≤ L.count s) = true)
      (hzero : (L.maxBlocks.isSome && L.len = 0) = true) : Pass t s .panic
  | blocksFull (htime : ¬ L.isElapsed (s.after t.beforeTest) = true)
      (hbytes : ¬ L.maxBytes.any (· ≤ L.count s) = true)
      (hzero : ¬ (L.maxBlocks.isSome && L.len = 0) = true)
      (hblocks : L.maxBlocks.any (· ≤ L.count s / L.len) = true) :
      Pass t s (.leave (s.after t.beforeTest))
  | pauses {d : ℚ} (hgo : L.GoesOn (s.after t.beforeTest))
      (hwait : ((s.after t.beforeTest).after t.beforePace).wait = some d) :
      Pass t s (.next (((s.after t.beforeTest).after t.beforePace).after
        (sleepNanos d + t.inCall)))
  | moves {m : Nat} (hcalls : L.Calls t s) (hout : t.outcome = .ok m) (hpos : 0 < min m L.len) :
      Pass t s (.next (L.moved (min m L.len) (L.called t s)))
  | nothing {m : Nat} (hcalls : L.Calls t s) (hout : t.outcome = .ok m) (hzero : ¬ 0 < min m L.len)
      (hends : ¬ L.zeroEnds = true) : Pass t s (.next (L.called t s))
  | atEnd {m : Nat} (hcalls : L.Calls t s) (hout : t.outcome = .ok m) (hzero : ¬ 0 < min m L.len)
      (hends : L.zeroEnds = true) : Pass t s (.leave (L.called t s))
  | again {e : IoError} (hcalls : L.Calls t s) (hout : t.outcome = .error e)
      (hretry : L.retries e.kind = true) : Pass t s (.next (L.called t s))
  | fails {e : IoError} (hcalls : L.Calls t s) (hout : t.outcome = .error e)
      (hretry : ¬ L.retries e.kind = true) : Pass t s (.leave (L.called t s))

theorem pass_turn (t : Turn) (s : LoopState R) : L.Pass t s (L.turn t s) := by
  unfold turn
  dsimp only
  split
  · rename_i h
    exact .timeUp h
  rename_i htime
  split
  · rename_i h
    exact .bytesFull htime h
  rename_i hbytes
  split
  · rename_i h
    exact .divides htime hbytes h
  rename_i hzero
  split
  · rename_i h
    exact .blocksFull htime hbytes hzero h
  rename_i hblocks
  have hgo : L.GoesOn (s.after t.beforeTest) := ⟨htime, hbytes, hzero, hblocks⟩
  split
  · rename_i hwait
    exact .pauses hgo hwait
  rename_i hwait
  have hcalls : L.Calls t s := ⟨hgo, hwait⟩
  split
  · rename_i hout
    split
    · rename_i hpos
      exact .moves hcalls hout hpos
    rename_i hnone
    split
    · rename_i hends
      exact .atEnd hcalls hout hnone hends
    · rename_i hends
      exact .nothing hcalls hout hnone hends
  · rename_i hout
    split
    · rename_i hretry
      exact .again hcalls hout hretry
    · rename_i hretry
      exact .fails hcalls hout hretry

variable {L}

theorem pass_of_next {t : Turn} {s s' : LoopState R} (h : L.turn t s = .next s') :
    L.Pass t s (.next s') := h ▸ L.pass_turn t s

theorem pass_of_leave {t : Turn} {s s' : LoopState R} (h : L.turn t s = .leave s') :
    L.Pass t s (.leave s') := h ▸ L.pass_turn t s

theorem pass_of_panic {t : Turn} {s : LoopState R} (h : L.turn t s = .panic) : L.Pass t s .panic :=
  h ▸ L.pass_turn t s

/-- The pass of a transfer. -/
theorem turn_of_transfer {t : Turn} {s : LoopState R} (h : L.Calls t s) {m : Nat}
    (hout : t.outcome = .ok m) (hpos : 0 < min m L.len) :
    L.turn t s = .next (L.moved (min m L.len) (L.called t s)) := by
  unfold turn
  dsimp only
  rw [if_neg h.time, if_neg h.bytes, if_neg h.divides, if_neg h.blocks, h.wait, hout]
  exact if_pos hpos

/-- A loop without a bucket never gets one. -/
theorem bucket_none_next {t : Turn} {s s' : LoopState R} (h : s.bucket = none)
    (hnext : L.turn t s = .next s') : s'.bucket = none := by
  cases pass_of_next hnext with
  | pauses hgo hwait => exact h
  | moves hcalls hout hpos => exact congrArg (Option.map _) h
  | nothing hcalls hout hzero hends => exact h
  | again hcalls hout hretry => exact h

/-- The states at the top of the body, over all runs. -/
def Reachable (L : DataLoop R) (s : LoopState R) : Prop :=
  ∃ timer setup, Reaches L.turn (L.start timer setup) s

/-- The states in which the loop ends, over all runs. -/
def Final (L : DataLoop R) (s : LoopState R) : Prop :=
  ∃ u t, L.Reachable u ∧ L.turn t u = .leave s

theorem final_of_run {timer setup : Nat} {turns : List Turn} {s : LoopState R}
    (h : L.run timer setup turns = some (.left s)) : L.Final s := by
  obtain ⟨u, t, hreach, hleave⟩ := loop_left h
  exact ⟨u, t, ⟨timer, setup, hreach⟩, hleave⟩

section Invariant

variable {P : LoopState R → Prop} (hstart : ∀ timer setup, P (L.start timer setup))
  (hafter : ∀ s d, P s → P (s.after d))
  (hcalled : ∀ t s, P s → L.Calls t s → P (L.called t s))
  (hmoved : ∀ t s n, P s → L.Calls t s → 0 < n → n ≤ L.len → P (L.moved n (L.called t s)))
include hstart hafter hcalled hmoved

/-- **The invariant rule of the data loops.**  What holds at the start and is kept while time
    passes, by every call and by every transfer, holds at the top of the body. -/
theorem Reachable.invariant {s : LoopState R} (h : L.Reachable s) : P s := by
  obtain ⟨timer, setup, hreach⟩ := h
  refine hreach.invariant ?_ (hstart timer setup)
  intro t u v hu hnext
  cases pass_of_next hnext with
  | pauses hgo hwait => exact hafter _ _ (hafter _ _ (hafter _ _ hu))
  | moves hcalls hout hpos => exact hmoved t u _ hu hcalls hpos (Nat.min_le_right _ _)
  | nothing hcalls hout hzero hends => exact hcalled t u hu hcalls
  | again hcalls hout hretry => exact hcalled t u hu hcalls

/-- It also holds where the loop ends. -/
theorem Final.invariant {s : LoopState R} (h : L.Final s) : P s := by
  obtain ⟨u, t, hreach, hleave⟩ := h
  have hu : P u := hreach.invariant hstart hafter hcalled hmoved
  cases pass_of_leave hleave with
  | timeUp htime => exact hafter _ _ hu
  | bytesFull htime hbytes => exact hafter _ _ hu
  | blocksFull htime hbytes hzero hblocks => exact hafter _ _ hu
  | atEnd hcalls hout hzero hends => exact hcalled t u hu hcalls
  | fails hcalls hout hretry => exact hcalled t u hu hcalls

end Invariant

/-! ## The account of the transfers -/

/-- The receipt is the tally of the transfers so far. -/
structure Recorded (L : DataLoop R) (s : LoopState R) : Prop where
  tally : L.tally s.receipt = WindowTally.tally (inOmit L.omitWindow) s.log
  order : InOrder s.log
  seen : ∀ x ∈ s.log, x.time ≤ s.clock
  pos : ∀ x ∈ s.log, 0 < x.amount

namespace Recorded

variable {s : LoopState R}

theorem start (timer setup : Nat) : L.Recorded (L.start timer setup) where
  tally := L.tally_empty
  order := List.Pairwise.nil
  seen _ hx := absurd hx List.not_mem_nil
  pos _ hx := absurd hx List.not_mem_nil

theorem after (h : L.Recorded s) (d : Nat) : L.Recorded (s.after d) :=
  { h with seen := fun x hx => Nat.le_trans (h.seen x hx) (Nat.le_add_right _ _) }

theorem called (h : L.Recorded s) (t : Turn) : L.Recorded (L.called t s) := by
  have hlater := ((h.after t.beforeTest).after t.beforePace).after t.inCall
  exact ⟨hlater.tally, hlater.order, hlater.seen, hlater.pos⟩

theorem moved (h : L.Recorded s) {n : Nat} (hn : 0 < n) : L.Recorded (L.moved n s) where
  tally := by
    show L.tally (L.record s.clock n s.receipt) = WindowTally.tally _ (s.log ++ [⟨n, s.clock⟩])
    rw [L.tally_record, h.tally, tally_concat]
  order := List.pairwise_append.mpr ⟨h.order, List.pairwise_singleton _ _, fun x hx y hy => by
    rw [List.mem_singleton.mp hy]
    exact h.seen x hx⟩
  seen x hx := by
    rcases List.mem_append.mp hx with hx | hx
    · exact h.seen x hx
    · rw [List.mem_singleton.mp hx]
      exact Nat.le_refl _
  pos x hx := by
    rcases List.mem_append.mp hx with hx | hx
    · exact h.pos x hx
    · rw [List.mem_singleton.mp hx]
      exact hn

end Recorded

theorem Final.recorded {s : LoopState R} (h : L.Final s) : L.Recorded s :=
  h.invariant Recorded.start (fun _ d hs => hs.after d) (fun t _ hs _ => hs.called t)
    fun t _ _ hs _ hn _ => (hs.called t).moved hn

/-- The count is the sum of the transfers. -/
theorem Recorded.count {s : LoopState R} (h : L.Recorded s) : L.count s = sum s.log := by
  rw [DataLoop.count, h.tally, tally_eq]

theorem count_start (L : DataLoop R) (timer setup : Nat) : L.count (L.start timer setup) = 0 := by
  show (L.tally L.empty).total = 0
  rw [L.tally_empty]
  rfl

theorem count_moved (L : DataLoop R) (n : Nat) (s : LoopState R) :
    L.count (L.moved n s) = L.count s + n := by
  show (L.tally (L.record s.clock n s.receipt)).total = _
  rw [L.tally_record]
  rfl

/-! ## The division by the block length -/

/-- The pass that divides by zero. -/
theorem turn_of_divides {t : Turn} {s : LoopState R}
    (htime : ¬ L.isElapsed (s.after t.beforeTest) = true)
    (hbytes : ¬ L.maxBytes.any (· ≤ L.count s) = true)
    (hzero : (L.maxBlocks.isSome && L.len = 0) = true) : L.turn t s = .panic := by
  unfold turn
  dsimp only
  rw [if_neg htime]
  exact (if_neg hbytes).trans (if_pos hzero)

/-- A limit of zero is always met. -/
theorem zero_any_le (n : Nat) : (some 0).any (· ≤ n) = true := decide_eq_true (Nat.zero_le n)

/-- Only a limit of zero is met at zero. -/
theorem any_le_zero_iff {o : Option Nat} : o.any (· ≤ 0) = true ↔ o = some 0 := by
  cases o with
  | none => exact ⟨nofun, nofun⟩
  | some n =>
    constructor
    · intro h
      rw [Nat.le_zero.mp (of_decide_eq_true h)]
    · rintro ⟨⟩
      rfl

/-- The settings under which a loop can divide by zero: a block limit for empty blocks, and nothing
    that ends the loop before its first pass. -/
structure DividesByZero (L : DataLoop R) : Prop where
  blocks : L.maxBlocks.isSome = true
  empty : L.len = 0
  bytes : L.maxBytes ≠ some 0
  time : L.budget ≠ some 0

/-- Without a block limit nothing is divided. -/
theorem not_dividesByZero {L : DataLoop R} (h : L.maxBlocks = none) : ¬ L.DividesByZero := by
  intro hzero
  have hblocks := hzero.blocks
  rw [h] at hblocks
  cases hblocks

/-- **Some run panics iff the settings divide by zero.** -/
theorem panics_iff (L : DataLoop R) :
    (∃ timer setup turns, L.run timer setup turns = some .panicked) ↔ L.DividesByZero := by
  constructor
  · rintro ⟨timer, setup, turns, hrun⟩
    obtain ⟨u, t, -, hpanic⟩ := loop_panicked hrun
    cases pass_of_panic hpanic with
    | divides htime hbytes hzero =>
      obtain ⟨hblocks, hempty⟩ := (Bool.and_eq_true _ _).mp hzero
      refine ⟨hblocks, of_decide_eq_true hempty, fun hmax => hbytes ?_, fun hbudget => htime ?_⟩
      · rw [hmax]
        exact zero_any_le _
      · rw [isElapsed, hbudget]
        exact zero_any_le _
  · intro h
    -- the first pass, at once
    refine ⟨0, 0, [⟨0, 0, 0, .ok 0⟩], ?_⟩
    have htime : ¬ L.isElapsed ((L.start 0 0).after 0) = true :=
      fun helapsed => h.time (any_le_zero_iff.mp helapsed)
    have hbytes : ¬ L.maxBytes.any (· ≤ L.count (L.start 0 0)) = true := by
      rw [count_start]
      exact fun hfull => h.bytes (any_le_zero_iff.mp hfull)
    have hzero : (L.maxBlocks.isSome && L.len = 0) = true := by
      rw [h.blocks, h.empty]
      rfl
    rw [run, loop, turn_of_divides htime hbytes hzero]

end DataLoop

end Rperf3
