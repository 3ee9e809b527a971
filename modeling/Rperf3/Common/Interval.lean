/-
  `common/interval.rs`: the per-second interval reporter.

  A reporter is fed byte counts with clock readings.  The first delivery sets its origin; a delivery
  at or after the next boundary closes the current interval, whose snapshot then includes that
  delivery, and moves the boundary on by ONE interval, however late the delivery is.  `flush`
  reports what is left.

  1. `feed` — the snapshots emitted for a whole sequence of deliveries.
  2. `Reported` — the invariant after each delivery: the deliveries so far fall into one group per
     emitted snapshot and the rest, which the reporter still holds; the windows of the snapshots are
     `[0, I)`, `[I, 2I)`, … without a gap.
  3. `intervals_tile` reads it off after the last delivery and the flush.

  Times are nanoseconds; the source turns them into floating-point seconds for printing only.
-/
import Mathlib.Data.List.Induction
import Rperf3.Lib.WindowTally
import Rperf3.Common.Config

namespace Rperf3

open WindowTally

/-- Bytes moved by one call, and the clock right after it. -/
abbrev Transfer := Timed Nat

/-- A single emitted interval: `[start, stop)` since the stream's first byte, and the bytes
    accounted to it. -/
structure IntervalSnapshot where
  streamId : Nat
  start : Nat
  stop : Nat
  bytes : Nat
  deriving DecidableEq, Repr

/-- `origin` and `next_boundary`, which are set together; the boundary is a positive number of whole
    intervals after the origin. -/
structure Marks (interval : Nat) where
  origin : Nat
  nextBoundary : Nat
  tiled : ∃ k, nextBoundary = origin + (k + 1) * interval

namespace Marks

variable {interval : Nat}

/-- Set by the first delivery. -/
def first (now : Nat) : Marks interval :=
  ⟨now, now + interval, 0, by rw [Nat.zero_add, Nat.one_mul]⟩

def advance (m : Marks interval) : Marks interval where
  origin := m.origin
  nextBoundary := m.nextBoundary + interval
  tiled := by
    obtain ⟨k, hk⟩ := m.tiled
    exact ⟨k + 1, by rw [hk, Nat.add_assoc, ← Nat.succ_mul]⟩

end Marks

/-- Rolling accumulator that emits snapshots at `interval` boundaries. -/
structure IntervalReporter where
  streamId : Nat
  interval : Nat
  marks : Option (Marks interval)
  bytesInInterval : Nat

/-- The bytes of all given snapshots. -/
def snapshotBytes (snaps : List IntervalSnapshot) : Nat := (snaps.map IntervalSnapshot.bytes).sum

theorem snapshotBytes_append (l l' : List IntervalSnapshot) :
    snapshotBytes (l ++ l') = snapshotBytes l + snapshotBytes l' := by
  rw [snapshotBytes, List.map_append, List.sum_append]
  rfl

namespace IntervalReporter

/-- `IntervalReporter::new`. -/
def new (streamId interval : Nat) : IntervalReporter := ⟨streamId, interval, none, 0⟩

/-- `IntervalReporter::on_bytes`: at most one snapshot per call. -/
def onBytes (n now : Nat) (r : IntervalReporter) : Option IntervalSnapshot × IntervalReporter :=
  let marks := r.marks.getD (.first now)
  let bytes := r.bytesInInterval + n
  if marks.nextBoundary ≤ now then
    (some
      { streamId := r.streamId
        start := marks.nextBoundary - r.interval - marks.origin
        stop := marks.nextBoundary - marks.origin
        bytes := bytes },
      { r with marks := some marks.advance, bytesInInterval := 0 })
  else (none, { r with marks := some marks, bytesInInterval := bytes })

/-- `IntervalReporter::flush`: what is left, `none` if nothing has ever been seen. -/
def flush (now : Nat) (r : IntervalReporter) : Option IntervalSnapshot × IntervalReporter :=
  match r.marks with
  | none => (none, r)
  | some m =>
    if r.bytesInInterval = 0 ∧ now < m.nextBoundary - r.interval then (none, r)
    else
      let start := m.nextBoundary - r.interval - m.origin
      (some
        { streamId := r.streamId
          start := start
          stop := max (now - m.origin) start
          bytes := r.bytesInInterval },
        { r with bytesInInterval := 0 })

/-- All deliveries, one after the other: the snapshots in the order of their emission. -/
def feed : List Transfer → IntervalReporter → List IntervalSnapshot × IntervalReporter
  | [], r => ([], r)
  | x :: xs, r =>
    let (snap, r) := r.onBytes x.amount x.time
    let (snaps, r) := feed xs r
    (snap.toList ++ snaps, r)

/-- All deliveries and a flush at the last of them: the emitted snapshots and the final one. -/
def report (streamId interval : Nat) (l : List Transfer) :
    List IntervalSnapshot × Option IntervalSnapshot :=
  let (emitted, r) := feed l (new streamId interval)
  (emitted, l.getLast?.bind fun x => (r.flush x.time).1)

theorem feed_concat (x : Transfer) : ∀ (l : List Transfer) (r : IntervalReporter),
    feed (l ++ [x]) r =
      ((feed l r).1 ++ ((feed l r).2.onBytes x.amount x.time).1.toList,
        ((feed l r).2.onBytes x.amount x.time).2) := by
  intro l
  induction l with
  | nil =>
    intro r
    exact Prod.ext (List.append_nil _) rfl
  | cons y l ih =>
    intro r
    rw [List.cons_append]
    simp only [feed, ih, List.append_assoc]

/-! ## Conservation -/

variable (n now : Nat) (r : IntervalReporter)

theorem interval_onBytes : (r.onBytes n now).2.interval = r.interval := by
  unfold onBytes
  dsimp only
  split
  · rfl
  · rfl

theorem interval_feed : ∀ (l : List Transfer) (r : IntervalReporter),
    (feed l r).2.interval = r.interval
  | [], _ => rfl
  | x :: l, r => (interval_feed l _).trans (interval_onBytes x.amount x.time r)

theorem marks_onBytes : (r.onBytes n now).2.marks.isSome = true := by
  by_cases h : (r.marks.getD (.first now)).nextBoundary ≤ now
  · rw [onBytes, if_pos h]
    rfl
  · rw [onBytes, if_neg h]
    rfl

/-- A delivery is in the snapshot it closes or stays in the reporter. -/
theorem bytes_onBytes :
    snapshotBytes (r.onBytes n now).1.toList + (r.onBytes n now).2.bytesInInterval =
      r.bytesInInterval + n := by
  unfold onBytes
  dsimp only
  split
  · rfl
  · exact Nat.zero_add _

/-- The snapshot of a flush, unless nothing is left and the window has not begun. -/
theorem flush_eq {now : Nat} {r : IntervalReporter} {m : Marks r.interval} (hm : r.marks = some m)
    (h : ¬ (r.bytesInInterval = 0 ∧ now < m.nextBoundary - r.interval)) :
    (r.flush now).1 = some
      { streamId := r.streamId
        start := m.nextBoundary - r.interval - m.origin
        stop := max (now - m.origin) (m.nextBoundary - r.interval - m.origin)
        bytes := r.bytesInInterval } := by
  rw [flush, hm]
  simp only [if_neg h]

/-- Once anything has been seen, a flush reports what the reporter holds. -/
theorem bytes_flush {r : IntervalReporter} (h : r.marks.isSome = true) :
    snapshotBytes (r.flush now).1.toList = r.bytesInInterval := by
  obtain ⟨m, hm⟩ := Option.isSome_iff_exists.mp h
  unfold flush
  rw [hm]
  dsimp only
  split
  · rename_i hnone
    exact hnone.1.symm
  · rfl

end IntervalReporter

/-! ## Windows -/

/-- Snapshot number `i` accounts for the deliveries `group`: all but the last were seen inside its
    window, the last one closed it. -/
structure Covers (interval origin i : Nat) (group : List Transfer) (snap : IntervalSnapshot) :
    Prop where
  start : snap.start = i * interval
  stop : snap.stop = (i + 1) * interval
  bytes : snap.bytes = sum group
  closed : ∃ before last, group = before ++ [last] ∧
    (∀ x ∈ before, origin + i * interval ≤ x.time ∧ x.time < origin + (i + 1) * interval) ∧
    origin + (i + 1) * interval ≤ last.time

/-- The snapshot of a flush at `now` accounts for the deliveries `rest`: it starts where snapshot
    number `i - 1` ended. -/
structure Closes (interval origin i now : Nat) (rest : List Transfer) (snap : IntervalSnapshot) :
    Prop where
  start : snap.start = i * interval
  start_le_stop : snap.start ≤ snap.stop
  stop : origin + snap.stop = max now (origin + i * interval)
  bytes : snap.bytes = sum rest
  seen : ∀ x ∈ rest, origin + snap.start ≤ x.time ∧ x.time ≤ origin + snap.stop

/-- What holds after the deliveries `l`, the first of them at `origin`. -/
structure Reported (origin : Nat) (l : List Transfer) (emitted : List IntervalSnapshot)
    (r : IntervalReporter) : Prop where
  marks : ∃ m, r.marks = some m ∧ m.origin = origin ∧
    m.nextBoundary = origin + (emitted.length + 1) * r.interval
  groups : ∃ (groups : List (List Transfer)) (rest : List Transfer), l = groups.flatten ++ rest ∧
    groups.length = emitted.length ∧
    (∀ i snap, emitted[i]? = some snap → ∃ g, groups[i]? = some g ∧
      Covers r.interval origin i g snap) ∧
    r.bytesInInterval = sum rest ∧
    ∀ x ∈ rest, origin + emitted.length * r.interval ≤ x.time ∧
      x.time < origin + (emitted.length + 1) * r.interval
  last : ∀ x, l.getLast? = some x → origin + emitted.length * r.interval ≤ x.time

namespace Reported

open IntervalReporter

variable {origin : Nat} {l : List Transfer} {emitted : List IntervalSnapshot} {r : IntervalReporter}

/-- Before the first delivery, with the marks it is about to set. -/
theorem start (streamId interval origin : Nat) :
    Reported origin [] [] { new streamId interval with marks := some (.first origin) } where
  marks := ⟨_, rfl, rfl, by rw [List.length_nil, Nat.zero_add, Nat.one_mul]; rfl⟩
  groups := ⟨[], [], rfl, rfl, (fun i snap h => by cases h), rfl, (fun x h => by cases h)⟩
  last x h := by cases h

/-- A delivery before the boundary stays with the rest. -/
theorem hold (h : Reported origin l emitted r) {x : Transfer} {m : Marks r.interval}
    (hlow : origin + emitted.length * r.interval ≤ x.time) (hm : r.marks = some m)
    (hbefore : x.time < origin + (emitted.length + 1) * r.interval) :
    Reported origin (l ++ [x]) emitted
      { r with marks := some m, bytesInInterval := r.bytesInInterval + x.amount } where
  marks := by
    obtain ⟨m', hm', hmarks⟩ := h.marks
    rw [hm] at hm'
    cases hm'
    exact ⟨m, rfl, hmarks⟩
  groups := by
    obtain ⟨groups, rest, rfl, hlen, hcovers, hbytes, hrest⟩ := h.groups
    refine ⟨groups, rest ++ [x], List.append_assoc _ _ _, hlen, hcovers, ?_, ?_⟩
    · show r.bytesInInterval + x.amount = _
      rw [hbytes, sum_append]
      rfl
    · intro y hy
      rcases List.mem_append.mp hy with hy | hy
      · exact hrest y hy
      · rw [List.mem_singleton.mp hy]
        exact ⟨hlow, hbefore⟩
  last y hy := by
    rw [List.getLast?_concat] at hy
    cases hy
    exact hlow

/-- A delivery at or after the boundary closes the window with the rest. -/
theorem close (h : Reported origin l emitted r) {x : Transfer} {m : Marks r.interval}
    {snap : IntervalSnapshot} (hm : r.marks = some m) (hafter : m.nextBoundary ≤ x.time)
    (hstart : snap.start = m.nextBoundary - r.interval - m.origin)
    (hstop : snap.stop = m.nextBoundary - m.origin)
    (hbytes : snap.bytes = r.bytesInInterval + x.amount) :
    Reported origin (l ++ [x]) (emitted ++ [snap])
      { r with marks := some m.advance, bytesInInterval := 0 } := by
  obtain ⟨m', hm', horigin, hboundary⟩ := h.marks
  rw [hm] at hm'
  cases hm'
  obtain ⟨groups, rest, rfl, hlen, hcovers, hheld, hrest⟩ := h.groups
  have hmul : (emitted.length + 1) * r.interval = emitted.length * r.interval + r.interval :=
    Nat.succ_mul _ _
  have hnew : Covers r.interval origin emitted.length (rest ++ [x]) snap := {
    start := by omega
    stop := by omega
    bytes := by
      rw [hbytes, hheld, sum_append]
      rfl
    closed := ⟨rest, x, rfl, hrest, hboundary ▸ hafter⟩ }
  have hlength : (emitted ++ [snap]).length = emitted.length + 1 := List.length_append
  exact {
    marks := ⟨m.advance, rfl, horigin, by
      show m.nextBoundary + r.interval = _
      rw [hboundary, hlength, Nat.succ_mul (emitted.length + 1), Nat.add_assoc]⟩
    groups := by
      refine ⟨groups ++ [rest ++ [x]], [], ?_, ?_, ?_, rfl, fun y hy => by cases hy⟩
      · rw [List.flatten_append, List.flatten_singleton, List.append_nil, List.append_assoc]
      · rw [hlength, List.length_append, hlen]
        rfl
      · -- the old groups stay, the new one is the last
        intro i snap' hi
        rcases Nat.lt_trichotomy i emitted.length with hlt | rfl | hgt
        · rw [List.getElem?_append_left hlt] at hi
          obtain ⟨g, hg, hcov⟩ := hcovers i snap' hi
          exact ⟨g, (List.getElem?_append_left (hlen ▸ hlt)).trans hg, hcov⟩
        · rw [List.getElem?_concat_length] at hi
          cases hi
          exact ⟨rest ++ [x], by rw [← hlen, List.getElem?_concat_length], hnew⟩
        · rw [List.getElem?_eq_none (by rw [hlength]; omega)] at hi
          cases hi
    last := fun y hy => by
      rw [List.getLast?_concat] at hy
      cases hy
      rw [hlength, ← hboundary]
      exact hafter }

/-- **One delivery keeps the account.** -/
theorem onBytes (h : Reported origin l emitted r) {x : Transfer}
    (hlow : origin + emitted.length * r.interval ≤ x.time) :
    Reported origin (l ++ [x]) (emitted ++ (r.onBytes x.amount x.time).1.toList)
      (r.onBytes x.amount x.time).2 := by
  obtain ⟨m, hm, -, hboundary⟩ := h.marks
  unfold IntervalReporter.onBytes
  simp only [hm, Option.getD_some]
  split
  · rename_i hafter
    exact h.close hm hafter rfl rfl rfl
  · rename_i hbefore
    rw [Option.toList_none, List.append_nil]
    exact h.hold hlow hm (by omega)

/-- **All deliveries keep it.**  The induction adds them at the end. -/
theorem feed (streamId interval : Nat) (x : Transfer) : ∀ l : List Transfer, InOrder (x :: l) →
    Reported x.time (x :: l) (IntervalReporter.feed (x :: l) (new streamId interval)).1
      (IntervalReporter.feed (x :: l) (new streamId interval)).2 := by
  intro l
  induction l using List.reverseRecOn with
  | nil =>
    intro _
    have hfirst := (start streamId interval x.time).onBytes (x := x) (by simp)
    rw [List.nil_append, List.nil_append] at hfirst
    simp only [IntervalReporter.feed, List.append_nil]
    exact hfirst
  | append_singleton l y ih =>
    intro horder
    rw [← List.cons_append] at horder ⊢
    obtain ⟨hfront, -, hle⟩ := List.pairwise_append.mp horder
    have hreported := ih hfront
    rw [feed_concat]
    refine hreported.onBytes ?_
    -- the window in progress began when the last delivery was seen, or before
    obtain ⟨z, hz⟩ : ∃ z, (x :: l).getLast? = some z :=
      ⟨_, List.getLast?_eq_some_getLast (List.cons_ne_nil x l)⟩
    exact Nat.le_trans (hreported.last z hz)
      (hle z (List.mem_of_getLast? hz) y List.mem_cons_self)

/-- **A flush accounts for the rest.** -/
theorem flush (h : Reported origin l emitted r) {now : Nat} (hseen : ∀ x ∈ l, x.time ≤ now)
    (hnow : origin + emitted.length * r.interval ≤ now) :
    ∃ (snap : IntervalSnapshot) (groups : List (List Transfer)) (rest : List Transfer),
      (r.flush now).1 = some snap ∧ l = groups.flatten ++ rest ∧
      groups.length = emitted.length ∧
      (∀ i snap, emitted[i]? = some snap → ∃ g, groups[i]? = some g ∧
        Covers r.interval origin i g snap) ∧
      Closes r.interval origin emitted.length now rest snap := by
  obtain ⟨m, hm, horigin, hboundary⟩ := h.marks
  obtain ⟨groups, rest, hl, hlen, hcovers, hbytes, hrest⟩ := h.groups
  have hmul : (emitted.length + 1) * r.interval = emitted.length * r.interval + r.interval :=
    Nat.succ_mul _ _
  have hsome : ¬ (r.bytesInInterval = 0 ∧ now < m.nextBoundary - r.interval) := by omega
  refine ⟨_, groups, rest, flush_eq hm hsome, hl, hlen, hcovers, ?_⟩
  exact {
    start := by
      show m.nextBoundary - r.interval - m.origin = _
      omega
    start_le_stop := Nat.le_max_right _ _
    stop := by
      show origin + max (now - m.origin) (m.nextBoundary - r.interval - m.origin) = _
      omega
    bytes := hbytes
    seen := fun x hx => by
      have hlate := hseen x (hl ▸ List.mem_append_right _ hx)
      have hearly := (hrest x hx).1
      constructor
      · show origin + (m.nextBoundary - r.interval - m.origin) ≤ x.time
        omega
      · show x.time ≤ origin + max (now - m.origin) (m.nextBoundary - r.interval - m.origin)
        omega }

end Reported

/-! ## When a delivery closes an interval

A delivery closes ONE interval at most, so after a stall the snapshots lag behind the clock.  How
many have been emitted can still be read off the instants: up to a delivery no more than the whole
intervals that had gone by, and after it no more than one per delivery. -/

/-- The whole intervals between `origin` and the delivery. -/
def Transfer.windows (interval origin : Nat) (x : Transfer) : Nat := (x.time - origin) / interval

/-- The last delivery closes an interval: since some earlier one, at least as many boundaries have
    gone by as there have been deliveries. -/
def LastCloses (interval : Nat) (l : List Transfer) : Prop :=
  ∃ first before x after last, l.head? = some first ∧ l = before ++ x :: (after ++ [last]) ∧
    Transfer.windows interval first.time x + (after.length + 1) ≤
      Transfer.windows interval first.time last

/-- `k` is the number of intervals that the deliveries have closed: each of them allows as many, and
    one of them no more. -/
structure ClosedBy (interval origin : Nat) (l : List Transfer) (k : Nat) : Prop where
  le : ∀ before x after, l = before ++ x :: after →
    k ≤ Transfer.windows interval origin x + after.length
  tight : ∃ before x after, l = before ++ x :: after ∧
    k = Transfer.windows interval origin x + after.length

namespace ClosedBy

variable {interval origin k : Nat} {l : List Transfer} {y : Transfer}

/-- The first delivery sets the origin. -/
theorem first (x : Transfer) : ClosedBy interval x.time [x] 0 := by
  refine ⟨fun _ _ _ _ => Nat.zero_le _, [], x, [], rfl, ?_⟩
  rw [Transfer.windows, Nat.sub_self, Nat.zero_div]
  rfl

/-- A stretch of the deliveries is the newest one, or ends with it. -/
theorem split_concat {before after : List Transfer} {x : Transfer}
    (h : l ++ [y] = before ++ x :: after) :
    (after = [] ∧ x = y) ∨ ∃ after', after = after' ++ [y] ∧ l = before ++ x :: after' := by
  rcases List.eq_nil_or_concat' after with rfl | ⟨after', z, rfl⟩
  · exact .inl ⟨rfl, (List.cons.inj (List.append_inj' h rfl).2).1.symm⟩
  · rw [← List.cons_append, ← List.append_assoc] at h
    obtain ⟨hl, hz⟩ := List.append_inj' h rfl
    obtain rfl : y = z := (List.cons.inj hz).1
    exact .inr ⟨after', rfl, hl⟩

/-- The newest delivery closes an interval exactly if a stretch before it leaves room. -/
theorem closes_iff (h : ClosedBy interval origin l k) :
    k + 1 ≤ Transfer.windows interval origin y ↔
      ∃ before x after, l = before ++ x :: after ∧
        Transfer.windows interval origin x + (after.length + 1) ≤
          Transfer.windows interval origin y := by
  constructor
  · intro hle
    obtain ⟨before, x, after, hl, hk⟩ := h.tight
    exact ⟨before, x, after, hl, by omega⟩
  · rintro ⟨before, x, after, hl, hle⟩
    have hk := h.le before x after hl
    omega

/-- **One more delivery**, no earlier than those before it. -/
theorem concat (h : ClosedBy interval origin l k)
    (hlate : ∀ x ∈ l, Transfer.windows interval origin x ≤ Transfer.windows interval origin y) :
    ClosedBy interval origin (l ++ [y])
      (if k + 1 ≤ Transfer.windows interval origin y then k + 1 else k) := by
  -- the clock never falls behind the intervals closed so far
  have hk : k ≤ Transfer.windows interval origin y := by
    rcases List.eq_nil_or_concat' l with rfl | ⟨before, x, rfl⟩
    · obtain ⟨before, x, after, hl, -⟩ := h.tight
      exact absurd hl.symm (List.append_ne_nil_of_right_ne_nil _ (List.cons_ne_nil _ _))
    · have hx : k ≤ _ + 0 := h.le before x [] rfl
      have hxy := hlate x (List.mem_append_right _ List.mem_cons_self)
      omega
  constructor
  · intro before x after hsplit
    rcases split_concat hsplit with ⟨rfl, rfl⟩ | ⟨after', rfl, hl⟩
    · split
      · rename_i hclose
        exact hclose
      · exact hk
    · have hold := h.le before x after' hl
      rw [List.length_append, List.length_singleton]
      split
      · omega
      · omega
  · split
    · obtain ⟨before, x, after, rfl, hk'⟩ := h.tight
      refine ⟨before, x, after ++ [y], by rw [List.append_assoc]; rfl, ?_⟩
      rw [List.length_append, List.length_singleton]
      omega
    · exact ⟨l, y, [], rfl, by rw [List.length_nil]; omega⟩

end ClosedBy

namespace IntervalReporter

/-- Whether the next delivery closes an interval. -/
theorem length_onBytes (n now : Nat) (r : IntervalReporter) :
    (r.onBytes n now).1.toList.length =
      if (r.marks.getD (.first now)).nextBoundary ≤ now then 1 else 0 := by
  unfold onBytes
  dsimp only
  split
  · rfl
  · rfl

/-- In terms of the intervals closed so far and those gone by. -/
theorem boundary_le_iff {interval origin : Nat} {l : List Transfer}
    {emitted : List IntervalSnapshot} {r : IntervalReporter} (h : Reported origin l emitted r)
    (hinterval : r.interval = interval) (hpos : 0 < interval) {y : Transfer}
    (hy : origin ≤ y.time) :
    (r.marks.getD (.first y.time)).nextBoundary ≤ y.time ↔
      emitted.length + 1 ≤ Transfer.windows interval origin y := by
  subst hinterval
  obtain ⟨m, hm, -, hboundary⟩ := h.marks
  rw [hm, Option.getD_some, hboundary, Transfer.windows, Nat.le_div_iff_mul_le hpos]
  omega

/-- **How many intervals the deliveries close**, by induction on them, added at the end. -/
theorem closedBy_feed (streamId : Nat) {interval : Nat} (hpos : 0 < interval) (x : Transfer) :
    ∀ l : List Transfer, InOrder (x :: l) →
      ClosedBy interval x.time (x :: l) (feed (x :: l) (new streamId interval)).1.length := by
  intro l
  induction l using List.reverseRecOn with
  | nil =>
    intro _
    have hfirst : (feed [x] (new streamId interval)).1.length = 0 := by
      show (((new streamId interval).onBytes x.amount x.time).1.toList ++ []).length = 0
      rw [List.append_nil, length_onBytes, if_neg]
      show ¬ x.time + interval ≤ x.time
      omega
    rw [hfirst]
    exact .first x
  | append_singleton l y ih =>
    intro horder
    rw [← List.cons_append] at horder ⊢
    obtain ⟨hfront, -, hle⟩ := List.pairwise_append.mp horder
    have hreported := Reported.feed streamId interval x l hfront
    have hclosed := (ih hfront).concat (y := y) fun z hz =>
      Nat.div_le_div_right (Nat.sub_le_sub_right (hle z hz y List.mem_cons_self) _)
    rw [feed_concat, List.length_append, length_onBytes]
    have hinterval : (feed (x :: l) (new streamId interval)).2.interval = interval :=
      interval_feed _ _
    have hiff := boundary_le_iff hreported hinterval hpos
      (hle x List.mem_cons_self y List.mem_cons_self)
    by_cases hclose : (feed (x :: l) (new streamId interval)).1.length + 1 ≤
        Transfer.windows interval x.time y
    · rw [if_pos (hiff.mpr hclose)]
      rw [if_pos hclose] at hclosed
      exact hclosed
    · rw [if_neg (mt hiff.mp hclose)]
      rw [if_neg hclose] at hclosed
      exact hclosed

/-- A delivery leaves nothing in the reporter exactly if it closes an interval. -/
theorem bytesInInterval_onBytes_eq_zero {n : Nat} (hn : 0 < n) (now : Nat) (r : IntervalReporter) :
    (r.onBytes n now).2.bytesInInterval = 0 ↔
      (r.marks.getD (.first now)).nextBoundary ≤ now := by
  unfold onBytes
  dsimp only
  split
  · rename_i hclose
    exact iff_of_true rfl hclose
  · rename_i hopen
    refine iff_of_false ?_ hopen
    show ¬ r.bytesInInterval + n = 0
    omega

/-- What has been delivered is in the snapshots or still in the reporter. -/
theorem bytes_feed : ∀ (l : List Transfer) (r : IntervalReporter),
    snapshotBytes (feed l r).1 + (feed l r).2.bytesInInterval = r.bytesInInterval + sum l
  | [], _ => Nat.zero_add _
  | x :: l, r => by
    have hhead := bytes_onBytes x.amount x.time r
    have hrest := bytes_feed l (r.onBytes x.amount x.time).2
    rw [feed, snapshotBytes_append, sum_cons]
    dsimp only
    omega

/-- The first delivery sets the marks. -/
theorem marks_feed {l : List Transfer} (hl : l ≠ []) (r : IntervalReporter) :
    (feed l r).2.marks.isSome = true := by
  rcases List.eq_nil_or_concat' l with rfl | ⟨front, y, rfl⟩
  · exact absurd rfl hl
  · rw [feed_concat]
    exact marks_onBytes y.amount y.time _

/-- **When the reporter is left empty**, in terms of the instants. -/
theorem bytesInInterval_feed_eq_zero (streamId : Nat) {interval : Nat} (hpos : 0 < interval)
    {l : List Transfer} (horder : InOrder l) (hbytes : ∀ x ∈ l, 0 < x.amount) :
    (feed l (new streamId interval)).2.bytesInInterval = 0 ↔ l = [] ∨ LastCloses interval l := by
  rcases List.eq_nil_or_concat' l with rfl | ⟨front, y, rfl⟩
  · exact iff_of_true rfl (.inl rfl)
  have hy : 0 < y.amount := hbytes y (List.mem_append_right _ List.mem_cons_self)
  have hne : front ++ [y] ≠ [] := List.append_ne_nil_of_right_ne_nil _ (List.cons_ne_nil _ _)
  rw [feed_concat, bytesInInterval_onBytes_eq_zero hy, or_iff_right hne]
  cases front with
  | nil =>
    -- a single delivery
    refine iff_of_false ?_ ?_
    · show ¬ y.time + interval ≤ y.time
      omega
    · rintro ⟨first, before, x, after, last, -, hl, -⟩
      have hlen := congrArg List.length hl
      simp only [List.length_append, List.length_cons, List.length_nil] at hlen
      omega
  | cons x front =>
    obtain ⟨hfront, -, hle⟩ := List.pairwise_append.mp horder
    have hreported := Reported.feed streamId interval x front hfront
    have hinterval : (feed (x :: front) (new streamId interval)).2.interval = interval :=
      interval_feed _ _
    have hiff := boundary_le_iff hreported hinterval hpos
      (hle x List.mem_cons_self y List.mem_cons_self)
    rw [hiff, (closedBy_feed streamId hpos x front hfront).closes_iff]
    constructor
    · rintro ⟨before, z, after, hl, hroom⟩
      exact ⟨x, before, z, after, y, rfl, by rw [hl, List.append_assoc]; rfl, hroom⟩
    · rintro ⟨first, before, z, after, last, hfirst, hl, hroom⟩
      obtain rfl : x = first := Option.some.inj hfirst
      rw [← List.cons_append, ← List.append_assoc] at hl
      obtain ⟨hfrontEq, hlast⟩ := List.append_inj' hl rfl
      obtain rfl : y = last := (List.cons.inj hlast).1
      exact ⟨before, z, after, hfrontEq, hroom⟩

end IntervalReporter

/-- The bytes of snapshots that cover the given groups. -/
theorem snapshotBytes_of_covers {interval origin : Nat} : ∀ (k : Nat)
    (emitted : List IntervalSnapshot) (groups : List (List Transfer)),
    groups.length = emitted.length →
    (∀ i snap, emitted[i]? = some snap → ∃ g, groups[i]? = some g ∧
      Covers interval origin (k + i) g snap) →
    snapshotBytes emitted = sum groups.flatten := by
  intro k emitted
  induction emitted generalizing k with
  | nil =>
    intro groups hlen _
    rw [List.eq_nil_of_length_eq_zero hlen]
    rfl
  | cons snap emitted ih =>
    intro groups hlen hcovers
    cases groups with
    | nil => cases hlen
    | cons g groups =>
      obtain ⟨g', hg', hcov⟩ := hcovers 0 snap rfl
      cases hg'
      rw [List.flatten_cons, sum_append, ← hcov.bytes, ← ih (k + 1) groups (Nat.succ.inj hlen)]
      · rfl
      · intro i snap' hi
        obtain ⟨g', hg', hcov'⟩ := hcovers (i + 1) snap' hi
        exact ⟨g', hg', by rwa [Nat.add_assoc, Nat.add_comm 1 i]⟩

/-- **Intervals conserve bytes and tile time.**  Whatever the deliveries, the emitted snapshots have
    the windows `[0, I)`, `[I, 2I)`, …, each accounts for a stretch of the deliveries, and the final
    snapshot for what comes after them. -/
theorem intervals_tile (streamId interval : Nat) (x : Transfer) (l : List Transfer)
    (h : InOrder (x :: l)) :
    ∃ (emitted : List IntervalSnapshot) (final : IntervalSnapshot) (groups : List (List Transfer))
      (rest : List Transfer),
      IntervalReporter.report streamId interval (x :: l) = (emitted, some final) ∧
      x :: l = groups.flatten ++ rest ∧ groups.length = emitted.length ∧
      (∀ i snap, emitted[i]? = some snap → ∃ g, groups[i]? = some g ∧
        Covers interval x.time i g snap) ∧
      Closes interval x.time emitted.length ((x :: l).getLast (List.cons_ne_nil x l)).time rest
        final ∧
      snapshotBytes emitted + final.bytes = sum (x :: l) := by
  have hreported := Reported.feed streamId interval x l h
  have hlast := List.getLast?_eq_some_getLast (List.cons_ne_nil x l)
  have hseen : ∀ y ∈ x :: l, y.time ≤ ((x :: l).getLast (List.cons_ne_nil x l)).time := by
    intro y hy
    have hg : (tally (fun _ _ : Nat => true) (x :: l)).last =
        some ((x :: l).getLast (List.cons_ne_nil x l)).time := by
      rw [tally_eq]
      exact congrArg (Option.map Timed.time) hlast
    exact le_last_of_mem h hg hy
  obtain ⟨final, groups, rest, hflush, hl, hlen, hcovers, hcloses⟩ :=
    hreported.flush hseen (hreported.last _ hlast)
  rw [IntervalReporter.interval_feed] at hcovers hcloses
  refine ⟨_, final, groups, rest, ?_, hl, hlen, hcovers, hcloses, ?_⟩
  · unfold IntervalReporter.report
    simp only [hlast, Option.bind_some, hflush]
  · have hemitted := snapshotBytes_of_covers 0 _ groups hlen fun i snap hi => by
      rw [Nat.zero_add]
      exact hcovers i snap hi
    rw [hemitted, hcloses.bytes, hl, sum_append]

/-- Five bytes, a stall of three and a half intervals, and three more deliveries. -/
def stalledDeliveries : List Transfer := [⟨5, 0⟩, ⟨7, 3500⟩, ⟨1, 3600⟩, ⟨2, 3650⟩]

/-- The windows lag behind the clock: the last delivery is accounted to the third interval. -/
theorem intervals_tile_stalled :
    InOrder stalledDeliveries ∧
    IntervalReporter.report 1 1000 stalledDeliveries =
      ([⟨1, 0, 1000, 12⟩, ⟨1, 1000, 2000, 1⟩, ⟨1, 2000, 3000, 2⟩], some ⟨1, 3000, 3650, 0⟩) ∧
    ∃ (groups : List (List Transfer)) (rest : List Transfer),
      stalledDeliveries = groups.flatten ++ rest ∧ groups.length = 3 ∧
      Closes 1000 0 3 3650 rest ⟨1, 3000, 3650, 0⟩ := by
  have horder : InOrder stalledDeliveries := by
    unfold InOrder stalledDeliveries
    decide
  have hreport : IntervalReporter.report 1 1000 stalledDeliveries =
      ([⟨1, 0, 1000, 12⟩, ⟨1, 1000, 2000, 1⟩, ⟨1, 2000, 3000, 2⟩], some ⟨1, 3000, 3650, 0⟩) := by
    decide
  obtain ⟨emitted, final, groups, rest, heq, hl, hlen, -, hcloses, -⟩ :=
    intervals_tile 1 1000 ⟨5, 0⟩ _ horder
  obtain ⟨rfl, hfinal⟩ := Prod.mk.inj (hreport.symm.trans heq)
  cases hfinal
  exact ⟨horder, hreport, groups, rest, hl, hlen, hcloses⟩

end Rperf3
