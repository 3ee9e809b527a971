/-
  PRINTED INTERVAL ROWS against the receipt.

  A loop that owns a reporter prints a row whenever a transfer closes an interval.  What the
  reporter still holds when the loop ends is printed only by the loops that flush it:
  `Stream::start`, `Stream::start_recv` and `recv_stream_bytes` do, `Stream::start_udp_recv` and the
  two sender threads of the server do not.

  The invariant (`Reporting`) is that rows and reporter are those of a reporter that was fed the
  transfers made, so what it still holds at the end is read off their instants (`LastCloses`).
-/
import Rperf3.Transfer.Loops

namespace Rperf3

open WindowTally

/-- The bytes of a reporter that no row has shown yet. -/
def LoopState.unreported {R : Type} (s : LoopState R) : Nat :=
  (s.reporter.map IntervalReporter.bytesInInterval).getD 0

/-- Rows without bytes may be left out. -/
theorem snapshotBytes_filter (o : Option IntervalSnapshot) :
    snapshotBytes (o.toList.filter fun snap => 0 < snap.bytes) = snapshotBytes o.toList := by
  cases o with
  | none => rfl
  | some snap =>
    rw [Option.toList_some, List.filter_singleton]
    by_cases h : 0 < snap.bytes
    · rw [decide_eq_true h]
      rfl
    · rw [decide_eq_false h]
      show 0 = snap.bytes + 0
      omega

namespace DataLoop

variable {R : Type} {L : DataLoop R}

/-- The rows and the reporter are those of a reporter that was fed the transfers so far. -/
structure Reporting (L : DataLoop R) (s : LoopState R) : Prop where
  recorded : L.Recorded s
  fed : ∃ streamId, s.rows = (IntervalReporter.feed s.log (.new streamId nanos)).1 ∧
    s.reporter = some (IntervalReporter.feed s.log (.new streamId nanos)).2

namespace Reporting

variable {s : LoopState R}

theorem start (h : L.reports.isSome = true) (timer setup : Nat) :
    L.Reporting (L.start timer setup) := by
  obtain ⟨streamId, hid⟩ := Option.isSome_iff_exists.mp h
  refine ⟨Recorded.start timer setup, streamId, rfl, ?_⟩
  show L.reports.map _ = _
  rw [hid]
  rfl

theorem after (h : L.Reporting s) (d : Nat) : L.Reporting (s.after d) :=
  ⟨h.recorded.after d, h.fed⟩

theorem called (h : L.Reporting s) (t : Turn) : L.Reporting (L.called t s) :=
  ⟨h.recorded.called t, h.fed⟩

/-- A transfer is fed to the reporter, and its row printed. -/
theorem moved (h : L.Reporting s) {n : Nat} (hn : 0 < n) : L.Reporting (L.moved n s) := by
  obtain ⟨streamId, hrows, hreporter⟩ := h.fed
  refine ⟨h.recorded.moved hn, streamId, ?_, ?_⟩
  · show s.rows ++ ((s.reporter.map _).bind _).toList =
      (IntervalReporter.feed (s.log ++ [⟨n, s.clock⟩]) _).1
    rw [IntervalReporter.feed_concat, hrows, hreporter]
    rfl
  · show (s.reporter.map _).map _ = some (IntervalReporter.feed (s.log ++ [⟨n, s.clock⟩]) _).2
    rw [IntervalReporter.feed_concat, hreporter]
    rfl

/-- What rows and reporter hold together. -/
theorem rows (h : L.Reporting s) : snapshotBytes s.rows + s.unreported = sum s.log := by
  obtain ⟨streamId, hrows, hreporter⟩ := h.fed
  rw [LoopState.unreported, hrows, hreporter]
  exact (IntervalReporter.bytes_feed _ _).trans (Nat.zero_add _)

/-- The reporter holds nothing exactly if nothing has been transferred or the last transfer closed
    an interval. -/
theorem unreported_eq_zero (h : L.Reporting s) :
    s.unreported = 0 ↔ s.log = [] ∨ LastCloses nanos s.log := by
  obtain ⟨streamId, -, hreporter⟩ := h.fed
  rw [LoopState.unreported, hreporter]
  exact IntervalReporter.bytesInInterval_feed_eq_zero streamId (by decide) h.recorded.order
    h.recorded.pos

end Reporting

theorem Final.reporting {s : LoopState R} (hreports : L.reports.isSome = true) (h : L.Final s) :
    L.Reporting s :=
  h.invariant (Reporting.start hreports) (fun _ d hs => hs.after d) (fun t _ hs _ => hs.called t)
    fun t _ _ hs _ hn _ => (hs.called t).moved hn

/-- What a flush adds to the rows is what the reporter held. -/
theorem Reporting.printed {s : LoopState R} (h : L.Reporting s) :
    snapshotBytes (L.printed s) = snapshotBytes s.rows + if L.flushes then s.unreported else 0 := by
  rw [DataLoop.printed, snapshotBytes_append]
  congr 1
  cases L.flushes with
  | false => rfl
  | true =>
    obtain ⟨streamId, -, hreporter⟩ := h.fed
    simp only [if_true, hreporter, h.recorded.tally, tally_eq]
    cases hlast : s.log.getLast? with
    | none =>
      -- nothing was transferred: nothing is flushed and nothing is held
      have hrows := h.rows
      rw [List.getLast?_eq_none_iff.mp hlast] at hrows
      show 0 = s.unreported
      have hzero : sum ([] : List Transfer) = 0 := rfl
      omega
    | some x =>
      have hne : s.log ≠ [] := fun hnil => by
        rw [hnil] at hlast
        cases hlast
      show snapshotBytes (((IntervalReporter.feed s.log _).2.flush x.time).1.toList.filter _) = _
      rw [snapshotBytes_filter, IntervalReporter.bytes_flush _ (IntervalReporter.marks_feed hne _),
        LoopState.unreported, hreporter]
      rfl

/-- **When the rows of a run add up.** -/
theorem Reporting.rows_add_up_iff {s : LoopState R} (h : L.Reporting s) :
    snapshotBytes (L.printed s) = L.count s ↔
      L.flushes = true ∨ s.log = [] ∨ LastCloses nanos s.log := by
  have hrows := h.rows
  rw [h.printed, h.recorded.count, ← h.unreported_eq_zero]
  cases L.flushes with
  | true =>
    rw [if_pos rfl]
    exact ⟨fun _ => .inl rfl, fun _ => hrows⟩
  | false =>
    rw [if_neg Bool.false_ne_true]
    constructor
    · intro heq
      exact .inr (by omega)
    · rintro (hflush | hzero)
      · cases hflush
      · omega

/-- Every run of the loop that ends has printed rows that add up to its receipt. -/
def RowsAddUp (L : DataLoop R) : Prop :=
  ∀ (timer setup : Nat) (turns : List Turn) (s : LoopState R),
    L.run timer setup turns = some (.left s) → snapshotBytes (L.printed s) = L.count s

/-- It has when nothing was transferred or the last transfer closed an interval, and only then. -/
def RowsAddUpIfClosed (L : DataLoop R) : Prop :=
  ∀ (timer setup : Nat) (turns : List Turn) (s : LoopState R),
    L.run timer setup turns = some (.left s) →
      (snapshotBytes (L.printed s) = L.count s ↔ s.log = [] ∨ LastCloses nanos s.log)

theorem rowsAddUp (hreports : L.reports.isSome = true) (hflushes : L.flushes = true) :
    L.RowsAddUp := fun _ _ _ _ hrun =>
  ((final_of_run hrun).reporting hreports).rows_add_up_iff.mpr (.inl hflushes)

theorem rowsAddUpIfClosed (hreports : L.reports.isSome = true) (hflushes : L.flushes = false) :
    L.RowsAddUpIfClosed := by
  intro timer setup turns s hrun
  rw [((final_of_run hrun).reporting hreports).rows_add_up_iff, hflushes]
  exact ⟨fun h => h.resolve_left Bool.false_ne_true, .inr⟩

end DataLoop

/-- **Which loops print rows that add up.**  Those that flush their reporter do in every run; the
    other three do in a run if and only if nothing was transferred in it or its last transfer closed
    an interval: since some earlier transfer at least as many seconds, counted from the first one,
    had gone by as there had been transfers. -/
theorem rows_add_up_iff_flushed (cfg : Config) (opts : ClientOptions) (streamId omitWindow : Nat) :
    (cfg.json = false → (startLoop cfg streamId).RowsAddUp) ∧
    (cfg.json = false → (startRecvLoop cfg streamId).RowsAddUp) ∧
    (recvStreamBytesLoop omitWindow (some streamId)).RowsAddUp ∧
    (cfg.json = false → (startUdpRecvLoop cfg streamId).RowsAddUpIfClosed) ∧
    (runTcpSendStreamsLoop opts streamId).RowsAddUpIfClosed ∧
    (runUdpSendStreamsLoop opts streamId).RowsAddUpIfClosed := by
  have hreports : cfg.json = false →
      (if cfg.json then none else some streamId).isSome = true := by
    intro hjson
    rw [hjson]
    rfl
  exact ⟨fun hjson => DataLoop.rowsAddUp (hreports hjson) rfl,
    fun hjson => DataLoop.rowsAddUp (hreports hjson) rfl,
    DataLoop.rowsAddUp rfl rfl,
    fun hjson => DataLoop.rowsAddUpIfClosed (hreports hjson) rfl,
    DataLoop.rowsAddUpIfClosed rfl rfl, DataLoop.rowsAddUpIfClosed rfl rfl⟩

/-- A thousand bytes move at once, then the time is up. -/
def oneTransfer : List Turn := [⟨0, 0, 0, .ok 1000⟩, ⟨fromSecs 10, 0, 0, .ok 0⟩]

/-- A test of ten seconds with blocks of a thousand bytes. -/
def tenSeconds : ClientOptions := .tcpDefaults 10 1 1000

/-- Of the three loops without a flush, each moves a thousand bytes and prints no row. -/
theorem last_interval_never_printed :
    (∃ s, (startUdpRecvLoop (.withHost "localhost") 1).run 0 0 oneTransfer = some (.left s) ∧
      (startUdpRecvLoop (.withHost "localhost") 1).printed s = [] ∧ s.receipt.bytesSent = 1000) ∧
    (∃ s, (runTcpSendStreamsLoop tenSeconds 1).run 0 0 oneTransfer = some (.left s) ∧
      (runTcpSendStreamsLoop tenSeconds 1).printed s = [] ∧ s.receipt.bytes = 1000) ∧
    ∃ s, (runUdpSendStreamsLoop tenSeconds 1).run 0 0 oneTransfer = some (.left s) ∧
      (runUdpSendStreamsLoop tenSeconds 1).printed s = [] ∧ s.receipt.bytes = 1000 :=
  ⟨⟨_, rfl, rfl, rfl⟩, ⟨_, rfl, rfl, rfl⟩, ⟨_, rfl, rfl, rfl⟩⟩

/-- Two transfers a second apart: the second closes the first interval. -/
def closedInterval : List Turn :=
  [⟨0, 0, 0, .ok 1000⟩, ⟨0, 0, nanos, .ok 500⟩, ⟨fromSecs 10, 0, 0, .ok 0⟩]

theorem rows_add_up_iff_flushed_closedInterval :
    ∃ s, (startUdpRecvLoop (.withHost "localhost") 1).run 0 0 closedInterval = some (.left s) ∧
      LastCloses nanos s.log ∧
      snapshotBytes ((startUdpRecvLoop (.withHost "localhost") 1).printed s) =
        (startUdpRecvLoop (.withHost "localhost") 1).count s := by
  obtain ⟨s, hrun, hlog⟩ : ∃ s,
      (startUdpRecvLoop (.withHost "localhost") 1).run 0 0 closedInterval = some (.left s) ∧
      s.log = [⟨1000, 0⟩, ⟨500, nanos⟩] := ⟨_, rfl, rfl⟩
  have hcloses : LastCloses nanos s.log := by
    rw [hlog]
    exact ⟨⟨1000, 0⟩, [], ⟨1000, 0⟩, [], ⟨500, nanos⟩, rfl, rfl, by decide⟩
  obtain ⟨-, -, -, hudp, -, -⟩ := rows_add_up_iff_flushed (.withHost "localhost") tenSeconds 1 0
  exact ⟨s, hrun, hcloses, (hudp rfl 0 0 _ s hrun).mpr (.inr hcloses)⟩

end Rperf3
