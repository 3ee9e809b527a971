/-
  `common/cpu.rs`: the CPU time of the process, read from `/proc/self/stat`.

  The line is `pid (comm) state ppid ...`.  `comm` is ARBITRARY text: it may hold spaces, line feeds
  and parentheses, or imitate the rest of the line.  So the parser starts behind the LAST closing
  parenthesis, and counts tokens from there.

  1. **Program** — `parse_proc_stat` with its byte positions: `rfind` gives one, and a `&str` sliced
     inside a character panics (`none`).
  2. **One equation for the parser** — `parseProcStat_append`: only the text behind the last
     parenthesis counts; with `parseProcStat_of_notMem` it covers every text, so no slice panics
     (`parseProcStat_returns`).
  3. **Any name** — `proc_stat_ignores_comm`, the tokens behind the name being as `StatFields` says.
  4. **What is reported** — `measureUsage`, the percentages between two samples.
-/
import Rperf3.Lib.Tokens
import Rperf3.Common.AuthUsers
import Rperf3.Common.Pacing

namespace Rperf3

open Tokens

/-! ## Reading the line -/

structure CpuSnapshot where
  userTicks : Nat
  systemTicks : Nat
  deriving DecidableEq

/-- `CpuSnapshot::default`. -/
def CpuSnapshot.default : CpuSnapshot := ⟨0, 0⟩

/-- `str::rfind`: the byte position of the last `c`. -/
def rfind (c : Char) : Text → Option Nat
  | [] => none
  | d :: s =>
    match rfind c s with
    | some i => some (d.utf8Size + i)
    | none => if d = c then some 0 else none

/-- `&s[n..]`; `none` is a panic. -/
def cutFrom : Nat → Text → Option Text
  | 0, s => some s
  | _ + 1, [] => none
  | n + 1, c :: s => if c.utf8Size ≤ n + 1 then cutFrom (n + 1 - c.utf8Size) s else none

/-- `str::trim_start`. -/
def trimStart (t : Text) : Text := t.dropWhile isWhitespace

/-- `str::split_whitespace`. -/
def splitWhitespace (t : Text) : List Text := tokens isWhitespace t

/-- `fields.get(i)?.parse::<u64>().ok()?`. -/
def tickField (fields : List Text) (i : Nat) : Option Nat :=
  fields[i]?.bind fun field => (parseU64 field).toOption

/-- The two fields of a split line: `utime` and `stime`. -/
def ticksOf (fields : List Text) : Option CpuSnapshot := do
  let user ← tickField fields 11
  let sys ← tickField fields 12
  some ⟨user, sys⟩

/-- `parse_proc_stat`; the outer `none` is a panic. -/
def parseProcStat (raw : Text) : Option (Option CpuSnapshot) :=
  match rfind ')' raw with
  | none => some none
  | some close => do
    let afterComm ← cutFrom (close + 1) raw
    let fields := splitWhitespace (trimStart afterComm)
    some (ticksOf fields)

/-! ## The last parenthesis -/

theorem rfind_of_notMem {c : Char} {s : Text} (h : c ∉ s) : rfind c s = none := by
  induction s with
  | nil => rfl
  | cons d s ih =>
    rw [List.mem_cons, not_or] at h
    rw [rfind, ih h.2, if_neg (Ne.symm h.1)]

/-- What is before the last `c` counts by its bytes only. -/
theorem rfind_append {c : Char} (s : Text) {t : Text} (h : c ∉ t) :
    rfind c (s ++ c :: t) = some (utf8Len s) := by
  induction s with
  | nil => rw [List.nil_append, rfind, rfind_of_notMem h, if_pos rfl]; rfl
  | cons d s ih => rw [List.cons_append, rfind, ih]; rfl

/-- Slicing at a character boundary. -/
theorem cutFrom_append (s t : Text) : cutFrom (utf8Len s) (s ++ t) = some t := by
  induction s with
  | nil => cases t <;> rfl
  | cons c s ih =>
    obtain ⟨k, hk, hfits, hrest⟩ := utf8Len_cons_eq_succ c s
    rw [hk, List.cons_append, cutFrom, if_pos hfits, hrest, ih]

/-- A text with `c` in it has a last `c`. -/
theorem exists_last_of_mem {c : Char} {s : Text} (h : c ∈ s) : ∃ a b, s = a ++ c :: b ∧ c ∉ b := by
  obtain ⟨b, a, hs, hb⟩ := List.eq_append_cons_of_mem (List.mem_reverse.mpr h)
  refine ⟨a.reverse, b.reverse, ?_, fun hmem => hb (List.mem_reverse.mp hmem)⟩
  rw [← List.reverse_reverse s, hs, List.reverse_append, List.reverse_cons, List.append_assoc,
    List.singleton_append]

/-! ## The parser -/

theorem parseProcStat_of_notMem {raw : Text} (h : ')' ∉ raw) : parseProcStat raw = some none := by
  rw [parseProcStat, rfind_of_notMem h]

/-- **The parser in one equation**: it reads the tokens behind the last parenthesis. -/
theorem parseProcStat_append (s : Text) {t : Text} (h : ')' ∉ t) :
    parseProcStat (s ++ ')' :: t) = some (ticksOf (splitWhitespace t)) := by
  have hcut : cutFrom (utf8Len s + 1) (s ++ ')' :: t) = some t := by
    have hslice := cutFrom_append (s ++ [')']) t
    rwa [utf8Len_append, List.append_assoc, List.singleton_append] at hslice
  have htrim : splitWhitespace (trimStart t) = splitWhitespace t := tokens_dropWhile t
  rw [parseProcStat, rfind_append s h]
  dsimp only
  rw [hcut, ← htrim]
  rfl

/-- **No slice panics**: the parser returns on every text. -/
theorem parseProcStat_returns (raw : Text) : ∃ result, parseProcStat raw = some result := by
  by_cases hmem : ')' ∈ raw
  · obtain ⟨a, b, rfl, hb⟩ := exists_last_of_mem hmem
    exact ⟨_, parseProcStat_append a hb⟩
  · exact ⟨none, parseProcStat_of_notMem hmem⟩

/-! ## Any process name -/

/-- `pid (comm) field field ...`. -/
def statLine (pid comm : Text) (fields : List Text) : Text :=
  pid ++ ' ' :: '(' :: comm ++ ')' :: ' ' :: [' '].intercalate fields

/-- Field `i` is a decimal `u64` numeral for `n`. -/
def StatesTicks (fields : List Text) (i n : Nat) : Prop :=
  ∃ field, fields[i]? = some field ∧ SignedNumeral 10 field n ∧ n < 2 ^ 64

/-- The fields behind the name: tokens without a closing parenthesis, the 12th and the 13th of them
    the ticks of `snap`. -/
structure StatFields (fields : List Text) (snap : CpuSnapshot) : Prop where
  isToken : ∀ field ∈ fields, IsToken isWhitespace field
  noClose : ∀ field ∈ fields, ')' ∉ field
  user : StatesTicks fields 11 snap.userTicks
  system : StatesTicks fields 12 snap.systemTicks

theorem tickField_of_states {fields : List Text} {i n : Nat} (h : StatesTicks fields i n) :
    tickField fields i = some n := by
  obtain ⟨field, hfield, hnumeral⟩ := h
  rw [tickField, hfield, Option.bind_some, (parseU64_ok_iff field n).mpr hnumeral]
  rfl

section StatFields

variable {fields : List Text} {snap : CpuSnapshot} (h : StatFields fields snap)
include h

theorem ticksOf_of_statFields : ticksOf fields = some snap := by
  rw [ticksOf, tickField_of_states h.user, tickField_of_states h.system]
  rfl

theorem close_notMem_of_statFields : ')' ∉ [' '].intercalate fields := by
  intro hmem
  rcases mem_of_mem_intercalate hmem with hspace | ⟨field, hfield, hclose⟩
  · exact absurd hspace (by decide)
  · exact h.noClose field hfield hclose

/-- The parser on the line, whatever white space `blank` ends it. -/
theorem parseProcStat_statLine (pid comm : Text) {blank : Text}
    (hblank : ∀ c ∈ blank, isWhitespace c = true) :
    parseProcStat (statLine pid comm fields ++ blank) = some (some snap) := by
  have hsplit : splitWhitespace (' ' :: [' '].intercalate fields ++ blank) = fields := by
    rw [List.cons_append, splitWhitespace, tokens_cons rfl, tokens_append_of_all hblank]
    exact tokens_intercalate rfl h.isToken
  have hfree : ')' ∉ ' ' :: [' '].intercalate fields ++ blank := by
    intro hmem
    rcases List.mem_append.mp hmem with hmem | hmem
    · rcases List.mem_cons.mp hmem with hspace | hmem
      · exact absurd hspace (by decide)
      · exact close_notMem_of_statFields h hmem
    · exact absurd (hblank _ hmem) (by decide)
  rw [statLine, List.append_assoc, List.cons_append, parseProcStat_append _ hfree, hsplit,
    ticksOf_of_statFields h]

end StatFields

theorem isWhitespace_lineFeed : ∀ c ∈ ['\n'], isWhitespace c = true :=
  List.forall_mem_singleton.mpr rfl

/-- **Any name**: the parser reads the ticks of the line, with any text for the process id and for
    the name.  A line feed behind the line, as the kernel writes it, does not matter. -/
theorem proc_stat_ignores_comm (pid comm : Text) (fields : List Text) (u s : Nat)
    (h : StatFields fields ⟨u, s⟩) :
    parseProcStat (statLine pid comm fields) = some (some ⟨u, s⟩) ∧
      parseProcStat (statLine pid comm fields ++ ['\n']) = some (some ⟨u, s⟩) := by
  refine ⟨?_, parseProcStat_statLine h pid comm isWhitespace_lineFeed⟩
  have hline := parseProcStat_statLine h pid comm (List.forall_mem_nil _)
  rwa [List.append_nil] at hline

/-- The fields of a small process: state, ten numbers, the ticks and one number more. -/
def smallFields : List Text :=
  [['S']] ++ List.replicate 10 ['-', '1'] ++ [['1', '2', '5'], ['2', '5', '0'], ['0']]

/-- A name that closes its own parenthesis and goes on like the rest of a line. -/
theorem proc_stat_ignores_comm_imitation :
    StatFields smallFields ⟨125, 250⟩ ∧
    parseProcStat (statLine ['7'] ['r', 'p', ')', ' ', 'S', ' ', '1', '\n', '('] smallFields) =
      some (some ⟨125, 250⟩) := by
  have hfields : StatFields smallFields ⟨125, 250⟩ :=
    { isToken := by decide
      noClose := by decide
      user := ⟨['1', '2', '5'], rfl, (parseU64_ok_iff _ _).mp rfl⟩
      system := ⟨['2', '5', '0'], rfl, (parseU64_ok_iff _ _).mp rfl⟩ }
  exact ⟨hfields, (proc_stat_ignores_comm _ _ _ 125 250 hfields).1⟩

/-! ## What is reported -/

/-- `sample`; `stat` is `/proc/self/stat` if it can be read as text.  What cannot be read or parsed
    counts as no CPU time. -/
def sample (stat : Option Text) : Option CpuSnapshot := do
  let snapshot ← match stat with
    | none => some none
    | some raw => parseProcStat raw
  some (snapshot.getD CpuSnapshot.default)

/-- `clock_ticks_per_sec`, from what `sysconf` returns. -/
def clockTicksPerSec (sysconf : Int) : Nat := if 0 < sysconf then sysconf.toNat else 100

/-- `usage`: percent of one core over `wall` nanoseconds.  Natural subtraction is
    `saturating_sub`. -/
def usage (sysconf : Int) (start stop : CpuSnapshot) (wall : Nat) : CpuUsage :=
  let wallS := secs wall
  if wallS ≤ 0 then CpuUsage.zero
  else
    let ticksPerSec : ℚ := clockTicksPerSec sysconf
    let userSecs := ((stop.userTicks - start.userTicks : Nat) : ℚ) / ticksPerSec
    let sysSecs := ((stop.systemTicks - start.systemTicks : Nat) : ℚ) / ticksPerSec
    { userPct := 100 * userSecs / wallS
      systemPct := 100 * sysSecs / wallS
      totalPct := 100 * (userSecs + sysSecs) / wallS }

/-- The usage between two samples, as both drivers take it. -/
def measureUsage (sysconf : Int) (before after : Option Text) (wall : Nat) : Option CpuUsage := do
  let start ← sample before
  let stop ← sample after
  some (usage sysconf start stop wall)

theorem sample_returns (stat : Option Text) : ∃ snap, sample stat = some snap := by
  cases stat with
  | none => exact ⟨CpuSnapshot.default, rfl⟩
  | some raw =>
    obtain ⟨result, hresult⟩ := parseProcStat_returns raw
    refine ⟨result.getD CpuSnapshot.default, ?_⟩
    show (parseProcStat raw).bind _ = _
    rw [hresult]
    rfl

theorem usage_nonneg (sysconf : Int) (start stop : CpuSnapshot) (wall : Nat) :
    0 ≤ (usage sysconf start stop wall).userPct ∧
      0 ≤ (usage sysconf start stop wall).systemPct := by
  unfold usage
  dsimp only
  split
  · exact ⟨le_refl 0, le_refl 0⟩
  · rename_i hwall
    have hpos : 0 < secs wall := not_le.mp hwall
    constructor <;> positivity

theorem usage_total (sysconf : Int) (start stop : CpuSnapshot) (wall : Nat) :
    (usage sysconf start stop wall).totalPct =
      (usage sysconf start stop wall).userPct + (usage sysconf start stop wall).systemPct := by
  unfold usage
  dsimp only
  split
  · exact (add_zero 0).symm
  · dsimp only
    ring

/-- **Whatever the file holds** at either sample, the measurement does not panic, no percentage is
    negative and the total is the sum of the parts. -/
theorem measureUsage_returns (sysconf : Int) (before after : Option Text) (wall : Nat) :
    ∃ u, measureUsage sysconf before after wall = some u ∧ 0 ≤ u.userPct ∧ 0 ≤ u.systemPct ∧
      u.totalPct = u.userPct + u.systemPct := by
  obtain ⟨start, hstart⟩ := sample_returns before
  obtain ⟨stop, hstop⟩ := sample_returns after
  obtain ⟨huser, hsystem⟩ := usage_nonneg sysconf start stop wall
  refine ⟨usage sysconf start stop wall, ?_, huser, hsystem, usage_total sysconf start stop wall⟩
  rw [measureUsage, hstart, hstop]
  rfl

/-- **The name is not measured**: between two lines of the kernel the usage is that of their ticks,
    also if the process has been renamed in between. -/
theorem measureUsage_statLines (sysconf : Int) (wall : Nat) (pid comm comm' : Text)
    {fields fields' : List Text} {start stop : CpuSnapshot} (hstart : StatFields fields start)
    (hstop : StatFields fields' stop) :
    measureUsage sysconf (some (statLine pid comm fields ++ ['\n']))
        (some (statLine pid comm' fields' ++ ['\n'])) wall =
      some (usage sysconf start stop wall) := by
  have hsample : ∀ {name : Text} {fs : List Text} {snap : CpuSnapshot}, StatFields fs snap →
      sample (some (statLine pid name fs ++ ['\n'])) = some snap := by
    intro name fs snap h
    show (parseProcStat (statLine pid name fs ++ ['\n'])).bind _ = _
    rw [parseProcStat_statLine h pid name isWhitespace_lineFeed]
    rfl
  rw [measureUsage, hsample hstart, hsample hstop]
  rfl

end Rperf3
