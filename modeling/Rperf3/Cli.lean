/-
  `cli.rs`: from the parsed command line to a `Config`.

  The record has the options that reach a field some modelled function reads.  Which options exclude
  each other (`-s` and `-c`, `-R` and `--bidir`) is checked by the argument parser, not here.
-/
import Rperf3.Common.Bandwidth

namespace Rperf3

def defaultPort : Nat := 5201

def defaultTimeSecs : Nat := 10

def defaultParallel : Nat := 1

def defaultBind : String := "127.0.0.1"

def defaultOmitSecs : Nat := 0

def defaultUdpLen : Nat := 1460

def defaultUdpBandwidthBps : Nat := 1000000

/-- The command line, as the argument parser leaves it. -/
structure Cli where
  server : Bool := false
  host : Option String := none
  port : Nat := defaultPort
  time : Nat := defaultTimeSecs
  parallel : Nat := defaultParallel
  len : Option Nat := none
  omitSecs : Nat := defaultOmitSecs
  udp : Bool := false
  bandwidth : Option Text := none
  oneOff : Bool := false
  maxConcurrent : Nat := 1
  reverse : Bool := false
  bidir : Bool := false
  json : Bool := false
  window : Option Text := none
  mss : Option Nat := none
  congestion : Option String := none
  tos : Option Text := none
  bytes : Option Text := none
  blockcount : Option Nat := none

inductive Mode
  | client (cfg : Config)
  | server (cfg : Config)
  deriving DecidableEq

/-- The configuration of a mode. -/
def Mode.config : Mode → Config
  | client cfg => cfg
  | server cfg => cfg

namespace Cli

/-- An option's text, if there is one, through its reader. -/
def optional (read : Text → Parsed Nat) : Option Text → Parsed (Option Nat)
  | some s => some <$> read s
  | none => pure none

/-- The value of `-w`. -/
def readWindow (s : Text) : Parsed Nat := do
  let v ← parseSize s
  if 2 ^ 32 - 1 < v then throw ("window size '" ++ String.ofList s ++ "' exceeds u32::MAX")
  else pure v

/-- The value of `-b`, or its default. -/
def readBandwidth (c : Cli) : Parsed Nat :=
  match c.bandwidth with
  | some s => parseBandwidth s
  | none => pure (if c.udp then defaultUdpBandwidthBps else 0)

/-- The configuration that `try_into_mode` builds from what it has read. -/
def base (c : Cli) (bandwidth : Nat) (windowSize tos totalBytes : Option Nat) : Config where
  host := c.host.getD defaultBind
  port := c.port
  time := c.time
  parallel := c.parallel
  len := c.len.getD (if c.udp then defaultUdpLen else defaultTcpLen)
  omitSecs := c.omitSecs
  transport := if c.udp then .udp else .tcp
  bandwidth := bandwidth
  oneOff := c.oneOff
  maxConcurrent := max c.maxConcurrent 1
  direction := if c.bidir then .bidirectional else if c.reverse then .reverse else .forward
  json := c.json
  windowSize := windowSize
  mss := c.mss
  congestion := c.congestion
  tos := tos
  totalBytes := totalBytes
  totalBlocks := c.blockcount

/-- `Cli::try_into_mode`. -/
def tryIntoMode (c : Cli) : Parsed Mode := do
  let bandwidth ← c.readBandwidth
  let windowSize ← optional readWindow c.window
  let tos ← optional parseTos c.tos
  let totalBytes ← optional parseSize c.bytes
  let base := c.base bandwidth windowSize tos totalBytes
  pure (if c.server then .server base else .client base)

/-! ## What the readers let through -/

/-- What was read passes the reader's check. -/
theorem optional_forall {read : Text → Parsed Nat} {o : Option Text} {r : Option Nat}
    {P : Nat → Prop} (h : (optional read o).Gives r) (hread : ∀ s n, (read s).Gives n → P n) :
    ∀ n ∈ r, P n := by
  cases o with
  | none =>
    rw [← Parsed.gives_pure.mp h]
    intro n hn
    cases hn
  | some s =>
    change Parsed.Gives (some <$> read s) r at h
    rw [map_eq_pure_bind] at h
    obtain ⟨n, hn, hr⟩ := Parsed.gives_bind.mp h
    rw [← Parsed.gives_pure.mp hr]
    rintro m ⟨⟩
    exact hread s n hn

theorem readWindow_lt {s : Text} {n : Nat} (h : (readWindow s).Gives n) : n < 2 ^ 32 := by
  obtain ⟨v, -, hv⟩ := Parsed.gives_bind.mp h
  split at hv
  · exact absurd hv Parsed.not_gives_throw
  · rename_i hfits
    rw [← Parsed.gives_pure.mp hv]
    omega

theorem readBandwidth_lt {c : Cli} {n : Nat} (h : c.readBandwidth.Gives n) : n < 2 ^ 64 := by
  unfold readBandwidth at h
  split at h
  · exact parseScaled_lt h
  · rw [← Parsed.gives_pure.mp h]
    split
    · decide
    · decide

/-- What holds of every configuration that comes from a command line. -/
structure Fits (cfg : Config) : Prop where
  bandwidth : cfg.bandwidth < 2 ^ 64
  windowSize : ∀ n ∈ cfg.windowSize, n < 2 ^ 32
  tos : ∀ n ∈ cfg.tos, n ≤ 255
  totalBytes : ∀ n ∈ cfg.totalBytes, n < 2 ^ 64
  maxConcurrent : 1 ≤ cfg.maxConcurrent

/-- **Every value read from the command line fits its field**, and one session is always allowed. -/
theorem tryIntoMode_fits {c : Cli} {m : Mode} (h : c.tryIntoMode.Gives m) : Fits m.config := by
  obtain ⟨bandwidth, hbandwidth, h⟩ := Parsed.gives_bind.mp h
  obtain ⟨windowSize, hwindow, h⟩ := Parsed.gives_bind.mp h
  obtain ⟨tos, htos, h⟩ := Parsed.gives_bind.mp h
  obtain ⟨totalBytes, hbytes, h⟩ := Parsed.gives_bind.mp h
  have hfits : Fits (c.base bandwidth windowSize tos totalBytes) :=
    { bandwidth := readBandwidth_lt hbandwidth
      windowSize := optional_forall hwindow fun _ _ => readWindow_lt
      tos := optional_forall htos fun _ _ => parseTos_le
      totalBytes := optional_forall hbytes fun _ _ => parseScaled_lt
      maxConcurrent := Nat.le_max_right _ _ }
  rw [← Parsed.gives_pure.mp h]
  cases c.server with
  | false => exact hfits
  | true => exact hfits

end Cli

end Rperf3
