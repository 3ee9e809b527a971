/-
  NO SENDER PANICS on options the server has accepted.

  Four operations of `run_tcp_send_streams`, `run_udp_send_streams` and the drivers that call them
  panic outside their range: the sum `time + omit`, the division by `len`, the header slice of the
  packet, and `Duration::from_secs_f64` of the pause.  Here each is made with its check.

  1. `turnChecked_eq` — with room for the header and pauses in range, the checks change nothing.
  2. `Reachable.wait_in_range` — the pauses ARE in range, wherever the loop gets and whatever the
     rate: the bucket is ahead by at most one packet.
  3. `accepted_options_never_panic` — the checks of `validate_options` are enough for the rest.
-/
import Rperf3.Server.Session
import Rperf3.Transfer.PacedSend

namespace Rperf3

open Turns

/-! ## The operations with their checks -/

/-- `Duration::from_secs((opts.time + opts.omit) as u64)`, nothing where the `u32` overflows. -/
def runDuration (opts : ClientOptions) : Option Nat :=
  (checkedAdd32 opts.time opts.omitSecs).map fromSecs

/-- `run_timeout` of the session drivers: without a handshake timeout there is no sum. -/
def runTimeoutChecked (timeout : Option Nat) (opts : ClientOptions) : Option (Option Nat) :=
  match timeout with
  | none => some none
  | some handshake => (runDuration opts).map fun duration => some (handshake + duration)

/-- `Duration::from_secs_f64`, over exact rationals. -/
def fromSecsF64 (x : ℚ) : Option ℚ := if 0 ≤ x ∧ x < 2 ^ 64 then some x else none

namespace DataLoop

variable {R : Type} (L : DataLoop R)

/-- One pass with its checks; before a call it takes the first `header` bytes of the buffer. -/
def turnChecked (header : Nat) (t : Turn) (s : LoopState R) : Flow (LoopState R) :=
  let s := s.after t.beforeTest
  if L.isElapsed s then .leave s
  else if L.maxBytes.any (· ≤ L.count s) then .leave s
  else if L.maxBlocks.isSome && L.len = 0 then .panic
  else if L.maxBlocks.any (· ≤ L.count s / L.len) then .leave s
  else
    let s := s.after t.beforePace
    match s.wait with
    | some d =>
      match fromSecsF64 d with
      | none => .panic
      | some pause => .next (s.after (sleepNanos pause + t.inCall))
    | none =>
      if L.len < header then .panic
      else
        let s := (L.call s).after t.inCall
        match t.outcome with
        | .ok m =>
          if 0 < min m L.len then .next (L.moved (min m L.len) s)
          else if L.zeroEnds then .leave s
          else .next s
        | .error e => if L.retries e.kind then .next s else .leave s

/-- The whole loop. -/
def runChecked (header timer setup : Nat) (turns : List Turn) :
    Option (Turns.Ending (LoopState R)) :=
  loop (L.turnChecked header) turns (L.start timer setup)

end DataLoop

/-- A thread of `run_tcp_send_streams`; the duration is taken before it is spawned. -/
def runTcpSendStreamsChecked (opts : ClientOptions) (streamId timer setup : Nat)
    (turns : List Turn) : Option (Turns.Ending (LoopState StreamReceipt)) :=
  match runDuration opts with
  | none => some .panicked
  | some duration =>
    { runTcpSendStreamsLoop opts streamId with budget := some duration }.runChecked 0 timer setup
      turns

/-- A thread of `run_udp_send_streams`, which writes a header into every packet. -/
def runUdpSendStreamsChecked (opts : ClientOptions) (streamId timer setup : Nat)
    (turns : List Turn) : Option (Turns.Ending (LoopState StreamReceipt)) :=
  match runDuration opts with
  | none => some .panicked
  | some duration =>
    { runUdpSendStreamsLoop opts streamId with budget := some duration }.runChecked udpHeaderLen
      timer setup turns

/-! ## When the checks pass -/

namespace DataLoop

variable {R : Type} {L : DataLoop R} {header : Nat}

theorem turnChecked_eq {t : Turn} {s : LoopState R} (hheader : header ≤ L.len)
    (hpause : ∀ d, ((s.after t.beforeTest).after t.beforePace).wait = some d →
      0 ≤ d ∧ d < 2 ^ 64) : L.turnChecked header t s = L.turn t s := by
  unfold turnChecked turn
  dsimp only
  cases hwait : ((s.after t.beforeTest).after t.beforePace).wait with
  | some d =>
    have hfits : fromSecsF64 d = some d := if_pos (hpause d hwait)
    dsimp only
    rw [hfits]
  | none =>
    have hroom : ¬ L.len < header := Nat.not_lt.mpr hheader
    cases t.outcome with
    | ok m =>
      dsimp only
      rw [if_neg hroom]
    | error e =>
      dsimp only
      rw [if_neg hroom]

/-- A loop without a pacer never has one. -/
theorem Reachable.bucket_none (hrate : L.rate = none) {s : LoopState R} (h : L.Reachable s) :
    s.bucket = none := by
  obtain ⟨timer, setup, hreach⟩ := h
  have hstart : (L.start timer setup).bucket = none := by
    change L.rate.map _ = none
    rw [hrate]
    rfl
  exact hreach.invariant (P := fun s => s.bucket = none)
    (fun _ _ _ hnone hnext => bucket_none_next hnone hnext) hstart

/-- **Every pause is in range**, at any later moment and for any rate. -/
theorem Reachable.wait_in_range (hlen : L.len < 2 ^ 32) {s : LoopState R} (h : L.Reachable s)
    {t : Turn} {d : ℚ} (hwait : ((s.after t.beforeTest).after t.beforePace).wait = some d) :
    0 ≤ d ∧ d < 2 ^ 64 := by
  cases hrate : L.rate with
  | none =>
    have hnone : ((s.after t.beforeTest).after t.beforePace).wait = none := by
      change s.bucket.bind _ = none
      rw [h.bucket_none hrate]
      rfl
    rw [hnone] at hwait
    cases hwait
  | some rate =>
    obtain ⟨hpos, hlt⟩ := h.pause_fits hrate hlen hwait
    exact ⟨hpos.le, hlt⟩

/-- **The checks change nothing** in a loop with room for the header. -/
theorem runChecked_eq (hlen : L.len < 2 ^ 32) (hheader : header ≤ L.len) (timer setup : Nat)
    (turns : List Turn) : L.runChecked header timer setup turns = L.run timer setup turns := by
  refine loop_congr turns _ fun u hu t => turnChecked_eq hheader fun d hwait => ?_
  exact Reachable.wait_in_range hlen ⟨timer, setup, hu⟩ hwait

/-- A loop with blocks that are not empty does not panic. -/
theorem run_ne_panicked (hlen : L.len ≠ 0) (timer setup : Nat) (turns : List Turn) :
    L.run timer setup turns ≠ some .panicked := by
  intro hrun
  have hzero := L.panics_iff.mp ⟨timer, setup, turns, hrun⟩
  exact hlen hzero.empty

end DataLoop

/-! ## Accepted options -/

section Accepted

variable {opts : ClientOptions} (h : validateOptions opts = .ok ())
include h

theorem runDuration_of_accepted :
    runDuration opts = some (fromSecs (opts.time + opts.omitSecs)) := by
  obtain ⟨-, -, htime, homit⟩ := (validateOptions_ok_iff opts).mp h
  unfold runDuration
  rw [checkedAdd32_of_le htime homit]
  rfl

/-- The sum that the loops take modulo `2 ^ 32` is the sum. -/
theorem totalDuration_of_accepted :
    totalDuration opts.time opts.omitSecs = fromSecs (opts.time + opts.omitSecs) := by
  obtain ⟨-, -, htime, homit⟩ := (validateOptions_ok_iff opts).mp h
  unfold maxTestDurationSecs at htime
  unfold maxOmitSecs at homit
  have hlt : opts.time + opts.omitSecs < 2 ^ 32 := by omega
  unfold totalDuration
  rw [Nat.mod_eq_of_lt hlt]

theorem len_of_accepted : 1 ≤ opts.len ∧ opts.len < 2 ^ 32 := by
  obtain ⟨-, ⟨hpos, hmax⟩, -⟩ := (validateOptions_ok_iff opts).mp h
  unfold maxPayloadLen at hmax
  omega

theorem reverseLen_of_accepted :
    udpHeaderLen ≤ reverseLen opts ∧ reverseLen opts < 2 ^ 32 := by
  obtain ⟨-, hlt⟩ := len_of_accepted h
  have hheader : udpHeaderLen = 16 := rfl
  unfold reverseLen
  omega

theorem runTcpSendStreamsChecked_eq (streamId timer setup : Nat) (turns : List Turn) :
    runTcpSendStreamsChecked opts streamId timer setup turns
      = (runTcpSendStreamsLoop opts streamId).run timer setup turns := by
  unfold runTcpSendStreamsChecked
  rw [runDuration_of_accepted h, ← totalDuration_of_accepted h]
  exact DataLoop.runChecked_eq (len_of_accepted h).2 (Nat.zero_le _) timer setup turns

theorem runUdpSendStreamsChecked_eq (streamId timer setup : Nat) (turns : List Turn) :
    runUdpSendStreamsChecked opts streamId timer setup turns
      = (runUdpSendStreamsLoop opts streamId).run timer setup turns := by
  unfold runUdpSendStreamsChecked
  rw [runDuration_of_accepted h, ← totalDuration_of_accepted h]
  obtain ⟨hheader, hlt⟩ := reverseLen_of_accepted h
  exact DataLoop.runChecked_eq hlt hheader timer setup turns

end Accepted

/-- **`validate_options` is enough.**  On options it accepts the drivers' sum does not overflow; no
    run of a sender thread panics, whatever its clock and its calls do; and every pause the bucket
    of a reachable state can ask for, now or later, is a `Duration`, whatever the bandwidth. -/
theorem accepted_options_never_panic (opts : ClientOptions)
    (h : validateOptions opts = .ok ()) :
    (∀ timeout, runTimeoutChecked timeout opts = some (runTimeout timeout opts)) ∧
    (∀ streamId timer setup turns,
      runTcpSendStreamsChecked opts streamId timer setup turns ≠ some .panicked) ∧
    (∀ streamId timer setup turns,
      runUdpSendStreamsChecked opts streamId timer setup turns ≠ some .panicked) ∧
    (∀ streamId s b now d, (runUdpSendStreamsLoop opts streamId).Reachable s →
      s.bucket = some b → s.clock ≤ now → b.wait (secs now) = some d →
      0 ≤ d ∧ d < 2 ^ 64) := by
  obtain ⟨hheader, hlt⟩ := reverseLen_of_accepted h
  refine ⟨fun timeout => ?_, fun streamId timer setup turns => ?_,
    fun streamId timer setup turns => ?_, fun streamId s b now d hreach hbucket hnow hwait => ?_⟩
  · cases timeout with
    | none => rfl
    | some handshake =>
      unfold runTimeoutChecked
      rw [runDuration_of_accepted h]
      rfl
  · rw [runTcpSendStreamsChecked_eq h]
    have hlen : opts.len ≠ 0 := Nat.ne_of_gt (len_of_accepted h).1
    exact DataLoop.run_ne_panicked hlen timer setup turns
  · rw [runUdpSendStreamsChecked_eq h]
    have hlen : reverseLen opts ≠ 0 := by
      have hsixteen : udpHeaderLen = 16 := rfl
      omega
    exact DataLoop.run_ne_panicked hlen timer setup turns
  · -- a pass that comes to its pacer at `now`
    refine DataLoop.Reachable.wait_in_range (t := ⟨now - s.clock, 0, 0, .ok 0⟩) hlt hreach ?_
    have hclock : s.clock + (now - s.clock) + 0 = now := by omega
    change s.bucket.bind (fun b => b.wait (secs (s.clock + (now - s.clock) + 0))) = some d
    rw [hbucket, hclock]
    exact hwait

/-- One bit per second: a datagram, the pause of hours after it, and the end. -/
theorem accepted_options_never_panic_oneBit :
    validateOptions (pacedOptions 1) = .ok () ∧
    runUdpSendStreamsChecked (pacedOptions 1) 1 0 0
        [⟨0, 0, 0, .ok 1460⟩, ⟨0, 0, 0, .ok 1460⟩, ⟨0, 0, 0, .ok 1460⟩] ≠ some .panicked :=
  ⟨rfl, (accepted_options_never_panic (pacedOptions 1) rfl).2.2.1 1 0 0 _⟩

end Rperf3
