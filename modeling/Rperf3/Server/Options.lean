/-
  `validate_options` of `server.rs`: the ceilings on peer-supplied options.
-/
import Rperf3.Common.Wire

namespace Rperf3

def maxParallelStreams : Nat := 128

def maxPayloadLen : Nat := 1 * 1024 * 1024

def maxTestDurationSecs : Nat := 3600

def maxOmitSecs : Nat := 300

/-- The error of a field outside its range. -/
def outOfRange (field : String) (value : Nat) : IoError :=
  ⟨.invalidInput, field ++ " out of range: " ++ toString value⟩

/-- `validate_options`: the first offending field decides the error. -/
def validateOptions (opts : ClientOptions) : Except IoError Unit :=
  if opts.parallel = 0 ∨ opts.parallel > maxParallelStreams then
    .error (outOfRange "parallel" opts.parallel)
  else if opts.len = 0 ∨ opts.len > maxPayloadLen then
    .error (outOfRange "len" opts.len)
  else if opts.time > maxTestDurationSecs then
    .error (outOfRange "time" opts.time)
  else if opts.omitSecs > maxOmitSecs then
    .error (outOfRange "omit" opts.omitSecs)
  else
    match checkedAdd32 opts.time opts.omitSecs with
    | none => .error ⟨.invalidInput, "time + omit overflow"⟩
    | some _ => .ok ()

/-- Within the ceilings the sum does not overflow. -/
theorem checkedAdd32_of_le {time omitSecs : Nat} (htime : time ≤ maxTestDurationSecs)
    (homit : omitSecs ≤ maxOmitSecs) : checkedAdd32 time omitSecs = some (time + omitSecs) := by
  unfold maxTestDurationSecs at htime
  unfold maxOmitSecs at homit
  exact if_pos (by omega)

/-- The accepted options; the overflow check at the end never fails. -/
theorem validateOptions_ok_iff (opts : ClientOptions) :
    validateOptions opts = .ok () ↔
      (1 ≤ opts.parallel ∧ opts.parallel ≤ maxParallelStreams) ∧
        (1 ≤ opts.len ∧ opts.len ≤ maxPayloadLen) ∧
        opts.time ≤ maxTestDurationSecs ∧ opts.omitSecs ≤ maxOmitSecs := by
  unfold validateOptions
  by_cases hpar : opts.parallel = 0 ∨ opts.parallel > maxParallelStreams
  · rw [if_pos hpar]
    exact ⟨fun h => (by cases h), fun h => by omega⟩
  by_cases hlen : opts.len = 0 ∨ opts.len > maxPayloadLen
  · rw [if_neg hpar, if_pos hlen]
    exact ⟨fun h => (by cases h), fun h => by omega⟩
  by_cases htime : opts.time > maxTestDurationSecs
  · rw [if_neg hpar, if_neg hlen, if_pos htime]
    exact ⟨fun h => (by cases h), fun h => by omega⟩
  by_cases homit : opts.omitSecs > maxOmitSecs
  · rw [if_neg hpar, if_neg hlen, if_neg htime, if_pos homit]
    exact ⟨fun h => (by cases h), fun h => by omega⟩
  have hadd : checkedAdd32 opts.time opts.omitSecs = some (opts.time + opts.omitSecs) :=
    checkedAdd32_of_le (Nat.le_of_not_gt htime) (Nat.le_of_not_gt homit)
  rw [if_neg hpar, if_neg hlen, if_neg htime, if_neg homit, hadd]
  exact ⟨fun _ => by omega, fun _ => rfl⟩

/-- Every rejection is an `InvalidInput`. -/
theorem validateOptions_error {opts : ClientOptions} {e : IoError}
    (h : validateOptions opts = .error e) : e.kind = .invalidInput := by
  unfold validateOptions at h
  split at h
  · cases h; rfl
  split at h
  · cases h; rfl
  split at h
  · cases h; rfl
  split at h
  · cases h; rfl
  split at h
  · cases h; rfl
  · cases h

end Rperf3
