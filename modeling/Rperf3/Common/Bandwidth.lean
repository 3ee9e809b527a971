/-
  `common/bandwidth.rs`: the readers of sizes, bandwidths and TOS values on the command line.

  A reader gives a value, an error text or a PANIC: the suffix is cut off by byte position, and a
  `&str` cut inside a character panics.  `parse` and `parse_size` are one reader with two bases.
-/
import Rperf3.Common.Auth

namespace Rperf3

/-- What a reader computes; `none` is a panic. -/
abbrev Parsed (α : Type) := ExceptT String Option α

namespace Parsed

/-- The reader returns `Ok(a)`. -/
def Gives {α : Type} (x : Parsed α) (a : α) : Prop := x.run = some (.ok a)

instance {α : Type} [DecidableEq α] (x : Parsed α) (a : α) : Decidable (x.Gives a) :=
  inferInstanceAs (Decidable (x.run = some (.ok a)))

/-- A chain of `?` gives a value iff each link does. -/
theorem gives_bind {α β : Type} {x : Parsed α} {f : α → Parsed β} {b : β} :
    Gives (x >>= f) b ↔ ∃ a, x.Gives a ∧ (f a).Gives b := by
  unfold Gives
  constructor
  · intro h
    cases hx : x.run with
    | none =>
      rw [ExceptT.run_bind, hx] at h
      cases h
    | some r =>
      rw [ExceptT.run_bind, hx] at h
      cases r with
      | error e => cases h
      | ok a => exact ⟨a, rfl, h⟩
  · rintro ⟨a, hx, hf⟩
    rw [ExceptT.run_bind, hx]
    exact hf

theorem gives_pure {α : Type} {a b : α} : Gives (pure a) b ↔ a = b := by
  unfold Gives
  constructor
  · intro h
    cases h
    rfl
  · rintro rfl
    rfl

theorem not_gives_throw {α : Type} {e : String} {a : α} : ¬ Gives (throw e) a := by
  intro h
  cases h

end Parsed

/-! ## Strings and numbers of the standard library -/

/-- `&s[..n]`. -/
def cut : Nat → Text → Option Text
  | 0, _ => some []
  | _ + 1, [] => none
  | n + 1, c :: s => if c.utf8Size ≤ n + 1 then (cut (n + 1 - c.utf8Size) s).map (c :: ·) else none

/-- `char::to_digit`. -/
def toDigit (radix : Nat) (c : Char) : Option Nat :=
  let value :=
    if '0' ≤ c ∧ c ≤ '9' then some (c.toNat - '0'.toNat)
    else if 'a' ≤ c ∧ c ≤ 'z' then some (c.toNat - 'a'.toNat + 10)
    else if 'A' ≤ c ∧ c ≤ 'Z' then some (c.toNat - 'A'.toNat + 10)
    else none
  value.filter (· < radix)

/-- The digit loop of `u32::from_str_radix`. -/
def radixDigits (radix : Nat) : Nat → Text → Except String Nat
  | acc, [] => .ok acc
  | acc, c :: cs =>
    match toDigit radix c with
    | none => .error "invalid digit found in string"
    | some d =>
      if acc * radix + d < 2 ^ 32 then radixDigits radix (acc * radix + d) cs
      else .error "number too large to fit in target type"

/-- `u32::from_str_radix`; `u32::from_str` is its radix 10. -/
def fromStrRadix (radix : Nat) : Text → Except String Nat
  | [] => .error "cannot parse integer from empty string"
  | ['+'] => .error "invalid digit found in string"
  | '+' :: cs => radixDigits radix 0 cs
  | cs => radixDigits radix 0 cs

/-! ## The readers -/

/-- What a last byte `k`, `m` or `g`, in either case, multiplies by. -/
def suffixMult (base : Nat) (b : UInt8) : Option Nat :=
  if b = 'k'.toUInt8 ∨ b = 'K'.toUInt8 then some base
  else if b = 'm'.toUInt8 ∨ b = 'M'.toUInt8 then some (base * base)
  else if b = 'g'.toUInt8 ∨ b = 'G'.toUInt8 then some (base * base * base)
  else none

/-- The number part of a text and its multiplier. -/
def splitSuffix (base : Nat) (s : Text) : Parsed (Text × Nat) :=
  match (asBytes s).getLast?.bind (suffixMult base) with
  | some mult => do
    let numPart ← ExceptT.lift (cut (utf8Len s - 1) s)
    pure (numPart, mult)
  | none => pure (s, 1)

/-- The common body of `parse` and `parse_size`. -/
def parseScaled (noun : String) (base : Nat) (s : Text) : Parsed Nat :=
  if s = [] then pure 0
  else do
    let (numPart, mult) ← splitSuffix base s
    match parseU64 numPart with
    | .error e => throw ("invalid " ++ noun ++ " '" ++ String.ofList s ++ "': " ++ e)
    | .ok n =>
      if n * mult < 2 ^ 64 then pure (n * mult)
      else throw (noun ++ " '" ++ String.ofList s ++ "' overflows u64")

/-- `bandwidth::parse_size`. -/
def parseSize : Text → Parsed Nat := parseScaled "size" 1024

/-- `bandwidth::parse`. -/
def parseBandwidth : Text → Parsed Nat := parseScaled "bandwidth" 1000

/-- The number in a TOS text, and what the text is called if it is wrong. -/
def tosNumber (s : Text) : String × Except String Nat :=
  match s with
  | '0' :: 'x' :: hex | '0' :: 'X' :: hex => ("TOS hex", fromStrRadix 16 hex)
  | '0' :: c :: octal => ("TOS octal", fromStrRadix 8 (c :: octal))
  | _ => ("TOS", fromStrRadix 10 s)

/-- `bandwidth::parse_tos`. -/
def parseTos (s : Text) : Parsed Nat :=
  match tosNumber s with
  | (noun, .error e) => throw ("invalid " ++ noun ++ " '" ++ String.ofList s ++ "': " ++ e)
  | (_, .ok val) =>
    if 255 < val then throw ("TOS value " ++ toString val ++ " out of range (0-255)")
    else pure val

/-! ## What is accepted fits its type -/

/-- **A size or bandwidth is a `u64`.** -/
theorem parseScaled_lt {noun : String} {base n : Nat} {s : Text}
    (h : (parseScaled noun base s).Gives n) : n < 2 ^ 64 := by
  unfold parseScaled at h
  split at h
  · cases Parsed.gives_pure.mp h
    exact Nat.two_pow_pos 64
  · obtain ⟨⟨numPart, mult⟩, -, hnumber⟩ := Parsed.gives_bind.mp h
    dsimp only at hnumber
    split at hnumber
    · exact absurd hnumber Parsed.not_gives_throw
    · split at hnumber
      · rename_i hfits
        rw [← Parsed.gives_pure.mp hnumber]
        exact hfits
      · exact absurd hnumber Parsed.not_gives_throw

example : (parseBandwidth "250K".toList).Gives 250000 := by decide

/-- **A TOS value is a byte.** -/
theorem parseTos_le {s : Text} {n : Nat} (h : (parseTos s).Gives n) : n ≤ 255 := by
  unfold parseTos at h
  split at h
  · exact absurd h Parsed.not_gives_throw
  · split at h
    · exact absurd h Parsed.not_gives_throw
    · rename_i hval
      rw [← Parsed.gives_pure.mp h]
      exact Nat.not_lt.mp hval

example : (parseTos "0x1F".toList).Gives 31 := by decide

end Rperf3
