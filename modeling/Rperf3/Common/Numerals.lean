/-
  THE GRAMMAR of sizes, bandwidths and TOS values.

  What the readers of `bandwidth.rs` accept, said without the readers: numerals of a radix, an
  optional sign, an optional suffix.

  1. `parseU64_ok_iff`, `fromStrRadix_ok_iff` — the integer readers of the standard library accept
     exactly the numerals that fit, by the rules of `Numeral`.
  2. `splitSuffix_eq` — the last BYTE is a suffix letter iff the last character is, and cutting it
     off never falls inside a character; so no reader panics.
  3. `readers_accept_grammar` — each reader gives `v` exactly for the texts that denote it.
-/
import Rperf3.Lib.Numeral
import Rperf3.Common.Bandwidth

namespace Rperf3

open Numeral

/-! ## The integer readers -/

/-- An optionally plus-signed numeral. -/
def SignedNumeral (radix : Nat) (s : Text) (n : Nat) : Prop :=
  Signed '+' (toDigit radix) radix s n

theorem toDigit_ten {c : Char} {d : Nat} :
    toDigit 10 c = some d ↔ ('0' ≤ c ∧ c ≤ '9') ∧ d = c.toNat - '0'.toNat := by
  unfold toDigit
  dsimp only
  rw [Option.filter_eq_some_iff, decide_eq_true_eq]
  by_cases hdigit : '0' ≤ c ∧ c ≤ '9'
  · have hle : c.toNat ≤ 57 := hdigit.2
    have hzero : '0'.toNat = 48 := rfl
    rw [if_pos hdigit, Option.some.injEq]
    constructor
    · rintro ⟨rfl, -⟩
      exact ⟨hdigit, rfl⟩
    · rintro ⟨-, rfl⟩
      exact ⟨rfl, by omega⟩
  · rw [if_neg hdigit]
    refine ⟨?_, fun h => absurd h.1 hdigit⟩
    -- the letters are worth ten and more
    rintro ⟨hvalue, hlt⟩
    split at hvalue
    · have hd := Option.some.inj hvalue
      omega
    split at hvalue
    · have hd := Option.some.inj hvalue
      omega
    · cases hvalue

theorem parseDigits_cons (acc : Nat) (c : Char) (cs : Text) (n : Nat) :
    parseDigits acc (c :: cs) = .ok n ↔
      ∃ d, toDigit 10 c = some d ∧ acc * 10 + d < 2 ^ 64 ∧
        parseDigits (acc * 10 + d) cs = .ok n := by
  rw [parseDigits]
  split
  · rename_i hc
    dsimp only
    split
    · rename_i hlt
      constructor
      · intro h
        exact ⟨_, toDigit_ten.mpr ⟨hc, rfl⟩, hlt, h⟩
      · rintro ⟨d, hd, -, h⟩
        rw [(toDigit_ten.mp hd).2] at h
        exact h
    · rename_i hlt
      refine ⟨fun h => (by cases h), ?_⟩
      rintro ⟨d, hd, hlt', -⟩
      rw [(toDigit_ten.mp hd).2] at hlt'
      exact absurd hlt' hlt
  · rename_i hc
    refine ⟨fun h => (by cases h), ?_⟩
    rintro ⟨d, hd, -⟩
    exact absurd (toDigit_ten.mp hd).1 hc

/-- **`u64::from_str`** accepts the decimal numerals that fit. -/
theorem parseU64_ok_iff (s : Text) (n : Nat) :
    parseU64 s = .ok n ↔ SignedNumeral 10 s n ∧ n < 2 ^ 64 := by
  have hread : ∀ s n, parseDigits 0 s = .ok n ↔ Denotes (toDigit 10) 10 s n ∧ n < 2 ^ 64 :=
    read_iff (by decide) (fun _ => rfl) parseDigits_cons (by decide)
  refine signed_iff (by decide) hread (fun n h => (by cases h)) (fun n h => (by cases h))
    (fun c cs => rfl) ?_ s n
  intro c cs hc
  unfold parseU64
  split
  · rename_i h
    cases h
  · rename_i h
    cases h
    exact absurd rfl hc
  · rename_i h
    cases h
    exact absurd rfl hc
  · rfl

theorem radixDigits_cons (radix acc : Nat) (c : Char) (cs : Text) (n : Nat) :
    radixDigits radix acc (c :: cs) = .ok n ↔
      ∃ d, toDigit radix c = some d ∧ acc * radix + d < 2 ^ 32 ∧
        radixDigits radix (acc * radix + d) cs = .ok n := by
  rw [radixDigits]
  cases toDigit radix c with
  | none =>
    refine ⟨fun h => (by cases h), ?_⟩
    rintro ⟨d, hd, -⟩
    cases hd
  | some d =>
    dsimp only
    split
    · rename_i hlt
      constructor
      · intro h
        exact ⟨d, rfl, hlt, h⟩
      · rintro ⟨d', hd, -, h⟩
        cases hd
        exact h
    · rename_i hlt
      refine ⟨fun h => (by cases h), ?_⟩
      rintro ⟨d', hd, hlt', -⟩
      cases hd
      exact absurd hlt' hlt

/-- No radix has a digit `+`. -/
theorem toDigit_plus (radix : Nat) : toDigit radix '+' = none := rfl

/-- **`u32::from_str_radix`** accepts the numerals of its radix that fit. -/
theorem fromStrRadix_ok_iff {radix : Nat} (hradix : 0 < radix) (s : Text) (n : Nat) :
    fromStrRadix radix s = .ok n ↔ SignedNumeral radix s n ∧ n < 2 ^ 32 := by
  have hread : ∀ s n, radixDigits radix 0 s = .ok n ↔
      Denotes (toDigit radix) radix s n ∧ n < 2 ^ 32 :=
    read_iff hradix (fun _ => rfl) (radixDigits_cons radix) (by decide)
  refine signed_iff (toDigit_plus radix) hread (fun n h => (by cases h))
    (fun n h => (by cases h)) (fun c cs => rfl) ?_ s n
  intro c cs hc
  unfold fromStrRadix
  split
  · rename_i h
    cases h
  · rename_i h
    cases h
    exact absurd rfl hc
  · rename_i h
    cases h
    exact absurd rfl hc
  · rfl

/-! ## The suffix -/

/-- What the letters `k`, `m` and `g` multiply by, in either case. -/
def suffixLetter (base : Nat) (c : Char) : Option Nat :=
  if c = 'k' ∨ c = 'K' then some base
  else if c = 'm' ∨ c = 'M' then some (base * base)
  else if c = 'g' ∨ c = 'G' then some (base * base * base)
  else none

/-- A suffix and what it multiplies by. -/
inductive Suffix (kilo mega giga : Nat) : Text → Nat → Prop
  | none : Suffix kilo mega giga [] 1
  | k {c : Char} (h : c = 'k' ∨ c = 'K') : Suffix kilo mega giga [c] kilo
  | m {c : Char} (h : c = 'm' ∨ c = 'M') : Suffix kilo mega giga [c] mega
  | g {c : Char} (h : c = 'g' ∨ c = 'G') : Suffix kilo mega giga [c] giga

theorem Suffix.none_or_letter {kilo mega giga : Nat} {suffix : Text} {mult : Nat}
    (h : Suffix kilo mega giga suffix mult) :
    suffix = [] ∧ mult = 1 ∨ ∃ c, suffix = [c] ∧ Suffix kilo mega giga [c] mult := by
  cases h with
  | none => exact .inl ⟨rfl, rfl⟩
  | k hc => exact .inr ⟨_, rfl, .k hc⟩
  | m hc => exact .inr ⟨_, rfl, .m hc⟩
  | g hc => exact .inr ⟨_, rfl, .g hc⟩

theorem suffixLetter_iff {base : Nat} {c : Char} {mult : Nat} :
    suffixLetter base c = some mult ↔
      Suffix base (base * base) (base * base * base) [c] mult := by
  constructor
  · intro h
    unfold suffixLetter at h
    split at h
    · rename_i hc
      cases h
      exact .k hc
    split at h
    · rename_i hc
      cases h
      exact .m hc
    split at h
    · rename_i hc
      cases h
      exact .g hc
    · cases h
  · intro h
    cases h with
    | k hc => exact if_pos hc
    | m hc => rcases hc with rfl | rfl <;> rfl
    | g hc => rcases hc with rfl | rfl <;> rfl

/-- A suffix letter is one byte, and no digit. -/
theorem suffixLetter_some {base : Nat} {c : Char} {mult : Nat}
    (h : suffixLetter base c = some mult) : c.utf8Size = 1 ∧ toDigit 10 c = none := by
  cases suffixLetter_iff.mp h with
  | k hc => rcases hc with rfl | rfl <;> exact ⟨rfl, rfl⟩
  | m hc => rcases hc with rfl | rfl <;> exact ⟨rfl, rfl⟩
  | g hc => rcases hc with rfl | rfl <;> exact ⟨rfl, rfl⟩

/-- The last byte of a character's encoding. -/
def lastByte (c : Char) : UInt8 :=
  if c.toNat ≤ 127 then UInt8.ofNat c.toNat else UInt8.ofNat (c.toNat % 64 + 128)

theorem getLast?_utf8EncodeChar (c : Char) :
    (String.utf8EncodeChar c).getLast? = some (lastByte c) := by
  unfold String.utf8EncodeChar lastByte
  dsimp only
  change (if c.toNat ≤ 127 then _ else _ : List UInt8).getLast? = _
  split
  · rfl
  · split
    · rfl
    · split
      · rfl
      · rfl

/-- Only an ASCII character ends in an ASCII byte. -/
theorem lastByte_eq_iff {c x : Char} (hx : x.toNat ≤ 127) : lastByte c = x.toUInt8 ↔ c = x := by
  have hbyte : x.toUInt8.toNat = x.toNat := by
    show x.toNat % 256 = x.toNat
    omega
  constructor
  · intro h
    have hnat := congrArg UInt8.toNat h
    rw [hbyte, lastByte] at hnat
    apply Char.toNat_inj.mp
    split at hnat
    · rw [UInt8.toNat_ofNat'] at hnat
      omega
    · rw [UInt8.toNat_ofNat'] at hnat
      omega
  · rintro rfl
    apply UInt8.toNat_inj.mp
    rw [hbyte, lastByte, if_pos hx, UInt8.toNat_ofNat']
    omega

theorem suffixMult_lastByte (base : Nat) (c : Char) :
    suffixMult base (lastByte c) = suffixLetter base c := by
  unfold suffixMult suffixLetter
  simp only [lastByte_eq_iff (x := 'k') (by decide), lastByte_eq_iff (x := 'K') (by decide),
    lastByte_eq_iff (x := 'm') (by decide), lastByte_eq_iff (x := 'M') (by decide),
    lastByte_eq_iff (x := 'g') (by decide), lastByte_eq_iff (x := 'G') (by decide)]

theorem asBytes_concat (s : Text) (c : Char) :
    asBytes (s ++ [c]) = asBytes s ++ String.utf8EncodeChar c := by
  unfold asBytes
  rw [List.flatMap_append, List.flatMap_singleton]

theorem utf8Len_append (s t : Text) : utf8Len (s ++ t) = utf8Len s + utf8Len t := by
  unfold utf8Len
  rw [List.map_append, List.sum_append]

/-- A position behind the first character. -/
theorem utf8Len_cons_eq_succ (c : Char) (s : Text) :
    ∃ k, utf8Len (c :: s) = k + 1 ∧ c.utf8Size ≤ k + 1 ∧ k + 1 - c.utf8Size = utf8Len s := by
  have hlen : utf8Len (c :: s) = c.utf8Size + utf8Len s := rfl
  have hpos := c.utf8Size_pos
  exact ⟨c.utf8Size + utf8Len s - 1, by omega, by omega, by omega⟩

/-- Cutting at a character boundary. -/
theorem cut_append (s t : Text) : cut (utf8Len s) (s ++ t) = some s := by
  induction s with
  | nil => cases t <;> rfl
  | cons c s ih =>
    obtain ⟨k, hk, hfits, hrest⟩ := utf8Len_cons_eq_succ c s
    rw [hk, List.cons_append, cut, if_pos hfits, hrest, ih]
    rfl

/-- **The suffix** is the last character if that is a letter, and then what is before it is the
    number part; otherwise there is none. -/
theorem splitSuffix_eq (base : Nat) (s : Text) (c : Char) :
    splitSuffix base (s ++ [c]) =
      match suffixLetter base c with
      | some mult => pure (s, mult)
      | none => pure (s ++ [c], 1) := by
  have hlast : (asBytes (s ++ [c])).getLast?.bind (suffixMult base) = suffixLetter base c := by
    rw [asBytes_concat, List.getLast?_append, getLast?_utf8EncodeChar]
    exact suffixMult_lastByte base c
  unfold splitSuffix
  rw [hlast]
  cases hletter : suffixLetter base c with
  | none => rfl
  | some mult =>
    have hlen : utf8Len (s ++ [c]) - 1 = utf8Len s := by
      rw [utf8Len_append]
      show utf8Len s + (c.utf8Size + 0) - 1 = _
      rw [(suffixLetter_some hletter).1]
      omega
    dsimp only
    rw [hlen, cut_append]
    rfl

/-! ## Sizes and bandwidths -/

/-- Nothing at all, denoting zero; or a number with an optional suffix, where neither the number nor
    the product exceeds 64 bits. -/
def ScaledNumeral (kilo mega giga : Nat) (s : Text) (v : Nat) : Prop :=
  s = [] ∧ v = 0 ∨
    ∃ num suffix n mult, s = num ++ suffix ∧ SignedNumeral 10 num n ∧ n < 2 ^ 64 ∧
      Suffix kilo mega giga suffix mult ∧ n * mult < 2 ^ 64 ∧ v = n * mult

/-- A numeral ends in a digit. -/
theorem SignedNumeral.last {radix : Nat} {s : Text} {n : Nat} (h : SignedNumeral radix s n) :
    ∃ init c d, s = init ++ [c] ∧ toDigit radix c = some d := by
  obtain ⟨body, hs, hne, hden⟩ := h
  obtain ⟨init, c, rfl⟩ := List.eq_nil_or_concat body |>.resolve_left hne
  rw [List.concat_eq_append] at hs hden
  obtain ⟨d, hd⟩ := hden.digit_of_mem (List.mem_append_right init (List.mem_singleton_self c))
  rcases hs with rfl | rfl
  · exact ⟨init, c, d, rfl, hd⟩
  · exact ⟨'+' :: init, c, d, rfl, hd⟩

/-- What follows the split: the number is read and scaled. -/
theorem scaled_gives (num : Text) (mult v : Nat) (bad : String → String) (overflow : String) :
    Parsed.Gives
      (match parseU64 num with
        | .error e => throw (bad e)
        | .ok n => if n * mult < 2 ^ 64 then pure (n * mult) else throw overflow) v ↔
      ∃ n, parseU64 num = .ok n ∧ n * mult < 2 ^ 64 ∧ v = n * mult := by
  cases parseU64 num with
  | error e => exact ⟨fun h => absurd h Parsed.not_gives_throw, fun ⟨n, h, _⟩ => (by cases h)⟩
  | ok n =>
    dsimp only
    by_cases hfits : n * mult < 2 ^ 64
    · rw [if_pos hfits, Parsed.gives_pure]
      constructor
      · intro h
        exact ⟨n, rfl, hfits, h.symm⟩
      · rintro ⟨n', hn, -, rfl⟩
        cases hn
        rfl
    · rw [if_neg hfits]
      refine ⟨fun h => absurd h Parsed.not_gives_throw, ?_⟩
      rintro ⟨n', hn, hfits', -⟩
      cases hn
      exact absurd hfits' hfits

/-- The number part, scaled: it is read and multiplied, both within 64 bits. -/
theorem parseScaled_concat_gives (noun : String) (base : Nat) (s : Text) (c : Char) (v : Nat) :
    (parseScaled noun base (s ++ [c])).Gives v ↔
      ∃ num mult n, (suffixLetter base c = some mult ∧ num = s ∨
          suffixLetter base c = none ∧ num = s ++ [c] ∧ mult = 1) ∧
        parseU64 num = .ok n ∧ n * mult < 2 ^ 64 ∧ v = n * mult := by
  unfold parseScaled
  rw [if_neg (by simp), Parsed.gives_bind, splitSuffix_eq]
  cases hletter : suffixLetter base c with
  | some mult =>
    constructor
    · rintro ⟨⟨num, mult'⟩, hpure, hgives⟩
      cases Parsed.gives_pure.mp hpure
      obtain ⟨n, hn⟩ := (scaled_gives _ _ _ _ _).mp hgives
      exact ⟨s, mult, n, .inl ⟨rfl, rfl⟩, hn⟩
    · rintro ⟨num, mult', n, ⟨hmult, rfl⟩ | ⟨hnone, -⟩, hn⟩
      · cases hmult
        exact ⟨(num, mult), Parsed.gives_pure.mpr rfl, (scaled_gives _ _ _ _ _).mpr ⟨n, hn⟩⟩
      · cases hnone
  | none =>
    constructor
    · rintro ⟨⟨num, mult'⟩, hpure, hgives⟩
      cases Parsed.gives_pure.mp hpure
      obtain ⟨n, hn⟩ := (scaled_gives _ _ _ _ _).mp hgives
      exact ⟨s ++ [c], 1, n, .inr ⟨rfl, rfl, rfl⟩, hn⟩
    · rintro ⟨num, mult', n, ⟨hmult, -⟩ | ⟨-, rfl, rfl⟩, hn⟩
      · cases hmult
      · exact ⟨(s ++ [c], 1), Parsed.gives_pure.mpr rfl, (scaled_gives _ _ _ _ _).mpr ⟨n, hn⟩⟩

/-- **The common reader of sizes and bandwidths** accepts exactly the scaled numerals. -/
theorem parseScaled_gives_iff (noun : String) (base : Nat) (s : Text) (v : Nat) :
    (parseScaled noun base s).Gives v ↔
      ScaledNumeral base (base * base) (base * base * base) s v := by
  rcases List.eq_nil_or_concat s with rfl | ⟨init, c, rfl⟩
  · rw [parseScaled, if_pos rfl, Parsed.gives_pure]
    constructor
    · intro h
      exact .inl ⟨rfl, h.symm⟩
    · rintro (⟨-, rfl⟩ | ⟨num, suffix, n, mult, hs, hnum, -⟩)
      · rfl
      · obtain ⟨init, c, d, rfl, -⟩ := hnum.last
        simp at hs
  · rw [List.concat_eq_append, parseScaled_concat_gives]
    constructor
    · rintro ⟨num, mult, n, hsplit, hn, hfits, hv⟩
      obtain ⟨hnum, hlt⟩ := (parseU64_ok_iff num n).mp hn
      rcases hsplit with ⟨hletter, rfl⟩ | ⟨-, rfl, rfl⟩
      · exact .inr ⟨num, [c], n, mult, rfl, hnum, hlt, suffixLetter_iff.mp hletter, hfits, hv⟩
      · exact .inr ⟨_, [], n, 1, (List.append_nil _).symm, hnum, hlt, .none, hfits, hv⟩
    · rintro (⟨hnil, -⟩ | ⟨num, suffix, n, mult, hs, hnum, hlt, hsuffix, hfits, hv⟩)
      · simp at hnil
      have hn := (parseU64_ok_iff num n).mpr ⟨hnum, hlt⟩
      rcases hsuffix.none_or_letter with ⟨rfl, rfl⟩ | ⟨c', rfl, hletter⟩
      · -- the last character is a digit, so the reader does not see a suffix either
        rw [List.append_nil] at hs
        subst hs
        obtain ⟨init', c', d, heq, hd⟩ := hnum.last
        obtain ⟨-, hc⟩ := List.append_inj' heq rfl
        cases hc
        have hplain : suffixLetter base c = none := by
          cases hletter : suffixLetter base c with
          | none => rfl
          | some mult =>
            rw [(suffixLetter_some hletter).2] at hd
            cases hd
        exact ⟨init ++ [c], 1, n, .inr ⟨hplain, rfl, rfl⟩, hn, hfits, hv⟩
      · obtain ⟨rfl, hc⟩ := List.append_inj' hs rfl
        cases hc
        exact ⟨init, mult, n, .inl ⟨suffixLetter_iff.mpr hletter, rfl⟩, hn, hfits, hv⟩

/-- **No text makes the reader panic.** -/
theorem parseScaled_no_panic (noun : String) (base : Nat) (s : Text) :
    (parseScaled noun base s).run ≠ none := by
  rcases List.eq_nil_or_concat s with rfl | ⟨init, c, rfl⟩
  · rw [parseScaled, if_pos rfl]
    exact nofun
  · have hsplit : ∃ p, splitSuffix base (init ++ [c]) = pure p := by
      rw [splitSuffix_eq]
      cases suffixLetter base c with
      | none => exact ⟨_, rfl⟩
      | some mult => exact ⟨_, rfl⟩
    obtain ⟨⟨num, mult⟩, hpure⟩ := hsplit
    rw [List.concat_eq_append, parseScaled, if_neg (by simp), hpure, pure_bind]
    dsimp only
    split
    · exact nofun
    · split
      · exact nofun
      · exact nofun

/-! ## TOS values -/

/-- A hexadecimal number after `0x` or `0X`, an octal one after `0`, or a decimal one that does not
    start with a zero unless it is just that; at most a byte. -/
def TosNumeral (s : Text) (v : Nat) : Prop :=
  v ≤ 255 ∧
    ((∃ hex, (s = '0' :: 'x' :: hex ∨ s = '0' :: 'X' :: hex) ∧ SignedNumeral 16 hex v) ∨
      (∃ octal, s = '0' :: octal ∧ SignedNumeral 8 octal v) ∨
      (s = ['0'] ∨ s.head? ≠ some '0') ∧ SignedNumeral 10 s v)

theorem parseTos_gives {s : Text} {v : Nat} :
    (parseTos s).Gives v ↔ (tosNumber s).2 = .ok v ∧ v ≤ 255 := by
  unfold parseTos
  rcases tosNumber s with ⟨noun, result⟩
  cases result with
  | error e =>
    exact ⟨fun h => absurd h Parsed.not_gives_throw, fun ⟨h, _⟩ => (by cases h)⟩
  | ok val =>
    dsimp only
    by_cases hval : 255 < val
    · rw [if_pos hval]
      refine ⟨fun h => absurd h Parsed.not_gives_throw, ?_⟩
      rintro ⟨h, hle⟩
      cases h
      omega
    · rw [if_neg hval, Parsed.gives_pure]
      constructor
      · rintro rfl
        exact ⟨rfl, Nat.not_lt.mp hval⟩
      · rintro ⟨h, -⟩
        exact Except.ok.inj h

/-- A character that is neither a digit nor a sign starts no numeral. -/
theorem not_signedNumeral_cons {radix : Nat} {c : Char} (hc : toDigit radix c = none)
    (hplus : c ≠ '+') (cs : Text) (n : Nat) : ¬ SignedNumeral radix (c :: cs) n := by
  rintro ⟨body, rfl | hbody, -, hden⟩
  · exact not_denotes_cons hc _ _ hden
  · exact hplus (List.cons.inj hbody).1

theorem not_signedNumeral_nil (radix n : Nat) : ¬ SignedNumeral radix [] n := by
  rintro ⟨body, rfl | hbody, hne, -⟩
  · exact hne rfl
  · cases hbody

/-- Which radix a text is read in. -/
theorem tosNumber_cases (s : Text) :
    (∃ x hex, (x = 'x' ∨ x = 'X') ∧ s = '0' :: x :: hex ∧
      (tosNumber s).2 = fromStrRadix 16 hex) ∨
    (∃ c octal, (c ≠ 'x' ∧ c ≠ 'X') ∧ s = '0' :: c :: octal ∧
      (tosNumber s).2 = fromStrRadix 8 (c :: octal)) ∨
    (s = ['0'] ∨ s.head? ≠ some '0') ∧ (tosNumber s).2 = fromStrRadix 10 s := by
  unfold tosNumber
  split
  · exact .inl ⟨'x', _, .inl rfl, rfl, rfl⟩
  · exact .inl ⟨'X', _, .inr rfl, rfl, rfl⟩
  · rename_i c octal hlower hupper
    exact .inr (.inl ⟨c, octal, ⟨hlower, hupper⟩, rfl, rfl⟩)
  · rename_i hlower hupper hlong
    refine .inr (.inr ⟨?_, rfl⟩)
    by_cases hhead : s.head? = some '0'
    · left
      cases s with
      | nil => cases hhead
      | cons c cs =>
        cases hhead
        cases cs with
        | nil => rfl
        | cons c' cs => exact absurd rfl (hlong c' cs)
    · exact .inr hhead

theorem tosNumeral_hex {x : Char} (hx : x = 'x' ∨ x = 'X') (hex : Text) {v : Nat} (hle : v ≤ 255) :
    TosNumeral ('0' :: x :: hex) v ↔ SignedNumeral 16 hex v := by
  constructor
  · rintro ⟨-, ⟨hex', heq | heq, h⟩ | ⟨octal, heq, h⟩ | ⟨heq | hhead, -⟩⟩
    · cases heq
      exact h
    · cases heq
      exact h
    · cases heq
      -- `x` is no octal digit
      have hnone : toDigit 8 x = none ∧ x ≠ '+' := by
        rcases hx with rfl | rfl
        · decide
        · decide
      exact absurd h (not_signedNumeral_cons hnone.1 hnone.2 _ _)
    · cases heq
    · exact absurd rfl hhead
  · intro h
    refine ⟨hle, .inl ⟨hex, ?_, h⟩⟩
    rcases hx with rfl | rfl
    · exact .inl rfl
    · exact .inr rfl

theorem tosNumeral_octal {c : Char} (hlower : c ≠ 'x') (hupper : c ≠ 'X') (octal : Text) {v : Nat}
    (hle : v ≤ 255) : TosNumeral ('0' :: c :: octal) v ↔ SignedNumeral 8 (c :: octal) v := by
  constructor
  · rintro ⟨-, ⟨hex, heq | heq, -⟩ | ⟨octal', heq, h⟩ | ⟨heq | hhead, -⟩⟩
    · cases heq
      exact absurd rfl hlower
    · cases heq
      exact absurd rfl hupper
    · cases heq
      exact h
    · cases heq
    · exact absurd rfl hhead
  · intro h
    exact ⟨hle, .inr (.inl ⟨c :: octal, rfl, h⟩)⟩

theorem tosNumeral_decimal {s : Text} (hs : s = ['0'] ∨ s.head? ≠ some '0') {v : Nat}
    (hle : v ≤ 255) : TosNumeral s v ↔ SignedNumeral 10 s v := by
  constructor
  · rintro ⟨-, ⟨hex, heq | heq, -⟩ | ⟨octal, rfl, h⟩ | ⟨-, h⟩⟩
    · rw [heq] at hs
      simp at hs
    · rw [heq] at hs
      simp at hs
    · rcases hs with heq | hhead
      · cases heq
        exact absurd h (not_signedNumeral_nil 8 v)
      · exact absurd rfl hhead
    · exact h
  · intro h
    exact ⟨hle, .inr (.inr ⟨hs, h⟩)⟩

/-- **The TOS reader** accepts exactly the TOS numerals. -/
theorem parseTos_gives_iff (s : Text) (v : Nat) : (parseTos s).Gives v ↔ TosNumeral s v := by
  rw [parseTos_gives]
  by_cases hle : v ≤ 255
  · have hradix : ∀ {radix : Nat} (t : Text), 0 < radix →
        ((fromStrRadix radix t = .ok v ∧ v ≤ 255) ↔ SignedNumeral radix t v) := by
      intro radix t hpos
      rw [fromStrRadix_ok_iff hpos]
      exact ⟨fun h => h.1.1, fun h => ⟨⟨h, by omega⟩, hle⟩⟩
    rcases tosNumber_cases s with
      ⟨x, hex, hx, rfl, hread⟩ | ⟨c, octal, ⟨hlower, hupper⟩, rfl, hread⟩ | ⟨hdecimal, hread⟩
    · rw [hread, hradix hex (by decide), tosNumeral_hex hx hex hle]
    · rw [hread, hradix (c :: octal) (by decide), tosNumeral_octal hlower hupper octal hle]
    · rw [hread, hradix s (by decide), tosNumeral_decimal hdecimal hle]
  · exact ⟨fun h => absurd h.2 hle, fun h => absurd h.1 hle⟩

theorem parseTos_no_panic (s : Text) : (parseTos s).run ≠ none := by
  unfold parseTos
  split
  · exact nofun
  · split
    · exact nofun
    · exact nofun

/-- **The readers accept exactly their grammar**, on every text, and none of them panics. -/
theorem readers_accept_grammar (s : Text) (v : Nat) :
    ((parseBandwidth s).Gives v ↔ ScaledNumeral (10 ^ 3) (10 ^ 6) (10 ^ 9) s v) ∧
    ((parseSize s).Gives v ↔ ScaledNumeral (2 ^ 10) (2 ^ 20) (2 ^ 30) s v) ∧
    ((parseTos s).Gives v ↔ TosNumeral s v) ∧
    (parseBandwidth s).run ≠ none ∧ (parseSize s).run ≠ none ∧ (parseTos s).run ≠ none :=
  ⟨parseScaled_gives_iff "bandwidth" 1000 s v, parseScaled_gives_iff "size" 1024 s v,
    parseTos_gives_iff s v, parseScaled_no_panic _ _ s, parseScaled_no_panic _ _ s,
    parseTos_no_panic s⟩

end Rperf3
