/-
  `common/auth.rs`: the replay cache, the authtoken parser, the timestamp window and the
  user-file check, plus `check_auth_inner` of `server.rs`, which runs them in order.

  RSA-OAEP decryption, base64 and SHA-256 come from other crates and stay PARAMETERS (`Crypto`);
  what the two secret files contain when an attempt reads them is part of the attempt.  Everything
  the repository computes itself is spelled out: the field splitting and checks of the decrypted
  payload, the truncated wall-clock second, the eviction, lookup and insertion of the cache.
  Texts are lists of characters; clocks count nanoseconds, the wall clock from the UNIX epoch.
-/
import Rperf3.Lib.Table
import Rperf3.Common.Config

namespace Rperf3

abbrev Text := List Char

/-! ## The `?` operator -/

/-- `Option::ok_or`. -/
def okOr {ε α : Type} (o : Option α) (e : ε) : Except ε α :=
  match o with
  | some a => .ok a
  | none => .error e

/-- A chain of `?` succeeds iff each link does. -/
theorem bind_eq_ok {ε α β : Type} {x : Except ε α} {f : α → Except ε β} {b : β} :
    (x >>= f) = .ok b ↔ ∃ a, x = .ok a ∧ f a = .ok b := by
  cases x with
  | error e =>
    constructor
    · intro h
      cases h
    · rintro ⟨a, h, -⟩
      cases h
  | ok a =>
    constructor
    · intro h
      exact ⟨a, rfl, h⟩
    · rintro ⟨a', h, hf⟩
      cases h
      exact hf

/-! ## Text helpers the parser uses -/

/-- `String::from_utf8`. -/
def fromUtf8 (bs : Bytes) : Option Text :=
  (ByteArray.utf8Decode? ⟨bs.toArray⟩).map Array.toList

/-- `str::as_bytes`. -/
def asBytes (t : Text) : Bytes := t.flatMap String.utf8EncodeChar

theorem utf8Encode_eq (t : Text) : (⟨(asBytes t).toArray⟩ : ByteArray) = t.utf8Encode := by
  unfold asBytes
  rw [List.utf8Encode]
  apply ByteArray.ext
  rw [List.data_toByteArray]

/-- Decoding what was encoded gives the text back. -/
theorem fromUtf8_asBytes (t : Text) : fromUtf8 (asBytes t) = some t := by
  unfold fromUtf8
  rw [utf8Encode_eq, List.utf8Decode?_utf8Encode]
  rfl

/-- Only the encoding of a text decodes to it. -/
theorem asBytes_of_fromUtf8 {bs : Bytes} {t : Text} (h : fromUtf8 bs = some t) :
    asBytes t = bs := by
  unfold fromUtf8 at h
  obtain ⟨cs, hdecode, rfl⟩ := Option.map_eq_some_iff.mp h
  have hsome : (ByteArray.utf8Decode? ⟨bs.toArray⟩).isSome := by
    rw [hdecode]
    rfl
  have henc : ((ByteArray.utf8Decode? ⟨bs.toArray⟩).get hsome).toList.utf8Encode = ⟨bs.toArray⟩ :=
    ByteArray.utf8Encode_get_utf8Decode?
  have hget : (ByteArray.utf8Decode? ⟨bs.toArray⟩).get hsome = cs :=
    Option.get_of_eq_some hsome hdecode
  rw [hget, ← utf8Encode_eq] at henc
  exact List.toArray_inj (congrArg ByteArray.data henc)

/-- The length of `str::as_bytes`. -/
def utf8Len (t : Text) : Nat := (t.map Char.utf8Size).sum

/-- `str::splitn(n, sep)`. -/
def splitn : Nat → Char → Text → List Text
  | 0, _, _ => []
  | 1, _, cs => [cs]
  | n + 2, sep, cs =>
    match cs.span (· ≠ sep) with
    | (a, []) => [a]
    | (a, _ :: rest) => a :: splitn (n + 1) sep rest

/-- `char::is_control`: the general category `Cc`. -/
def isControl (c : Char) : Bool := c.toNat < 32 || (127 ≤ c.toNat && c.toNat < 160)

/-- `char::is_ascii_hexdigit`. -/
def isAsciiHexdigit (c : Char) : Bool :=
  ('0' ≤ c && c ≤ '9') || ('a' ≤ c && c ≤ 'f') || ('A' ≤ c && c ≤ 'F')

/-- The digit loop of `u64::from_str`: each character must be a decimal digit and the value must
    stay below `2 ^ 64`. -/
def parseDigits : Nat → Text → Except String Nat
  | acc, [] => .ok acc
  | acc, c :: cs =>
    if '0' ≤ c ∧ c ≤ '9' then
      let v := acc * 10 + (c.toNat - '0'.toNat)
      if v < 2 ^ 64 then parseDigits v cs
      else .error "number too large to fit in target type"
    else .error "invalid digit found in string"

/-- `u64::from_str`: an optional `+`, then at least one digit. -/
def parseU64 : Text → Except String Nat
  | [] => .error "cannot parse integer from empty string"
  | ['+'] => .error "invalid digit found in string"
  | '+' :: cs => parseDigits 0 cs
  | cs => parseDigits 0 cs

/-! ## The replay cache -/

def timestampSkewSecs : Nat := 10

/-- Digests of recently accepted ciphertexts with the instant after which each may be evicted. -/
structure NonceCache (D : Type) where
  seen : Table D Nat
  ttl : Nat

namespace NonceCache

variable {D : Type}

def withTtl (ttl : Nat) : NonceCache D := ⟨∅, ttl⟩

/-- `NonceCache::new`: a lifetime of twice the skew. -/
def new : NonceCache D := withTtl (fromSecs (timestampSkewSecs * 2))

variable [DecidableEq D]

/-- `check_and_record` at instant `now`: evict what has expired, refuse a digest that is still
    there, otherwise record it.  A refusal keeps the eviction. -/
def checkAndRecord (digest : D) (now : Nat) (c : NonceCache D) :
    Except String Unit × NonceCache D :=
  let seen := c.seen.retain fun deadline => decide (now < deadline)
  if (seen.lookup digest).isSome then
    (.error "authtoken replay detected", { c with seen := seen })
  else
    (.ok (), { c with seen := seen.insert digest (now + c.ttl) })

end NonceCache

/-! ## The token payload -/

structure AuthClaim where
  timestamp : Nat
  username : Text
  passwordSha256Hex : Text
  deriving DecidableEq

/-- The parameters supplied by other crates: base64, RSA-OAEP with a key `K`, SHA-256. -/
structure Crypto (K D : Type) where
  base64Decode : String → Except String Bytes
  decrypt : K → Bytes → Except String Bytes
  sha256 : Bytes → D

variable {K D : Type}

/-- The parsing half of `decode_authtoken_bytes`: `timestamp '\n' username '\n' hash`. -/
def parseClaim (s : Text) : Except String AuthClaim :=
  match splitn 3 '\n' s with
  | [] => .error "missing timestamp"
  | tsText :: rest =>
    match parseU64 tsText with
    | .error e => .error ("bad timestamp: " ++ e)
    | .ok ts =>
      match rest with
      | [] => .error "missing username"
      | [_] => .error "missing password hash"
      | username :: hash :: _ =>
        if username.isEmpty || username.any isControl then
          .error "username: invalid characters"
        else if utf8Len hash ≠ 64 || !hash.all isAsciiHexdigit then
          .error "password hash: malformed"
        else
          .ok ⟨ts, username, hash⟩

/-- `decode_authtoken_bytes`. -/
def decodeAuthtokenBytes (C : Crypto K D) (privkey : K) (ciphertext : Bytes) :
    Except String AuthClaim :=
  match C.decrypt privkey ciphertext with
  | .error e => .error ("rsa decrypt: " ++ e)
  | .ok plain =>
    match fromUtf8 plain with
    | none => .error "authtoken not utf8"
    | some s => parseClaim s

/-- A ciphertext that decrypts to an encoded text is decoded by parsing that text. -/
theorem decodeAuthtokenBytes_of_decrypt {C : Crypto K D} {k : K} {c : Bytes} {t : Text}
    (h : C.decrypt k c = .ok (asBytes t)) : decodeAuthtokenBytes C k c = parseClaim t := by
  unfold decodeAuthtokenBytes
  rw [h]
  dsimp only
  rw [fromUtf8_asBytes]

/-- The wall clock in whole seconds since the epoch, truncated; an error before the epoch. -/
def unixSecs (wall : Int) : Except String Nat :=
  if wall < 0 then .error "clock: second time provided was later than self"
  else .ok (wall.toNat / nanos)

/-- `u64::abs_diff`. -/
def absDiff (a b : Nat) : Nat := (a - b) + (b - a)

/-- `validate_timestamp` at wall-clock reading `wall`. -/
def validateTimestamp (wall : Int) (claim : AuthClaim) (skewSecs : Nat) : Except String Unit :=
  match unixSecs wall with
  | .error e => .error e
  | .ok now =>
    let delta := absDiff now claim.timestamp
    if delta > skewSecs then
      .error (s!"timestamp skew {delta} > {skewSecs}")
    else .ok ()

/-! ## Authorisation -/

/-- `to_ascii_lowercase`. -/
def toAsciiLowercase (t : Text) : Text := t.map Char.toLower

/-- `constant_time_eq`: equal lengths, then the XOR differences of all bytes OR-ed together. -/
def constantTimeEq (a b : Bytes) : Bool :=
  if a.length ≠ b.length then false
  else (List.zipWith (· ^^^ ·) a b).foldl (· ||| ·) 0 == 0

def dummyHash : Text := List.replicate 64 '0'

/-- `authorize`: the same opaque error for an unknown user and for a wrong hash. -/
def authorize (claim : AuthClaim) (users : Table Text Text) : Except String Unit :=
  let lookupUsername := toAsciiLowercase claim.username
  let claimHash := toAsciiLowercase claim.passwordSha256Hex
  let expected := (users.lookup lookupUsername).getD dummyHash
  let matched := constantTimeEq (asBytes expected) (asBytes claimHash)
  let userExists := (users.lookup lookupUsername).isSome
  if matched && userExists then .ok () else .error "authentication failed"

/-! ## One authentication attempt -/

/-- What one call of `check_auth_inner` sees: the two secret files as they load at that moment,
    the options received, and the clocks. -/
structure Attempt (K : Type) where
  keyFile : Except String K
  usersFile : Except String (Table Text Text)
  opts : ClientOptions
  wall : Int
  now : Nat

/-- The checks before the replay cache: load both files, decode the token, validate its timestamp.
    None of them touches the cache. -/
def presentedToken (C : Crypto K D) (a : Attempt K) :
    Except String (Bytes × AuthClaim × Table Text Text) := do
  let privkey ← a.keyFile
  let users ← a.usersFile
  let token ← okOr a.opts.authtoken "missing authtoken"
  let ciphertext ← (C.base64Decode token).mapError ("b64: " ++ ·)
  let claim ← decodeAuthtokenBytes C privkey ciphertext
  validateTimestamp a.wall claim timestampSkewSecs
  pure (ciphertext, claim, users)

variable [DecidableEq D]

/-- `check_auth_inner`: the result and the cache it leaves behind.  The cache is keyed on the raw
    ciphertext and consulted only after the timestamp has passed; the user file is compared last. -/
def checkAuthInner (C : Crypto K D) (a : Attempt K) (cache : NonceCache D) :
    Except String Unit × NonceCache D :=
  match presentedToken C a with
  | .error e => (.error e, cache)
  | .ok (ciphertext, claim, users) =>
    match cache.checkAndRecord (C.sha256 ciphertext) a.now with
    | (.error e, cache') => (.error e, cache')
    | (.ok (), cache') => (authorize claim users, cache')

end Rperf3
