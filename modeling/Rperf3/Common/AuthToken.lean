/-
  THE AUTHTOKEN PAYLOAD: what the client writes and the server reads back.

  `build_authtoken` joins three fields with newlines, `decode_authtoken_bytes` splits at the first
  two newlines and checks each field.  RSA-OAEP, base64 and SHA-256 stay parameters (`TokenCrypto`).

  1. `ClaimText` — the texts that state a claim, field by field; no field can hold a newline.
  2. `parseClaim_ok_iff` — the parser accepts exactly these, with the claim they state.
  3. `authtoken_payload_unambiguous` — so what was built is read back, and no text has two readings.
-/
import Mathlib.Data.List.TakeDrop
import Mathlib.Data.List.TakeWhile
import Rperf3.Common.Numerals

namespace Rperf3

open Numeral

/-! ## Building a token -/

/-- `Crypto` with the client's side: RSA-OAEP encryption under a public key with some randomness,
    and base64. -/
structure TokenCrypto (P K : Type) extends Crypto K Bytes where
  encrypt : P → Bytes → Bytes → Except String Bytes
  base64Encode : Bytes → String

variable {P K : Type}

/-- `{:02x}` of every byte of a digest. -/
def hexLower (digest : Bytes) : Text :=
  digest.flatMap fun b => [Nat.digitChar (b.toNat / 16), Nat.digitChar (b.toNat % 16)]

/-- `sha256_hex`. -/
def sha256Hex (C : TokenCrypto P K) (input : Text) : Text := hexLower (C.sha256 (asBytes input))

/-- `{:04X}`. -/
def upperHex4 (n : Nat) : String :=
  let digits := (Nat.toDigits 16 n).map Char.toUpper
  String.ofList (List.replicate (4 - digits.length) '0' ++ digits)

/-- `validate_credential_field`. -/
def validateCredentialField (label : String) (value : Text) : Except String Unit :=
  if value.isEmpty then .error (label ++ ": must not be empty")
  else
    match value.find? isControl with
    | some bad => .error (label ++ ": rejects control character (U+" ++ upperHex4 bad.toNat ++ ")")
    | none => .ok ()

/-- `format!("{}\n{}\n{}", ts, username, hash)`. -/
def authtokenPayload (ts : Nat) (username hash : Text) : Text :=
  Nat.toDigits 10 ts ++ '\n' :: (username ++ '\n' :: hash)

/-- `build_authtoken` at wall-clock reading `wall`, with the randomness of its padding. -/
def buildAuthtoken (C : TokenCrypto P K) (pubkey : P) (wall : Int) (seed : Bytes)
    (username password : Text) : Except String String := do
  validateCredentialField "username" username
  validateCredentialField "password" password
  let ts ← unixSecs wall
  let payload := authtokenPayload ts username (sha256Hex C password)
  let ciphertext ← (C.encrypt pubkey seed (asBytes payload)).mapError ("rsa encrypt: " ++ ·)
  pure (C.base64Encode ciphertext)

/-! ## Fields -/

/-- A username the parser accepts. -/
def ValidCredential (u : Text) : Prop := u ≠ [] ∧ ∀ c ∈ u, isControl c = false

/-- A password hash the parser accepts. -/
def ValidHash (h : Text) : Prop := h.length = 64 ∧ ∀ c ∈ h, isAsciiHexdigit c = true

/-- A field without control characters is what the client's check lets through. -/
theorem validateCredentialField_ok_iff (label : String) (value : Text) :
    validateCredentialField label value = .ok () ↔ ValidCredential value := by
  unfold validateCredentialField ValidCredential
  cases value with
  | nil => exact ⟨fun h => (by cases h), fun h => absurd rfl h.1⟩
  | cons c cs =>
    have hne : ¬ (c :: cs).isEmpty = true := fun h => (by cases h)
    rw [if_neg hne]
    cases hfind : (c :: cs).find? isControl with
    | some bad =>
      refine ⟨fun h => (by cases h), ?_⟩
      rintro ⟨-, hall⟩
      have hmem := List.mem_of_find?_eq_some hfind
      have hbad := List.find?_some hfind
      rw [hall bad hmem] at hbad
      cases hbad
    | none =>
      refine ⟨fun _ => ⟨List.cons_ne_nil c cs, fun x hx => ?_⟩, fun _ => rfl⟩
      have hx' := List.find?_eq_none.mp hfind x hx
      exact Bool.not_eq_true _ ▸ hx'

theorem newline_notMem_username {u : Text} (h : ValidCredential u) : '\n' ∉ u := by
  intro hmem
  have hctl := h.2 '\n' hmem
  cases hctl

/-- A timestamp is digits, perhaps with a sign. -/
theorem newline_notMem_timestamp {t : Text} {ts : Nat} (h : parseU64 t = .ok ts) : '\n' ∉ t := by
  obtain ⟨⟨body, hbody, -, hden⟩, -⟩ := (parseU64_ok_iff t ts).mp h
  have hnot : '\n' ∉ body := by
    intro hmem
    obtain ⟨d, hd⟩ := hden.digit_of_mem hmem
    cases hd
  rcases hbody with rfl | rfl
  · exact hnot
  · intro hmem
    rcases List.mem_cons.mp hmem with h | h
    · cases h
    · exact hnot h

/-! ## Splitting -/

theorem splitn_of_notMem (n : Nat) {sep : Char} {a : Text} (h : sep ∉ a) :
    splitn (n + 2) sep a = [a] := by
  have htake : a.takeWhile (· ≠ sep) = a :=
    List.takeWhile_eq_self_iff.mpr fun x hx => by
      simpa using fun heq : x = sep => h (heq ▸ hx)
  have hdrop : a.dropWhile (· ≠ sep) = [] :=
    List.dropWhile_eq_nil_iff.mpr fun x hx => by
      simpa using fun heq : x = sep => h (heq ▸ hx)
  rw [splitn, List.span_eq_takeWhile_dropWhile, htake, hdrop]

theorem splitn_append (n : Nat) {sep : Char} {a : Text} (h : sep ∉ a) (b : Text) :
    splitn (n + 2) sep (a ++ sep :: b) = a :: splitn (n + 1) sep b := by
  have hall : ∀ x ∈ a, (decide (x ≠ sep)) = true := by
    intro x hx
    simpa using fun heq : x = sep => h (heq ▸ hx)
  have htake : (a ++ sep :: b).takeWhile (· ≠ sep) = a := by
    rw [List.takeWhile_append_of_pos hall, List.takeWhile_cons_of_neg (by simp), List.append_nil]
  have hdrop : (a ++ sep :: b).dropWhile (· ≠ sep) = sep :: b := by
    rw [List.dropWhile_append_of_pos hall, List.dropWhile_cons_of_neg (by simp)]
  rw [splitn, List.span_eq_takeWhile_dropWhile, htake, hdrop]

/-! ## What the parser accepts -/

/-- The text states the claim: a timestamp, a username and a hash, with newlines between them. -/
def ClaimText (s : Text) (claim : AuthClaim) : Prop :=
  ∃ t, s = t ++ '\n' :: (claim.username ++ '\n' :: claim.passwordSha256Hex) ∧
    parseU64 t = .ok claim.timestamp ∧ ValidCredential claim.username ∧
    ValidHash claim.passwordSha256Hex

theorem splitn_newlines {t u : Text} (ht : '\n' ∉ t) (hu : '\n' ∉ u) (h : Text) :
    splitn 3 '\n' (t ++ '\n' :: (u ++ '\n' :: h)) = [t, u, h] := by
  rw [splitn_append 1 ht, splitn_append 0 hu]
  rfl

/-- `splitn(3, '\n')` gives a third piece only at a second newline. -/
theorem splitn_three {s t u h : Text} {rest : List Text}
    (hsplit : splitn 3 '\n' s = t :: u :: h :: rest) :
    s = t ++ '\n' :: (u ++ '\n' :: h) := by
  by_cases hs : '\n' ∈ s
  · obtain ⟨a, b, rfl, ha⟩ := List.eq_append_cons_of_mem hs
    rw [splitn_append 1 ha] at hsplit
    by_cases hb : '\n' ∈ b
    · obtain ⟨a', b', rfl, ha'⟩ := List.eq_append_cons_of_mem hb
      rw [splitn_append 0 ha'] at hsplit
      cases hsplit
      rfl
    · rw [splitn_of_notMem 0 hb] at hsplit
      cases hsplit
  · rw [splitn_of_notMem 1 hs] at hsplit
    cases hsplit

theorem validCredential_iff (u : Text) :
    ValidCredential u ↔ ¬ (u.isEmpty || u.any isControl) = true := by
  rw [Bool.or_eq_true, not_or, List.isEmpty_iff, List.any_eq_true]
  constructor
  · rintro ⟨hne, hall⟩
    refine ⟨hne, ?_⟩
    rintro ⟨c, hc, hctl⟩
    rw [hall c hc] at hctl
    cases hctl
  · rintro ⟨hne, hnone⟩
    refine ⟨hne, fun c hc => ?_⟩
    cases hctl : isControl c with
    | false => rfl
    | true => exact absurd ⟨c, hc, hctl⟩ hnone

theorem utf8Size_of_hexdigit {c : Char} (h : isAsciiHexdigit c = true) : c.utf8Size = 1 := by
  have hle : c.val ≤ 127 := by
    unfold isAsciiHexdigit at h
    simp only [Bool.or_eq_true, Bool.and_eq_true, decide_eq_true_eq] at h
    rcases h with (⟨-, h⟩ | ⟨-, h⟩) | ⟨-, h⟩ <;> exact Nat.le_trans h (by decide)
  exact Char.utf8Size_eq_one_iff.mpr hle

/-- Hex digits are ASCII, so their count is the length in bytes. -/
theorem utf8Len_of_hexdigits {h : Text} (hhex : ∀ c ∈ h, isAsciiHexdigit c = true) :
    utf8Len h = h.length := by
  have hmap : h.map Char.utf8Size = h.map fun _ => 1 :=
    List.map_congr_left fun c hc => utf8Size_of_hexdigit (hhex c hc)
  rw [utf8Len, hmap, List.map_const', List.sum_replicate_nat, Nat.mul_one]

theorem validHash_iff (h : Text) :
    ValidHash h ↔ ¬ (decide (utf8Len h ≠ 64) || !h.all isAsciiHexdigit) = true := by
  rw [Bool.or_eq_true, not_or, decide_eq_true_eq, not_not, Bool.not_eq_true', Bool.not_eq_false,
    List.all_eq_true]
  constructor
  · rintro ⟨hlen, hhex⟩
    exact ⟨(utf8Len_of_hexdigits hhex).trans hlen, hhex⟩
  · rintro ⟨hlen, hhex⟩
    exact ⟨(utf8Len_of_hexdigits hhex).symm.trans hlen, hhex⟩

theorem parseClaim_of_text {s : Text} {claim : AuthClaim} (h : ClaimText s claim) :
    parseClaim s = .ok claim := by
  obtain ⟨t, rfl, ht, hu, hh⟩ := h
  unfold parseClaim
  rw [splitn_newlines (newline_notMem_timestamp ht) (newline_notMem_username hu)]
  dsimp only
  rw [ht]
  dsimp only
  rw [if_neg ((validCredential_iff _).mp hu), if_neg ((validHash_iff _).mp hh)]

theorem text_of_parseClaim {s : Text} {claim : AuthClaim} (h : parseClaim s = .ok claim) :
    ClaimText s claim := by
  unfold parseClaim at h
  split at h
  · cases h
  · rename_i t rest hsplit
    split at h
    · cases h
    · rename_i ts ht
      split at h
      · cases h
      · cases h
      · rename_i u hash more
        split at h
        · cases h
        · rename_i hu
          split at h
          · cases h
          · rename_i hh
            cases h
            exact ⟨t, splitn_three hsplit, ht, (validCredential_iff u).mpr hu,
              (validHash_iff hash).mpr hh⟩

/-- **The parser accepts exactly the texts that state a claim.** -/
theorem parseClaim_ok_iff (s : Text) (claim : AuthClaim) :
    parseClaim s = .ok claim ↔ ClaimText s claim :=
  ⟨text_of_parseClaim, parseClaim_of_text⟩

theorem ClaimText.unique {s : Text} {claim claim' : AuthClaim} (h : ClaimText s claim)
    (h' : ClaimText s claim') : claim = claim' := by
  have hparse := parseClaim_of_text h
  rw [parseClaim_of_text h'] at hparse
  exact (Except.ok.inj hparse).symm

/-! ## What the client writes -/

theorem toDigit_digitChar : ∀ d < 10, toDigit 10 (Nat.digitChar d) = some d := by
  decide

/-- The decimal digits of a number denote it. -/
theorem denotes_toDigits (n : Nat) : Denotes (toDigit 10) 10 (Nat.toDigits 10 n) n := by
  induction n using Nat.strong_induction_on with
  | _ n ih =>
    have hempty : Denotes (toDigit 10) 10 [] 0 := ⟨[], .nil, rfl⟩
    rcases Nat.lt_or_ge n 10 with hlt | hge
    · rw [Nat.toDigits_of_lt_base hlt]
      have hone := hempty.concat (toDigit_digitChar n hlt)
      rw [Nat.zero_mul, Nat.zero_add] at hone
      exact hone
    · rw [Nat.toDigits_of_base_le (by decide) hge]
      have hmore := (ih (n / 10) (by omega)).concat
        (toDigit_digitChar (n % 10) (by omega))
      have hn : n / 10 * 10 + n % 10 = n := by omega
      rw [hn] at hmore
      exact hmore

/-- `u64::from_str` reads back what `format!` writes. -/
theorem parseU64_toDigits {n : Nat} (h : n < 2 ^ 64) : parseU64 (Nat.toDigits 10 n) = .ok n :=
  (parseU64_ok_iff _ n).mpr
    ⟨⟨Nat.toDigits 10 n, .inl rfl, Nat.toDigits_ne_nil, denotes_toDigits n⟩, h⟩

theorem isAsciiHexdigit_digitChar : ∀ d < 16, isAsciiHexdigit (Nat.digitChar d) = true := by
  decide

theorem hexLower_length (digest : Bytes) : (hexLower digest).length = 2 * digest.length := by
  induction digest with
  | nil => rfl
  | cons b digest ih =>
    have hstep : (hexLower (b :: digest)).length = (hexLower digest).length + 2 := rfl
    rw [hstep, ih, List.length_cons]
    omega

theorem hexLower_hexdigit {digest : Bytes} {c : Char} (hc : c ∈ hexLower digest) :
    isAsciiHexdigit c = true := by
  obtain ⟨b, -, hb⟩ := List.mem_flatMap.mp hc
  have hlt : b.toNat < 256 := UInt8.toNat_lt b
  rcases List.mem_cons.mp hb with rfl | hb
  · exact isAsciiHexdigit_digitChar _ (by omega)
  · rcases List.mem_cons.mp hb with rfl | hb
    · exact isAsciiHexdigit_digitChar _ (by omega)
    · cases hb

/-- A digest of 32 bytes gives a hash the parser accepts. -/
theorem validHash_sha256Hex {C : TokenCrypto P K} (hsha : ∀ bs, (C.sha256 bs).length = 32)
    (password : Text) : ValidHash (sha256Hex C password) := by
  refine ⟨?_, fun c hc => hexLower_hexdigit hc⟩
  rw [sha256Hex, hexLower_length, hsha]

theorem claimText_payload {ts : Nat} {username hash : Text} (hts : ts < 2 ^ 64)
    (hu : ValidCredential username) (hh : ValidHash hash) :
    ClaimText (authtokenPayload ts username hash) ⟨ts, username, hash⟩ :=
  ⟨_, rfl, parseU64_toDigits hts, hu, hh⟩

/-- What a built token consists of. -/
theorem buildAuthtoken_ok {C : TokenCrypto P K} {pubkey : P} {wall : Int} {seed : Bytes}
    {username password : Text} {token : String}
    (h : buildAuthtoken C pubkey wall seed username password = .ok token) :
    ValidCredential username ∧ ValidCredential password ∧ ∃ ts ciphertext, unixSecs wall = .ok ts ∧
      C.encrypt pubkey seed (asBytes (authtokenPayload ts username (sha256Hex C password)))
        = .ok ciphertext ∧ token = C.base64Encode ciphertext := by
  unfold buildAuthtoken at h
  obtain ⟨_, hu, h⟩ := bind_eq_ok.mp h
  obtain ⟨_, hp, h⟩ := bind_eq_ok.mp h
  obtain ⟨ts, hts, h⟩ := bind_eq_ok.mp h
  obtain ⟨ciphertext, henc, h⟩ := bind_eq_ok.mp h
  refine ⟨(validateCredentialField_ok_iff _ _).mp hu, (validateCredentialField_ok_iff _ _).mp hp,
    ts, ciphertext, hts, ?_, (Except.ok.inj h).symm⟩
  generalize C.encrypt pubkey seed _ = r at henc ⊢
  cases r with
  | error e => cases henc
  | ok c => exact henc

/-- **The payload is unambiguous.**  Under RSA-OAEP that decrypts what it encrypted and SHA-256
    digests of 32 bytes: the parser gives back the fields that were written, through the cipher
    too; and for any text at all it accepts the one claim the text states, or none. -/
theorem authtoken_payload_unambiguous (C : TokenCrypto P K) (pubkey : P) (privkey : K)
    (hrsa : ∀ seed plain c, C.encrypt pubkey seed plain = .ok c → C.decrypt privkey c = .ok plain)
    (hsha : ∀ bs, (C.sha256 bs).length = 32) :
    (∀ ts username password, ts < 2 ^ 64 →
      validateCredentialField "username" username = .ok () →
      validateCredentialField "password" password = .ok () →
      parseClaim (authtokenPayload ts username (sha256Hex C password))
        = .ok ⟨ts, username, sha256Hex C password⟩) ∧
    (∀ wall seed username password token,
      buildAuthtoken C pubkey wall seed username password = .ok token →
      (∀ ts, unixSecs wall = .ok ts → ts < 2 ^ 64) →
      ∃ ts ciphertext, unixSecs wall = .ok ts ∧ token = C.base64Encode ciphertext ∧
        decodeAuthtokenBytes C.toCrypto privkey ciphertext
          = .ok ⟨ts, username, sha256Hex C password⟩) ∧
    (∀ ciphertext claim, decodeAuthtokenBytes C.toCrypto privkey ciphertext = .ok claim →
      ∃ s, C.decrypt privkey ciphertext = .ok (asBytes s) ∧ ClaimText s claim) ∧
    (∀ s claim, parseClaim s = .ok claim ↔ ClaimText s claim) ∧
    (∀ s claim claim', ClaimText s claim → ClaimText s claim' → claim = claim') := by
  refine ⟨?_, ?_, ?_, parseClaim_ok_iff, fun s claim claim' h h' => h.unique h'⟩
  · intro ts username password hts hu _
    have hvalid := (validateCredentialField_ok_iff _ _).mp hu
    exact parseClaim_of_text (claimText_payload hts hvalid (validHash_sha256Hex hsha password))
  · intro wall seed username password token hbuild hclock
    obtain ⟨hu, -, ts, ciphertext, hts, henc, htoken⟩ := buildAuthtoken_ok hbuild
    refine ⟨ts, ciphertext, hts, htoken, ?_⟩
    rw [decodeAuthtokenBytes_of_decrypt (hrsa _ _ _ henc)]
    exact parseClaim_of_text
      (claimText_payload (hclock ts hts) hu (validHash_sha256Hex hsha password))
  · intro ciphertext claim hdecode
    unfold decodeAuthtokenBytes at hdecode
    split at hdecode
    · cases hdecode
    · rename_i plain hplain
      split at hdecode
      · cases hdecode
      · rename_i s hs
        refine ⟨s, ?_⟩
        rw [asBytes_of_fromUtf8 hs]
        exact ⟨hplain, text_of_parseClaim hdecode⟩

/-- A cipher that sends the plaintext, with a padded prefix for a digest. -/
def plainCrypto : TokenCrypto Unit Unit where
  base64Decode token := .ok (asBytes token.toList)
  decrypt _ ciphertext := .ok ciphertext
  sha256 bs := (bs ++ List.replicate 32 0).take 32
  encrypt _ _ plain := .ok plain
  base64Encode bs := String.ofList (bs.map fun b => Char.ofNat b.toNat)

theorem authtoken_payload_unambiguous_alice :
    validateCredentialField "username" ['a', 'l', 'i', 'c', 'e'] = .ok () ∧
    parseClaim (authtokenPayload 1700000000 ['a', 'l', 'i', 'c', 'e']
        (sha256Hex plainCrypto ['p', 'w']))
      = .ok ⟨1700000000, ['a', 'l', 'i', 'c', 'e'], sha256Hex plainCrypto ['p', 'w']⟩ := by
  have hsha : ∀ bs, (plainCrypto.sha256 bs).length = 32 := by
    intro bs
    change ((bs ++ List.replicate 32 0).take 32).length = 32
    rw [List.length_take, List.length_append, List.length_replicate]
    omega
  have hlaw := authtoken_payload_unambiguous plainCrypto () () (fun _ _ _ h => h.symm) hsha
  exact ⟨rfl, hlaw.1 1700000000 _ _ (by decide) rfl rfl⟩

end Rperf3
