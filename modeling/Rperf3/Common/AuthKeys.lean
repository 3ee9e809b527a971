/-
  The RSA key files of `common/auth.rs`, and the token that `send_options` attaches.

  The two PEM parsers and the size of a modulus come from another crate and stay PARAMETERS
  (`KeyFormats`).  A private key is loaded like the user file, only from a file whose mode grants
  nothing to group and others; a public key from any readable file.  Both need 2048 bits.

  The client attaches a token only if it has both a public key and a username.  A key that does not
  load and a token that cannot be built are logged, and the options go out WITHOUT a token.
-/
import Rperf3.Common.AuthUsers

namespace Rperf3

/-- Another error text changes no success. -/
theorem mapError_eq_ok {ε ε' α : Type} {x : Except ε α} {a : α} (f : ε → ε') :
    x.mapError f = .ok a ↔ x = .ok a := by
  cases x with
  | error e => exact ⟨fun h => (by cases h), fun h => (by cases h)⟩
  | ok b => exact ⟨fun h => congrArg Except.ok (Except.ok.inj h), fun h => (by cases h; rfl)⟩

/-! ## Key files -/

/-- The file's mode grants nothing to group and others. -/
def SecretFile.Private (f : SecretFile) : Prop := ∃ mode, f.metadata = .ok mode ∧ mode &&& 0o077 = 0

theorem checkSecretFileMode_ok_iff (f : SecretFile) :
    checkSecretFileMode f = .ok () ↔ f.Private := by
  unfold checkSecretFileMode SecretFile.Private
  rw [bind_eq_ok]
  simp only [mapError_eq_ok]
  refine exists_congr fun mode => and_congr_right fun _ => ?_
  split
  · rename_i hopen
    exact ⟨fun h => (by cases h), fun h => absurd h hopen⟩
  · rename_i hclosed
    exact ⟨fun _ => not_not.mp hclosed, fun _ => rfl⟩

/-- The parsers of PEM texts for keys in `K`, and the size of a key's modulus in bytes. -/
structure KeyFormats (K : Type) where
  pkcs8 : Text → Except String K
  pkcs1 : Text → Except String K
  size : K → Nat

/-- `MIN_RSA_KEY_BYTES`. -/
def minRsaKeyBytes : Nat := 256

section Load

variable {K : Type} (F : KeyFormats K)

/-- The common part of the two loaders: PKCS#8 first, then PKCS#1, and the size. -/
def parseKey (what : String) (pem : Text) : Except String K :=
  match (F.pkcs8 pem).orElseLazy fun _ => F.pkcs1 pem with
  | .error e => .error ("parse " ++ what ++ ": " ++ e)
  | .ok key =>
    if F.size key < minRsaKeyBytes then
      .error (what ++ s!" too small: {F.size key * 8} bits (minimum {minRsaKeyBytes * 8} bits)")
    else
      .ok key

/-- `load_public_key_pem`. -/
def loadPublicKeyPem (f : SecretFile) : Except String K := do
  let pem ← f.contents.mapError ("read pubkey: " ++ ·)
  parseKey F "pubkey" pem

/-- `load_private_key_pem`. -/
def loadPrivateKeyPem (f : SecretFile) : Except String K := do
  checkSecretFileMode f
  let pem ← f.contents.mapError ("read privkey: " ++ ·)
  parseKey F "privkey" pem

/-- The text holds the key, in the one format or else in the other. -/
def KeyText (pem : Text) (key : K) : Prop :=
  F.pkcs8 pem = .ok key ∨ (∃ e, F.pkcs8 pem = .error e) ∧ F.pkcs1 pem = .ok key

variable {F}

theorem parseKey_ok_iff (what : String) (pem : Text) (key : K) :
    parseKey F what pem = .ok key ↔ KeyText F pem key ∧ minRsaKeyBytes ≤ F.size key := by
  have hsized : ∀ k, (if F.size k < minRsaKeyBytes then
      .error (what ++ s!" too small: {F.size k * 8} bits (minimum {minRsaKeyBytes * 8} bits)")
      else .ok k : Except String K) = .ok key ↔ k = key ∧ minRsaKeyBytes ≤ F.size key := by
    intro k
    split
    · rename_i hsmall
      refine ⟨fun h => (by cases h), ?_⟩
      rintro ⟨rfl, hbig⟩
      exact absurd hsmall (Nat.not_lt.mpr hbig)
    · rename_i hbig
      rw [Except.ok.injEq]
      refine ⟨?_, fun h => h.1⟩
      rintro rfl
      exact ⟨rfl, Nat.not_lt.mp hbig⟩
  unfold parseKey KeyText
  cases h8 : F.pkcs8 pem with
  | ok k =>
    simp only [Except.orElseLazy]
    rw [hsized k]
    simp
  | error e =>
    cases h1 : F.pkcs1 pem with
    | ok k =>
      simp only [Except.orElseLazy]
      rw [hsized k]
      simp
    | error e' => simp [Except.orElseLazy]

/-- A private key loads iff its file is private, holds it, and it is long enough. -/
theorem loadPrivateKeyPem_ok_iff (f : SecretFile) (key : K) :
    loadPrivateKeyPem F f = .ok key ↔
      f.Private ∧ ∃ pem, f.contents = .ok pem ∧ KeyText F pem key ∧
        minRsaKeyBytes ≤ F.size key := by
  unfold loadPrivateKeyPem
  rw [bind_eq_ok, ← checkSecretFileMode_ok_iff]
  constructor
  · rintro ⟨⟨⟩, hmode, h⟩
    obtain ⟨pem, hread, hparse⟩ := bind_eq_ok.mp h
    exact ⟨hmode, pem, (mapError_eq_ok _).mp hread, (parseKey_ok_iff _ _ _).mp hparse⟩
  · rintro ⟨hmode, pem, hread, hkey⟩
    exact ⟨(), hmode, bind_eq_ok.mpr
      ⟨pem, (mapError_eq_ok _).mpr hread, (parseKey_ok_iff _ _ _).mpr hkey⟩⟩

end Load

/-! ## The client's token -/

/-- What `send_options` reads of the configuration to authenticate: the file at the path of the
    public key, the name, and the password if it was given. -/
structure Credentials where
  rsaPublicKey : Option SecretFile
  username : Option Text
  password : Option Text

/-- The password given, or what the prompt returned, or nothing. -/
def Credentials.secret (cred : Credentials) (prompt : Except String Text) : Text :=
  cred.password.getD (prompt.toOption.getD [])

/-- The token part of `send_options`, at wall-clock reading `wall` and with the randomness of the
    padding. -/
def attachToken {P K : Type} (C : TokenCrypto P K) (F : KeyFormats P) (cred : Credentials)
    (prompt : Except String Text) (wall : Int) (seed : Bytes) : Option String :=
  match cred.rsaPublicKey, cred.username with
  | some file, some user =>
    match loadPublicKeyPem F file with
    | .ok pubkey => (buildAuthtoken C pubkey wall seed user (cred.secret prompt)).toOption
    | .error _ => none
  | _, _ => none

/-- A token is attached only by a client that has a name and a key, and was built with them. -/
theorem attachToken_eq_some {P K : Type} {C : TokenCrypto P K} {F : KeyFormats P}
    {cred : Credentials} {prompt : Except String Text} {wall : Int} {seed : Bytes} {token : String}
    (h : attachToken C F cred prompt wall seed = some token) :
    ∃ file user pubkey, cred.rsaPublicKey = some file ∧ cred.username = some user ∧
      loadPublicKeyPem F file = .ok pubkey ∧
      buildAuthtoken C pubkey wall seed user (cred.secret prompt) = .ok token := by
  unfold attachToken at h
  split at h
  · rename_i file user hfile huser
    split at h
    · rename_i pubkey hload
      exact ⟨file, user, pubkey, hfile, huser, hload, toOption_eq_some.mp h⟩
    · cases h
  · cases h

end Rperf3
