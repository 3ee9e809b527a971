/-
  LOGINS: `check_auth_inner` from the files and the token to the verdict, over whole runs.

  A login is one call of `check_auth_inner`: the two files as it finds them, the options received,
  the clocks.  Logins follow one another on one replay cache.

  1. `recorded` — the ciphertexts that a run has put on record; the cache holds what of it is less
     than twenty seconds old (`tracks_cacheAfter`).  A token is put on record BEFORE the user file
     is compared: a login with a wrong password uses its token up.
  2. `login_accepted_iff` — when a login succeeds, in terms of the files' texts, the decrypted
     payload, the clock and the record.
  3. `honest_login_accepted` — so the token that `send_options` attaches is accepted, once.
-/
import Rperf3.Client.Streams
import Rperf3.Common.AuthKeys
import Rperf3.Server.Replay

namespace Rperf3

/-! ## Runs of attempts -/

section Record

variable {K D : Type} [DecidableEq D]

/-- The ciphertexts that a run puts on record, with the instants. -/
def recorded (C : Crypto K D) : List (Attempt K) → NonceCache D → List (Bytes × Nat)
  | [], _ => []
  | a :: as, cache =>
    ((recordedToken C a cache).map fun c => (c, a.now)).toList ++
      recorded C as (checkAuthInner C a cache).2

theorem cacheAfter_append (C : Crypto K D) (as bs : List (Attempt K)) (cache : NonceCache D) :
    cacheAfter C (as ++ bs) cache = cacheAfter C bs (cacheAfter C as cache) :=
  List.foldl_append

theorem recorded_append (C : Crypto K D) (as bs : List (Attempt K)) (cache : NonceCache D) :
    recorded C (as ++ bs) cache = recorded C as cache ++ recorded C bs (cacheAfter C as cache) := by
  induction as generalizing cache with
  | nil => rfl
  | cons a as ih =>
    simp only [List.cons_append, recorded, ih, List.append_assoc]
    rfl

/-- Only what is on record matters, not in which order. -/
theorem NonceCache.Tracks.of_mem {c : NonceCache D} {hist hist' : List (D × Nat)} {now : Nat}
    (h : c.Tracks hist now) (hmem : ∀ e, e ∈ hist' ↔ e ∈ hist) : c.Tracks hist' now := by
  intro d dl hdl
  rw [h d dl hdl]
  simp only [hmem]

/-- **The record of a run**: at the end of it the cache tracks what was on record before and what
    the run has put on record. -/
theorem tracks_cacheAfter (C : Crypto K D) (as : List (Attempt K)) :
    ∀ {cache : NonceCache D} {hist : List (Bytes × Nat)} {t now : Nat},
      cache.Tracks (digests C hist) t → (∀ a ∈ as, t ≤ a.now) → Monotone as →
      (∀ a ∈ as, a.now ≤ now) → t ≤ now →
      (cacheAfter C as cache).Tracks (digests C (recorded C as cache ++ hist)) now ∧
        (cacheAfter C as cache).ttl = cache.ttl := by
  induction as with
  | nil =>
    intro cache hist t now h _ _ _ hle
    exact ⟨h.mono hle, rfl⟩
  | cons a as ih =>
    intro cache hist t now h hfrom hmono hto hle
    obtain ⟨hhead, htail⟩ := List.pairwise_cons.mp hmono
    have hnow : cache.Tracks (digests C hist) a.now := h.mono (hfrom a List.mem_cons_self)
    have hto' : ∀ b ∈ as, b.now ≤ now := fun b hb => hto b (List.mem_cons_of_mem a hb)
    have ha : a.now ≤ now := hto a List.mem_cons_self
    rcases attempt_cases hnow with ⟨hnone, htracks, -⟩ | ⟨c, -, hsome, htracks, -⟩
    · obtain ⟨hrest, httl⟩ := ih htracks hhead htail hto' ha
      refine ⟨hrest.of_mem fun e => ?_, httl.trans (checkAuthInner_ttl C a cache)⟩
      simp only [recorded, hnone, Option.map_none, Option.toList_none, List.nil_append]
    · obtain ⟨hrest, httl⟩ := ih htracks hhead htail hto' ha
      refine ⟨hrest.of_mem fun e => ?_, httl.trans (checkAuthInner_ttl C a cache)⟩
      simp only [recorded, hsome, Option.map_some, Option.toList_some]
      exact (List.perm_middle.map _).symm.mem_iff

end Record

/-! ## Logins -/

/-- One call of `check_auth_inner`: the files at the two configured paths as it finds them, the
    options received, and the clocks. -/
structure Login where
  keyFile : SecretFile
  usersFile : SecretFile
  opts : ClientOptions
  wall : Int
  now : Nat

section Verdict

variable {K D : Type}

/-- What the call makes of its files. -/
def Login.attempt (F : KeyFormats K) (l : Login) : Attempt K :=
  ⟨loadPrivateKeyPem F l.keyFile, loadAuthorizedUsers l.usersFile, l.opts, l.wall, l.now⟩

/-- The logins, listed as they take the cache, have read the clock in that order.  The code does not
    see to it: `check_and_record` reads the clock before it waits for the lock, so of two logins at
    a time the later reading may come first. -/
def LoginOrder (ls : List Login) : Prop := ls.Pairwise fun l l' => l.now ≤ l'.now

theorem LoginOrder.monotone {ls : List Login} (h : LoginOrder ls) (F : KeyFormats K) :
    Monotone (ls.map (Login.attempt F)) :=
  List.pairwise_map.mpr h

variable [DecidableEq D]

/-- The verdict on a login after the `earlier` ones of the process. -/
def loginAfter (C : Crypto K D) (F : KeyFormats K) (earlier : List Login) (l : Login) :
    Except String Unit :=
  (checkAuthInner C (l.attempt F) (cacheAfter C (earlier.map (Login.attempt F)) .new)).1

/-- The ciphertexts that the logins of a process have put on record. -/
def onRecord (C : Crypto K D) (F : KeyFormats K) (ls : List Login) : List (Bytes × Nat) :=
  recorded C (ls.map (Login.attempt F)) .new

/-- No ciphertext of this digest has been put on record in the last twenty seconds. -/
def Unused (C : Crypto K D) (record : List (Bytes × Nat)) (ciphertext : Bytes) (now : Nat) : Prop :=
  ∀ c t, (c, t) ∈ record → C.sha256 c = C.sha256 ciphertext →
    t + fromSecs (timestampSkewSecs * 2) ≤ now

/-- Why a login is accepted. -/
structure Login.Grounds (C : Crypto K D) (F : KeyFormats K) (record : List (Bytes × Nat))
    (l : Login) (key : K) (ciphertext : Bytes) (claim : AuthClaim) : Prop where
  key_private : l.keyFile.Private
  key_text : ∃ pem, l.keyFile.contents = .ok pem ∧ KeyText F pem key
  key_size : minRsaKeyBytes ≤ F.size key
  token : ∃ token, l.opts.authtoken = some token ∧ C.base64Decode token = .ok ciphertext
  payload : ∃ s, C.decrypt key ciphertext = .ok (asBytes s) ∧ ClaimText s claim
  clock : ∃ secs, unixSecs l.wall = .ok secs ∧ claim.timestamp ≤ secs + timestampSkewSecs ∧
    secs ≤ claim.timestamp + timestampSkewSecs
  unused : Unused C record ciphertext l.now
  users_load : ∃ users, loadAuthorizedUsers l.usersFile = .ok users
  listed : ∃ contents, l.usersFile.contents = .ok contents ∧ ∃ raw ∈ lines contents,
    UserLine raw (toAsciiLowercase claim.username) (toAsciiLowercase claim.passwordSha256Hex)

omit [DecidableEq D] in
theorem decodeAuthtokenBytes_ok_iff (C : Crypto K D) (key : K) (ciphertext : Bytes)
    (claim : AuthClaim) :
    decodeAuthtokenBytes C key ciphertext = .ok claim ↔
      ∃ s, C.decrypt key ciphertext = .ok (asBytes s) ∧ ClaimText s claim := by
  constructor
  · intro h
    unfold decodeAuthtokenBytes at h
    split at h
    · cases h
    · rename_i plain hplain
      split at h
      · cases h
      · rename_i s hs
        refine ⟨s, ?_, text_of_parseClaim h⟩
        rw [asBytes_of_fromUtf8 hs]
        exact hplain
  · rintro ⟨s, hplain, htext⟩
    rw [decodeAuthtokenBytes_of_decrypt hplain]
    exact parseClaim_of_text htext

omit [DecidableEq D] in
/-- A login presents a token iff everything before the cache is in order. -/
theorem presentedToken_ok_iff (C : Crypto K D) (a : Attempt K) (ciphertext : Bytes)
    (claim : AuthClaim) (users : Table Text Text) :
    presentedToken C a = .ok (ciphertext, claim, users) ↔
      ∃ key token, a.keyFile = .ok key ∧ a.usersFile = .ok users ∧
        a.opts.authtoken = some token ∧ C.base64Decode token = .ok ciphertext ∧
        decodeAuthtokenBytes C key ciphertext = .ok claim ∧
        validateTimestamp a.wall claim timestampSkewSecs = .ok () := by
  constructor
  · intro h
    obtain ⟨key, hkey, h⟩ := bind_eq_ok.mp h
    obtain ⟨users', husers, h⟩ := bind_eq_ok.mp h
    obtain ⟨token, htoken, h⟩ := bind_eq_ok.mp h
    obtain ⟨c, hbase, h⟩ := bind_eq_ok.mp h
    obtain ⟨claim', hdecode, h⟩ := bind_eq_ok.mp h
    obtain ⟨u, hclock, h⟩ := bind_eq_ok.mp h
    cases h
    have hsome : a.opts.authtoken = some token := by
      cases ht : a.opts.authtoken with
      | none =>
        rw [ht] at htoken
        cases htoken
      | some t =>
        rw [ht] at htoken
        exact congrArg some (Except.ok.inj htoken)
    exact ⟨key, token, hkey, husers, hsome, (mapError_eq_ok _).mp hbase, hdecode, hclock⟩
  · rintro ⟨key, token, hkey, husers, htoken, hbase, hdecode, hclock⟩
    unfold presentedToken
    rw [hkey, husers, htoken]
    exact bind_eq_ok.mpr ⟨key, rfl, bind_eq_ok.mpr ⟨users, rfl, bind_eq_ok.mpr ⟨token, rfl,
      bind_eq_ok.mpr ⟨ciphertext, (mapError_eq_ok _).mpr hbase, bind_eq_ok.mpr ⟨claim, hdecode,
        bind_eq_ok.mpr ⟨(), hclock, rfl⟩⟩⟩⟩⟩⟩

/-- A login succeeds iff its token is presented, is not on record, and its user is listed. -/
theorem checkAuthInner_ok_iff (C : Crypto K D) (a : Attempt K) (cache : NonceCache D) :
    (checkAuthInner C a cache).1 = .ok () ↔
      ∃ ciphertext claim users, presentedToken C a = .ok (ciphertext, claim, users) ∧
        (cache.checkAndRecord (C.sha256 ciphertext) a.now).1 = .ok () ∧
        authorize claim users = .ok () := by
  unfold checkAuthInner
  cases hp : presentedToken C a with
  | error e =>
    refine ⟨fun h => (by cases h), ?_⟩
    rintro ⟨ciphertext, claim, users, h, -⟩
    cases h
  | ok r =>
    obtain ⟨ciphertext, claim, users⟩ := r
    dsimp only
    split
    · rename_i e cache' hrec
      refine ⟨fun h => (by cases h), ?_⟩
      rintro ⟨ciphertext', claim', users', h, hok, -⟩
      cases h
      rw [hrec] at hok
      cases hok
    · rename_i cache' hrec
      constructor
      · intro h
        exact ⟨ciphertext, claim, users, rfl, by rw [hrec], h⟩
      · rintro ⟨ciphertext', claim', users', h, -, hauth⟩
        cases h
        exact hauth

/-- The cache after some logins, as the next one finds it. -/
theorem tracks_earlier (C : Crypto K D) (F : KeyFormats K) {earlier : List Login} {l : Login}
    (h : LoginOrder (earlier ++ [l])) :
    (cacheAfter C (earlier.map (Login.attempt F)) .new).Tracks
        (digests C (onRecord C F earlier)) l.now ∧
      (cacheAfter C (earlier.map (Login.attempt F)) .new).ttl =
        fromSecs (timestampSkewSecs * 2) := by
  obtain ⟨hearlier, -, hlast⟩ := List.pairwise_append.mp h
  have hnew : (NonceCache.new : NonceCache D).Tracks (digests C []) 0 :=
    NonceCache.tracks_withTtl _ 0
  have hto : ∀ a ∈ earlier.map (Login.attempt F), a.now ≤ l.now := by
    intro a ha
    obtain ⟨e, he, rfl⟩ := List.mem_map.mp ha
    exact hlast e he l List.mem_cons_self
  obtain ⟨htracks, httl⟩ := tracks_cacheAfter C (earlier.map (Login.attempt F)) hnew
    (fun _ _ => Nat.zero_le _) (LoginOrder.monotone hearlier F) hto (Nat.zero_le _)
  rw [List.append_nil] at htracks
  exact ⟨htracks, httl⟩

theorem checkAndRecord_earlier_iff (C : Crypto K D) (F : KeyFormats K) {earlier : List Login}
    {l : Login} (h : LoginOrder (earlier ++ [l])) (ciphertext : Bytes) :
    ((cacheAfter C (earlier.map (Login.attempt F)) .new).checkAndRecord
        (C.sha256 ciphertext) l.now).1 = .ok () ↔
      Unused C (onRecord C F earlier) ciphertext l.now := by
  obtain ⟨htracks, httl⟩ := tracks_earlier C F h
  rw [NonceCache.checkAndRecord_ok_iff htracks, httl]
  constructor
  · intro hall c t hmem hsha
    exact hall t (mem_digests.mpr ⟨c, hmem, hsha⟩)
  · intro hunused t hmem
    obtain ⟨c, hc, hsha⟩ := mem_digests.mp hmem
    exact hunused c t hc hsha

theorem Login.grounds_of_accepted {C : Crypto K D} {F : KeyFormats K} {earlier : List Login}
    {l : Login} (h : LoginOrder (earlier ++ [l])) (haccepted : loginAfter C F earlier l = .ok ()) :
    ∃ key ciphertext claim, l.Grounds C F (onRecord C F earlier) key ciphertext claim := by
  obtain ⟨ciphertext, claim, users, hpresents, hfresh, hauth⟩ :=
    (checkAuthInner_ok_iff C _ _).mp haccepted
  obtain ⟨key, token, hkey, husers, htoken, hbase, hdecode, hclock⟩ :=
    (presentedToken_ok_iff C _ _ _ _).mp hpresents
  obtain ⟨hprivate, pem, hpem, htext, hsize⟩ := (loadPrivateKeyPem_ok_iff l.keyFile key).mp hkey
  obtain ⟨-, contents, hread, hgather⟩ := (loadAuthorizedUsers_ok_iff _ _).mp husers
  refine ⟨key, ciphertext, claim, hprivate, ⟨pem, hpem, htext⟩, hsize, ⟨token, htoken, hbase⟩,
    (decodeAuthtokenBytes_ok_iff C _ _ _).mp hdecode, validateTimestamp_ok_iff.mp hclock,
    (checkAndRecord_earlier_iff C F h _).mp hfresh, ⟨users, husers⟩, contents, hread, ?_⟩
  exact (lookup_loaded hgather _ _).mp ((authorize_ok_iff _ _).mp hauth)

theorem Login.Grounds.accepted {C : Crypto K D} {F : KeyFormats K} {earlier : List Login}
    {l : Login} {key : K} {ciphertext : Bytes} {claim : AuthClaim}
    (g : l.Grounds C F (onRecord C F earlier) key ciphertext claim)
    (h : LoginOrder (earlier ++ [l])) : loginAfter C F earlier l = .ok () := by
  obtain ⟨pem, hpem, htext⟩ := g.key_text
  obtain ⟨token, htoken, hbase⟩ := g.token
  obtain ⟨users, husers⟩ := g.users_load
  obtain ⟨contents, hread, hline⟩ := g.listed
  obtain ⟨-, contents', hread', hgather⟩ := (loadAuthorizedUsers_ok_iff _ _).mp husers
  obtain rfl : contents' = contents := Except.ok.inj (hread'.symm.trans hread)
  refine (checkAuthInner_ok_iff C _ _).mpr ⟨ciphertext, claim, users, ?_,
    (checkAndRecord_earlier_iff C F h _).mpr g.unused,
    (authorize_ok_iff _ _).mpr ((lookup_loaded hgather _ _).mpr hline)⟩
  exact (presentedToken_ok_iff C _ _ _ _).mpr ⟨key, token,
    (loadPrivateKeyPem_ok_iff _ _).mpr ⟨g.key_private, pem, hpem, htext, g.key_size⟩, husers,
    htoken, hbase, (decodeAuthtokenBytes_ok_iff C _ _ _).mpr g.payload,
    validateTimestamp_ok_iff.mpr g.clock⟩

/-- **When a login succeeds.**  After any earlier logins of the process, and with the clock readings
    of all of them in order, `check_auth_inner` accepts iff the key file is private and holds a key
    of at least 2048 bits, the user file loads, the token decodes and decrypts to a well-formed
    claim stamped within ten seconds of the server's clock, no token of that digest has been put on
    record in the last twenty seconds, and a line of the user file names the claim's user with the
    claim's hash. -/
theorem login_accepted_iff (C : Crypto K D) (F : KeyFormats K) (earlier : List Login) (l : Login)
    (h : LoginOrder (earlier ++ [l])) :
    loginAfter C F earlier l = .ok () ↔
      ∃ key ciphertext claim, l.Grounds C F (onRecord C F earlier) key ciphertext claim :=
  ⟨Login.grounds_of_accepted h, fun ⟨_, _, _, g⟩ => g.accepted h⟩

end Verdict

/-! ## An honest client -/

section Honest

variable {P K : Type}

/-- The key pair and the other crates do what they are for. -/
structure LawfulTokens (C : TokenCrypto P K) (pubkey : P) (privkey : K) : Prop where
  rsa : ∀ seed plain c, C.encrypt pubkey seed plain = .ok c → C.decrypt privkey c = .ok plain
  base64 : ∀ bs, C.base64Decode (C.base64Encode bs) = .ok bs
  sha256 : ∀ bs, (C.sha256 bs).length = 32

theorem toLower_digitChar : ∀ d < 16, (Nat.digitChar d).toLower = Nat.digitChar d := by
  decide

/-- `sha256_hex` writes lower case. -/
theorem toAsciiLowercase_hexLower (digest : Bytes) :
    toAsciiLowercase (hexLower digest) = hexLower digest := by
  unfold toAsciiLowercase hexLower
  refine (List.map_congr_left fun c hc => ?_).trans (List.map_id _)
  obtain ⟨b, -, hb⟩ := List.mem_flatMap.mp hc
  have hlt : b.toNat < 256 := UInt8.toNat_lt b
  rcases List.mem_pair.mp hb with rfl | rfl
  · exact toLower_digitChar _ (by omega)
  · exact toLower_digitChar _ (by omega)

/-- What an accepted login puts on record. -/
theorem mem_onRecord_of_accepted {D : Type} [DecidableEq D] {C : Crypto K D} {F : KeyFormats K}
    {earlier : List Login} {l : Login} {token : String} {ciphertext : Bytes}
    (htoken : l.opts.authtoken = some token) (hbase : C.base64Decode token = .ok ciphertext)
    (h : loginAfter C F earlier l = .ok ()) (between : List Login) :
    (ciphertext, l.now) ∈ onRecord C F (earlier ++ l :: between) := by
  obtain ⟨c, claim, users, hpresents, hfresh, -⟩ := (checkAuthInner_ok_iff C _ _).mp h
  obtain ⟨key, token', -, -, htoken', hbase', -⟩ := (presentedToken_ok_iff C _ _ _ _).mp hpresents
  obtain rfl : token = token' := Option.some.inj (htoken.symm.trans htoken')
  obtain rfl : ciphertext = c := Except.ok.inj (hbase.symm.trans hbase')
  have hrecorded : recordedToken C (l.attempt F)
      (cacheAfter C (earlier.map (Login.attempt F)) .new) = some ciphertext := by
    rw [recordedToken, hpresents]
    dsimp only
    rw [hfresh]
  rw [onRecord, List.map_append, List.map_cons, recorded_append, recorded, hrecorded]
  exact List.mem_append_right _ (List.mem_append_left _ List.mem_cons_self)

/-- **An honest client is let in, once.**  With the clock readings of all logins in order: a client
    whose `send_options` attached a token, a server whose files hold the other half of the key pair
    and the client's name with the hash of its password, and clocks at most ten seconds apart: the
    login is accepted unless a token of its digest went on record less than twenty seconds before;
    and once it is accepted, no later login with the same token is within the next twenty seconds,
    whatever else happens in between. -/
theorem honest_login_accepted (C : TokenCrypto P K) (FP : KeyFormats P) (FK : KeyFormats K)
    {pubkey : P} {privkey : K} (hC : LawfulTokens C pubkey privkey) {cfg : Config}
    {cred : Credentials} {prompt : Except String Text} {wall : Int} {seed : Bytes} {token : String}
    (htoken : attachToken C FP cred prompt wall seed = some token)
    (hpub : ∀ file, cred.rsaPublicKey = some file → loadPublicKeyPem FP file = .ok pubkey)
    (earlier : List Login) (l : Login) (horder : LoginOrder (earlier ++ [l]))
    (hopts : l.opts = sendOptions cfg (some token))
    (hpriv : loadPrivateKeyPem FK l.keyFile = .ok privkey)
    (husers : ∃ users, loadAuthorizedUsers l.usersFile = .ok users)
    (hlisted : ∃ contents user, l.usersFile.contents = .ok contents ∧ cred.username = some user ∧
      ∃ raw ∈ lines contents,
        UserLine raw (toAsciiLowercase user) (sha256Hex C (cred.secret prompt)))
    (hclock : ∃ sent got, unixSecs wall = .ok sent ∧ unixSecs l.wall = .ok got ∧ sent < 2 ^ 64 ∧
      sent ≤ got + timestampSkewSecs ∧ got ≤ sent + timestampSkewSecs) :
    ∃ ciphertext, C.base64Decode token = .ok ciphertext ∧
      (loginAfter C.toCrypto FK earlier l = .ok () ↔
        Unused C.toCrypto (onRecord C.toCrypto FK earlier) ciphertext l.now) ∧
      (loginAfter C.toCrypto FK earlier l = .ok () → ∀ between l',
        LoginOrder (earlier ++ l :: between ++ [l']) → l'.opts.authtoken = some token →
        l'.now < l.now + fromSecs (timestampSkewSecs * 2) →
        loginAfter C.toCrypto FK (earlier ++ l :: between) l' ≠ .ok ()) := by
  obtain ⟨file, user, pubkey', hfile, huser, hload, hbuild⟩ := attachToken_eq_some htoken
  obtain rfl : pubkey' = pubkey := Except.ok.inj (hload.symm.trans (hpub file hfile))
  obtain ⟨hvalid, -, sent, ciphertext, hsent, henc, rfl⟩ := buildAuthtoken_ok hbuild
  have hauthtoken : l.opts.authtoken = some (C.base64Encode ciphertext) := by
    rw [hopts]
    rfl
  have hbase := hC.base64 ciphertext
  refine ⟨ciphertext, hbase, ?_, ?_⟩
  · constructor
    · intro haccepted
      obtain ⟨key, c, claim, g⟩ := Login.grounds_of_accepted horder haccepted
      obtain ⟨token, htoken', hbase'⟩ := g.token
      obtain rfl := Option.some.inj (hauthtoken.symm.trans htoken')
      obtain rfl : ciphertext = c := Except.ok.inj (hbase.symm.trans hbase')
      exact g.unused
    · intro hunused
      obtain ⟨hprivate, pem, hpem, htext, hsize⟩ := (loadPrivateKeyPem_ok_iff _ _).mp hpriv
      obtain ⟨contents, user', hread, huser', hline⟩ := hlisted
      obtain rfl : user' = user := Option.some.inj (huser'.symm.trans huser)
      obtain ⟨sent', got, hsent', hgot, hlt, hlo, hhi⟩ := hclock
      obtain rfl : sent' = sent := Except.ok.inj (hsent'.symm.trans hsent)
      have hclaim := claimText_payload hlt hvalid
        (validHash_sha256Hex hC.sha256 (cred.secret prompt))
      have hlower : toAsciiLowercase (sha256Hex C (cred.secret prompt)) =
          sha256Hex C (cred.secret prompt) := toAsciiLowercase_hexLower _
      have g : l.Grounds C.toCrypto FK (onRecord C.toCrypto FK earlier) privkey ciphertext
          ⟨sent', user', sha256Hex C (cred.secret prompt)⟩ :=
        ⟨hprivate, ⟨pem, hpem, htext⟩, hsize, ⟨_, hauthtoken, hbase⟩,
          ⟨_, hC.rsa _ _ _ henc, hclaim⟩, ⟨got, hgot, hlo, hhi⟩, hunused, husers, contents, hread,
          hlower.symm ▸ hline⟩
      exact g.accepted horder
  · intro haccepted between l' horder' htoken' hsoon hagain
    obtain ⟨key, c, claim, g⟩ := Login.grounds_of_accepted horder' hagain
    obtain ⟨token, htoken'', hbase'⟩ := g.token
    obtain rfl := Option.some.inj (htoken'.symm.trans htoken'')
    obtain rfl : ciphertext = c := Except.ok.inj (hbase.symm.trans hbase')
    have hmem := mem_onRecord_of_accepted hauthtoken hbase haccepted between
    exact absurd (g.unused _ _ hmem rfl) (Nat.not_le.mpr hsoon)

end Honest

/-! ## Alice logs in -/

/-- A cipher that sends the plaintext, one character for each byte. -/
def latinCrypto : TokenCrypto Unit Unit :=
  { plainCrypto with base64Decode := fun token => .ok (token.toList.map fun c => .ofNat c.toNat) }

theorem toNat_ofNat_of_lt : ∀ n < 256, (Char.ofNat n).toNat = n := by
  decide +kernel

theorem latinCrypto_lawful : LawfulTokens latinCrypto () () := by
  refine ⟨fun _ _ _ h => h.symm, fun bs => ?_, fun bs => ?_⟩
  · show Except.ok ((String.ofList (bs.map fun b => Char.ofNat b.toNat)).toList.map
      fun c => UInt8.ofNat c.toNat) = .ok bs
    rw [String.toList_ofList, List.map_map]
    refine congrArg Except.ok ((List.map_congr_left fun b _ => ?_).trans (List.map_id bs))
    have hlt : b.toNat < 256 := UInt8.toNat_lt b
    have hchar : (Char.ofNat b.toNat).toNat = b.toNat := toNat_ofNat_of_lt _ hlt
    show UInt8.ofNat (Char.ofNat b.toNat).toNat = b
    rw [hchar, UInt8.ofNat_toNat]
  · show ((bs ++ List.replicate 32 0).take 32).length = 32
    rw [List.length_take, List.length_append, List.length_replicate]
    omega

/-- A format in which every text is the one key. -/
def anyText : KeyFormats Unit := ⟨fun _ => .ok (), fun _ => .ok (), fun _ => 256⟩

def aliceCredentials : Credentials where
  rsaPublicKey := some ⟨"pub.pem", .ok 0o100644, .ok []⟩
  username := some ['A', 'l']
  password := some ['p', 'w']

/-- The token stamped with second 100. -/
def aliceToken : Option String :=
  attachToken latinCrypto anyText aliceCredentials (.ok []) (fromSecs 100) []

/-- The line that names Alice. -/
def aliceLine : Text := ['a', 'l', ','] ++ sha256Hex latinCrypto ['p', 'w']

def aliceUsers : SecretFile := ⟨"users", .ok 0o100600, .ok aliceLine⟩

/-- A login at second `s` with this token. -/
def aliceLogin (token : String) (s : Nat) : Login where
  keyFile := ⟨"key.pem", .ok 0o100600, .ok []⟩
  usersFile := aliceUsers
  opts := sendOptions (.withHost "server") (some token)
  wall := fromSecs s
  now := fromSecs s

/-- The users file loads and names Alice. -/
theorem aliceUsers_listed :
    (∃ users, loadAuthorizedUsers aliceUsers = .ok users) ∧
      ∃ raw ∈ lines aliceLine, UserLine raw ['a', 'l'] (sha256Hex latinCrypto ['p', 'w']) := by
  constructor
  · have hload : (loadAuthorizedUsers aliceUsers).toOption.isSome := by
      decide +kernel
    obtain ⟨users, husers⟩ := Option.isSome_iff_exists.mp hload
    exact ⟨users, toOption_eq_some.mp husers⟩
  · refine ⟨aliceLine, by decide +kernel, by decide +kernel, by decide +kernel, ['a', 'l'],
      sha256Hex latinCrypto ['p', 'w'], ?_⟩
    decide +kernel

/-- A token stamped with second `s`. -/
def tokenAt (s : Nat) : String :=
  (attachToken latinCrypto anyText aliceCredentials (.ok []) (fromSecs s) []).getD ""

/-- Alice has logged in at second 105: another token of hers has the grounds to be accepted at
    second 110, the one on record has not. -/
theorem login_accepted_iff_onRecord :
    (onRecord latinCrypto.toCrypto anyText [aliceLogin (tokenAt 100) 105]).length = 1 ∧
    (∃ key ciphertext claim, (aliceLogin (tokenAt 103) 110).Grounds latinCrypto.toCrypto anyText
      (onRecord latinCrypto.toCrypto anyText [aliceLogin (tokenAt 100) 105]) key ciphertext claim) ∧
    ¬ ∃ key ciphertext claim, (aliceLogin (tokenAt 100) 110).Grounds latinCrypto.toCrypto anyText
      (onRecord latinCrypto.toCrypto anyText [aliceLogin (tokenAt 100) 105]) key ciphertext
      claim := by
  have hle : fromSecs 105 ≤ fromSecs 110 := by decide
  have horder (token : String) :
      LoginOrder ([aliceLogin (tokenAt 100) 105] ++ [aliceLogin token 110]) :=
    List.pairwise_pair.mpr hle
  refine ⟨by decide +kernel, ?_, ?_⟩
  · refine (login_accepted_iff latinCrypto.toCrypto anyText _ _ (horder _)).mp ?_
    have hsome : (loginAfter latinCrypto.toCrypto anyText [aliceLogin (tokenAt 100) 105]
        (aliceLogin (tokenAt 103) 110)).toOption.isSome := by decide +kernel
    obtain ⟨u, hu⟩ := Option.isSome_iff_exists.mp hsome
    exact toOption_eq_some.mp hu
  · rw [← login_accepted_iff latinCrypto.toCrypto anyText _ _ (horder _)]
    intro haccepted
    have hnone : (loginAfter latinCrypto.toCrypto anyText [aliceLogin (tokenAt 100) 105]
        (aliceLogin (tokenAt 100) 110)).toOption = none := by decide +kernel
    rw [haccepted] at hnone
    cases hnone

/-- Alice is accepted at second 105, and her token is refused at second 110. -/
theorem honest_login_accepted_alice :
    ∃ token, aliceToken = some token ∧
      loginAfter latinCrypto.toCrypto anyText [] (aliceLogin token 105) = .ok () ∧
      loginAfter latinCrypto.toCrypto anyText [aliceLogin token 105] (aliceLogin token 110)
        ≠ .ok () := by
  obtain ⟨token, htoken⟩ : ∃ token, aliceToken = some token :=
    Option.isSome_iff_exists.mp (by decide +kernel)
  obtain ⟨husers, hline⟩ := aliceUsers_listed
  have hpub : ∀ file, aliceCredentials.rsaPublicKey = some file →
      loadPublicKeyPem anyText file = .ok () := by
    rintro _ ⟨⟩
    rfl
  have hsent : unixSecs (fromSecs 100) = .ok 100 := by decide +kernel
  have hgot : unixSecs (fromSecs 105) = .ok 105 := by decide +kernel
  obtain ⟨ciphertext, -, hiff, hagain⟩ := honest_login_accepted latinCrypto anyText anyText
    latinCrypto_lawful htoken hpub [] (aliceLogin token 105) (List.pairwise_singleton _ _) rfl rfl
    husers ⟨aliceLine, ['A', 'l'], rfl, rfl, hline⟩
    ⟨100, 105, hsent, hgot, by decide, by decide, by decide⟩
  have haccepted := hiff.mpr fun c t hmem => absurd hmem List.not_mem_nil
  refine ⟨token, htoken, haccepted, hagain haccepted [] (aliceLogin token 110) ?_ rfl ?_⟩
  · have hle : fromSecs 105 ≤ fromSecs 110 := by decide
    exact List.pairwise_pair.mpr hle
  · have hlt : fromSecs 110 < fromSecs 105 + fromSecs (timestampSkewSecs * 2) := by decide
    exact hlt

end Rperf3
