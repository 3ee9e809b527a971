/-
  THE USERS FILE: `load_authorized_users` and what `authorize` makes of it.

  1. `UserLine` — the lines that name a user and a hash, after trimming and lower-casing.
  2. `loadLines_eq` — the loader is a `Gather`ing of its lines: it refuses a malformed line and a
     second line for a user.  Line numbers appear in its errors only.
  3. `constantTimeEq_iff` — the accumulated XOR is zero iff the bytes are equal.
  4. `authorize_iff_user_line` — so a claim is let in iff a line of the file says so, and the order
     of the lines does not matter.
-/
import Mathlib.Data.List.DropRight
import Rperf3.Lib.Gather
import Rperf3.Common.AuthToken

namespace Rperf3

open Gather (gather)

/-! ## Reading the file -/

/-- `char::is_whitespace`: the Unicode property `White_Space`. -/
def isWhitespace (c : Char) : Bool :=
  let n := c.toNat
  (9 ≤ n && n ≤ 13) || n == 0x20 || n == 0x85 || n == 0xA0 || n == 0x1680 ||
    (0x2000 ≤ n && n ≤ 0x200A) || n == 0x2028 || n == 0x2029 || n == 0x202F || n == 0x205F ||
    n == 0x3000

/-- `str::trim`. -/
def trim (t : Text) : Text := (t.dropWhile isWhitespace).rdropWhile isWhitespace

/-- The carriage return of a `\r\n`, once the line feed is gone. -/
def stripCr (line : Text) : Text := if line.getLast? = some '\r' then line.dropLast else line

/-- `str::lines`, with the characters of the current line held back in `line`.  A last line need
    not end in a line feed, and then keeps a carriage return. -/
def linesFrom (line : Text) : Text → List Text
  | [] => if line.isEmpty then [] else [line]
  | c :: cs => if c = '\n' then stripCr line :: linesFrom [] cs else linesFrom (line ++ [c]) cs

def lines (contents : Text) : List Text := linesFrom [] contents

/-- A secret file as one call finds it: its mode bits and what reading it gives. -/
structure SecretFile where
  path : String
  metadata : Except String Nat
  contents : Except String Text

/-- `check_secret_file_mode` on Unix. -/
def checkSecretFileMode (f : SecretFile) : Except String Unit := do
  let mode ← f.metadata.mapError fun e => "stat " ++ f.path ++ ": " ++ e
  if mode &&& 0o077 ≠ 0 then
    .error (f.path ++ ": insecure permissions (mode 0o" ++
      String.ofList (Nat.toDigits 8 (mode &&& 0o777)) ++ "); chmod 0600 (or stricter) and retry")
  else
    .ok ()

/-- One line of the file, numbered from zero: nothing for a blank line or a comment, otherwise a
    user and a hash. -/
def readUserLine (lineno : Nat) (raw : Text) : Except String (Option (Text × Text)) :=
  let line := trim raw
  if line.isEmpty || line.head? == some '#' then .ok none
  else
    match splitn 2 ',' line with
    | user :: hash :: _ =>
      let hash := toAsciiLowercase (trim hash)
      if utf8Len hash ≠ 64 || !hash.all isAsciiHexdigit then
        .error (s!"bad line {lineno + 1}: hash must be 64 lowercase hex chars")
      else
        .ok (some (toAsciiLowercase (trim user), hash))
    | _ => .error (s!"bad line {lineno + 1}: " ++ String.ofList line)

/-- The loop of `load_authorized_users`. -/
def loadLines : Nat → List Text → Table Text Text → Except String (Table Text Text)
  | _, [], map => .ok map
  | lineno, raw :: rest, map =>
    match readUserLine lineno raw with
    | .error e => .error e
    | .ok none => loadLines (lineno + 1) rest map
    | .ok (some (user, hash)) =>
      if (map.lookup user).isSome then
        .error ("duplicate user '" ++ String.ofList user ++ s!"' on line {lineno + 1}")
      else
        loadLines (lineno + 1) rest (map.insert user hash)

/-- `load_authorized_users`. -/
def loadAuthorizedUsers (f : SecretFile) : Except String (Table Text Text) := do
  checkSecretFileMode f
  let contents ← f.contents.mapError ("read authz: " ++ ·)
  loadLines 0 (lines contents) ∅

/-! ## Lines that name a user -/

/-- The line names the user with the hash: it is neither blank nor a comment, and the fields
    before and after its first comma are these, trimmed and lower-cased. -/
def UserLine (raw user hash : Text) : Prop :=
  trim raw ≠ [] ∧ (trim raw).head? ≠ some '#' ∧
    ∃ a b, trim raw = a ++ ',' :: b ∧ ',' ∉ a ∧
      toAsciiLowercase (trim a) = user ∧ toAsciiLowercase (trim b) = hash

/-- What the loader makes of a line, without the line's number. -/
def lineItem (raw : Text) : Gather.Item Text Text :=
  match (readUserLine 0 raw).toOption with
  | none => .bad
  | some none => .skip
  | some (some (user, hash)) => .entry user hash

/-- `splitn(2, sep)` cuts at the first separator. -/
theorem splitn_two_iff {sep : Char} {s a b : Text} :
    splitn 2 sep s = [a, b] ↔ s = a ++ sep :: b ∧ sep ∉ a := by
  constructor
  · intro h
    by_cases hs : sep ∈ s
    · obtain ⟨a', b', rfl, ha⟩ := List.eq_append_cons_of_mem hs
      rw [splitn_append 0 ha] at h
      cases h
      exact ⟨rfl, ha⟩
    · rw [splitn_of_notMem 0 hs] at h
      cases h
  · rintro ⟨rfl, ha⟩
    rw [splitn_append 0 ha]
    rfl

/-- On a line that names a user only the form of the hash is left to check. -/
theorem readUserLine_of_userLine {raw user hash : Text} (h : UserLine raw user hash)
    (lineno : Nat) :
    readUserLine lineno raw =
      if utf8Len hash ≠ 64 || !hash.all isAsciiHexdigit then
        .error (s!"bad line {lineno + 1}: hash must be 64 lowercase hex chars")
      else
        .ok (some (user, hash)) := by
  obtain ⟨hne, hcomment, a, b, htrim, ha, rfl, rfl⟩ := h
  have hskip : ¬ ((trim raw).isEmpty || (trim raw).head? == some '#') = true := by
    intro hskip
    rcases (Bool.or_eq_true _ _).mp hskip with h | h
    · exact hne (List.isEmpty_iff.mp h)
    · exact hcomment (beq_iff_eq.mp h)
  unfold readUserLine
  dsimp only
  rw [if_neg hskip, splitn_two_iff.mpr ⟨htrim, ha⟩]

/-- A line is an entry iff it names a user with a hash of the right form. -/
theorem readUserLine_entry_iff (lineno : Nat) (raw user hash : Text) :
    readUserLine lineno raw = .ok (some (user, hash)) ↔
      UserLine raw user hash ∧ ValidHash hash := by
  constructor
  · intro h
    unfold readUserLine at h
    dsimp only at h
    split at h
    · cases h
    · rename_i hskip
      have hne : trim raw ≠ [] := fun h => hskip (by rw [h]; rfl)
      have hcomment : (trim raw).head? ≠ some '#' := fun h => hskip (by rw [h]; simp)
      by_cases hcomma : ',' ∈ trim raw
      · obtain ⟨a, b, htrim, ha⟩ := List.eq_append_cons_of_mem hcomma
        rw [splitn_two_iff.mpr ⟨htrim, ha⟩] at h
        dsimp only at h
        split at h
        · cases h
        · rename_i hvalid
          cases h
          exact ⟨⟨hne, hcomment, a, b, htrim, ha, rfl, rfl⟩, (validHash_iff _).mpr hvalid⟩
      · rw [splitn_of_notMem 0 hcomma] at h
        cases h
  · rintro ⟨hline, hvalid⟩
    rw [readUserLine_of_userLine hline, if_neg ((validHash_iff _).mp hvalid)]

/-! ## The loader gathers its lines -/

theorem lineItem_entry_iff (raw user hash : Text) :
    lineItem raw = .entry user hash ↔ UserLine raw user hash ∧ ValidHash hash := by
  rw [← readUserLine_entry_iff 0]
  unfold lineItem
  cases readUserLine 0 raw with
  | error e => exact ⟨fun h => (by cases h), fun h => (by cases h)⟩
  | ok entry =>
    cases entry with
    | none => exact ⟨fun h => (by cases h), fun h => (by cases h)⟩
    | some e =>
      obtain ⟨u, h⟩ := e
      change Gather.Item.entry u h = .entry user hash ↔ _
      simp

/-- No line that names a user is passed over. -/
theorem lineItem_of_userLine {raw user hash : Text} (h : UserLine raw user hash) :
    lineItem raw = .entry user hash ∨ lineItem raw = .bad := by
  unfold lineItem
  rw [readUserLine_of_userLine h]
  by_cases hvalid : (decide (utf8Len hash ≠ 64) || !hash.all isAsciiHexdigit) = true
  · right
    rw [if_pos hvalid]
    rfl
  · left
    rw [if_neg hvalid]
    rfl

/-- The number of a line matters to its error only. -/
theorem readUserLine_number (lineno : Nat) (raw : Text) :
    (readUserLine lineno raw).toOption = (readUserLine 0 raw).toOption := by
  unfold readUserLine
  dsimp only
  split
  · rfl
  · split
    · split
      · rfl
      · rfl
    · rfl

theorem loadLines_eq (raws : List Text) : ∀ lineno map,
    (loadLines lineno raws map).toOption = gather map (raws.map lineItem) := by
  induction raws with
  | nil =>
    intro lineno map
    rfl
  | cons raw raws ih =>
    intro lineno map
    rw [loadLines, List.map_cons]
    rw [lineItem, ← readUserLine_number lineno raw]
    cases readUserLine lineno raw with
    | error e => rfl
    | ok entry =>
      cases entry with
      | none => exact ih (lineno + 1) map
      | some e =>
        obtain ⟨user, hash⟩ := e
        have hgather : gather map (.entry user hash :: raws.map lineItem)
            = if (map.lookup user).isSome then none
              else gather (map.insert user hash) (raws.map lineItem) := rfl
        refine Eq.trans ?_ hgather.symm
        by_cases htaken : (map.lookup user).isSome = true
        · rw [if_pos htaken]
          dsimp only
          rw [if_pos htaken]
          rfl
        · rw [if_neg htaken]
          dsimp only
          rw [if_neg htaken]
          exact ih (lineno + 1) (map.insert user hash)

theorem toOption_eq_some {α : Type} {x : Except String α} {a : α} :
    x.toOption = some a ↔ x = .ok a := by
  cases x with
  | error e => exact ⟨fun h => (by cases h), fun h => (by cases h)⟩
  | ok b => exact ⟨fun h => congrArg Except.ok (Option.some.inj h), fun h => (by cases h; rfl)⟩

/-- The load succeeds iff the mode is right, the file can be read, and its lines can be gathered;
    and then it gives the table of the lines. -/
theorem loadAuthorizedUsers_ok_iff (f : SecretFile) (users : Table Text Text) :
    loadAuthorizedUsers f = .ok users ↔
      checkSecretFileMode f = .ok () ∧ ∃ contents, f.contents = .ok contents ∧
        gather ∅ ((lines contents).map lineItem) = some users := by
  unfold loadAuthorizedUsers
  rw [bind_eq_ok]
  constructor
  · rintro ⟨⟨⟩, hmode, h⟩
    obtain ⟨contents, hread, hload⟩ := bind_eq_ok.mp h
    refine ⟨hmode, contents, ?_, ?_⟩
    · cases hf : f.contents with
      | error e =>
        rw [hf] at hread
        cases hread
      | ok text =>
        rw [hf] at hread
        exact hread
    · rw [← loadLines_eq _ 0, hload]
      rfl
  · rintro ⟨hmode, contents, hread, hgather⟩
    refine ⟨(), hmode, bind_eq_ok.mpr ⟨contents, by rw [hread]; rfl, ?_⟩⟩
    rw [← loadLines_eq _ 0] at hgather
    exact toOption_eq_some.mp hgather

/-- The table of a loaded file, line by line. -/
theorem lookup_loaded {raws : List Text} {users : Table Text Text}
    (h : gather ∅ (raws.map lineItem) = some users) (user hash : Text) :
    users.lookup user = some hash ↔ ∃ raw ∈ raws, UserLine raw user hash := by
  rw [Gather.lookup_gather h, List.mem_map]
  constructor
  · rintro ⟨raw, hraw, hitem⟩
    exact ⟨raw, hraw, ((lineItem_entry_iff _ _ _).mp hitem).1⟩
  · rintro ⟨raw, hraw, hline⟩
    refine ⟨raw, hraw, ?_⟩
    rcases lineItem_of_userLine hline with hentry | hbad
    · exact hentry
    · -- a line with an ill-formed hash would have stopped the load
      have hclean := (Gather.gather_isSome_iff _).mp (Option.isSome_of_eq_some h)
      exact absurd (List.mem_map.mpr ⟨raw, hraw, hbad⟩) hclean.1

/-! ## The comparison -/

theorem foldl_or_eq_zero (xs : List UInt8) : ∀ acc : UInt8,
    xs.foldl (· ||| ·) acc = 0 ↔ acc = 0 ∧ ∀ x ∈ xs, x = 0 := by
  induction xs with
  | nil =>
    intro acc
    simp
  | cons x xs ih =>
    intro acc
    rw [List.foldl_cons, ih, UInt8.or_eq_zero_iff, List.forall_mem_cons, and_assoc]

theorem zipWith_xor_eq_zero : ∀ a b : Bytes, a.length = b.length →
    ((∀ x ∈ List.zipWith (· ^^^ ·) a b, x = 0) ↔ a = b) := by
  intro a
  induction a with
  | nil =>
    intro b hlen
    have hb : b = [] := List.eq_nil_of_length_eq_zero hlen.symm
    subst hb
    simp
  | cons x a ih =>
    intro b hlen
    cases b with
    | nil => cases hlen
    | cons y b =>
      rw [List.zipWith_cons_cons, List.forall_mem_cons, UInt8.xor_eq_zero_iff,
        ih b (Nat.succ.inj hlen), List.cons.injEq]

/-- **The comparison without early exit is equality.** -/
theorem constantTimeEq_iff (a b : Bytes) : constantTimeEq a b = true ↔ a = b := by
  unfold constantTimeEq
  by_cases hlen : a.length = b.length
  · rw [if_neg (not_not.mpr hlen), beq_iff_eq, foldl_or_eq_zero, zipWith_xor_eq_zero a b hlen]
    exact and_iff_right rfl
  · rw [if_pos hlen]
    exact ⟨fun h => (by cases h), fun h => absurd (congrArg List.length h) hlen⟩

theorem asBytes_injective {s t : Text} (h : asBytes s = asBytes t) : s = t := by
  have hs := fromUtf8_asBytes s
  rw [h, fromUtf8_asBytes] at hs
  exact (Option.some.inj hs).symm

/-- A claim is let in iff the table binds its user to its hash. -/
theorem authorize_ok_iff (claim : AuthClaim) (users : Table Text Text) :
    authorize claim users = .ok () ↔
      users.lookup (toAsciiLowercase claim.username)
        = some (toAsciiLowercase claim.passwordSha256Hex) := by
  unfold authorize
  dsimp only
  cases users.lookup (toAsciiLowercase claim.username) with
  | none =>
    -- the dummy hash is compared, but its outcome does not count
    rw [Option.isSome_none, Bool.and_false]
    exact ⟨fun h => (by cases h), fun h => (by cases h)⟩
  | some expected =>
    rw [Option.getD_some, Option.isSome_some, Bool.and_true, Option.some.injEq]
    constructor
    · intro h
      split at h
      · rename_i heq
        exact asBytes_injective ((constantTimeEq_iff _ _).mp heq)
      · cases h
    · intro h
      rw [if_pos ((constantTimeEq_iff _ _).mpr (congrArg asBytes h))]

theorem authorize_error {claim : AuthClaim} {users : Table Text Text}
    (h : authorize claim users ≠ .ok ()) :
    authorize claim users = .error "authentication failed" := by
  unfold authorize at h ⊢
  dsimp only at h ⊢
  split
  · rename_i hmatched
    rw [if_pos hmatched] at h
    exact absurd rfl h
  · rfl

/-- **Authorisation is what the lines say.**  For every file that loads: a claim is let in iff some
    line names its user with its hash, and every other claim gets one and the same error.  A file
    whose lines are a permutation of these loads iff this one does, to the same table. -/
theorem authorize_iff_user_line (f : SecretFile) (contents : Text)
    (hread : f.contents = .ok contents) :
    (∀ users claim, loadAuthorizedUsers f = .ok users →
      (authorize claim users = .ok () ↔
        ∃ raw ∈ lines contents, UserLine raw (toAsciiLowercase claim.username)
          (toAsciiLowercase claim.passwordSha256Hex)) ∧
      (authorize claim users ≠ .ok () →
        authorize claim users = .error "authentication failed")) ∧
    (∀ contents', (lines contents').Perm (lines contents) →
      ((∃ users, loadAuthorizedUsers f = .ok users) ↔
        ∃ users', loadAuthorizedUsers { f with contents := .ok contents' } = .ok users') ∧
      (∀ users users', loadAuthorizedUsers f = .ok users →
        loadAuthorizedUsers { f with contents := .ok contents' } = .ok users' →
        ∀ user, users'.lookup user = users.lookup user)) := by
  have hload : ∀ text users,
      loadAuthorizedUsers { f with contents := .ok text } = .ok users ↔
        checkSecretFileMode f = .ok () ∧ gather ∅ ((lines text).map lineItem) = some users := by
    intro text users
    rw [loadAuthorizedUsers_ok_iff]
    refine and_congr_right fun _ => ⟨?_, fun h => ⟨text, rfl, h⟩⟩
    rintro ⟨text', htext, h⟩
    cases htext
    exact h
  have hf : f = { f with contents := .ok contents } := by rw [← hread]
  rw [hf]
  refine ⟨fun users claim h => ?_, fun contents' hperm => ⟨?_, fun users users' h h' user => ?_⟩⟩
  · have hgather := ((hload contents users).mp h).2
    refine ⟨?_, authorize_error⟩
    rw [authorize_ok_iff, lookup_loaded hgather]
  · have hsome := Gather.gather_isSome_perm (hperm.map lineItem)
    rw [Option.isSome_iff_exists, Option.isSome_iff_exists] at hsome
    simp only [hload, exists_and_left, hsome]
  · have hgather := ((hload contents users).mp h).2
    have hgather' := ((hload contents' users').mp h').2
    exact Gather.lookup_gather_perm (hperm.map lineItem) hgather' hgather user

/-- A comment, then a user with blanks and capitals in both fields. -/
def usersText : Text :=
  ['#', ' ', 'x', '\n', ' ', 'A', 'l', ' ', ',', ' '] ++ List.replicate 64 'F' ++ ['\r', '\n']

theorem authorize_iff_user_line_alice :
    ∃ users, loadAuthorizedUsers ⟨"users", .ok 0o100600, .ok usersText⟩ = .ok users ∧
      authorize ⟨0, ['a', 'L'], List.replicate 64 'f'⟩ users = .ok () := by
  have hload : (loadAuthorizedUsers ⟨"users", .ok 0o100600, .ok usersText⟩).toOption.isSome := by
    decide +kernel
  obtain ⟨users, husers⟩ := Option.isSome_iff_exists.mp hload
  have hok := toOption_eq_some.mp husers
  refine ⟨users, hok, ?_⟩
  have hlaw := authorize_iff_user_line ⟨"users", .ok 0o100600, .ok usersText⟩ usersText rfl
  rw [(hlaw.1 users _ hok).1]
  refine ⟨[' ', 'A', 'l', ' ', ',', ' '] ++ List.replicate 64 'F', by decide +kernel,
    by decide +kernel, by decide +kernel, ['A', 'l', ' '], ' ' :: List.replicate 64 'F', ?_⟩
  decide +kernel

end Rperf3
