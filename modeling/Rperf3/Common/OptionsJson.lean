/-
  THE OPTIONS AS A JSON OBJECT: what `derive(Serialize, Deserialize)` makes of `ClientOptions`.

  Text and tokens of JSON are serde's; an object is the list of its keys with their values.  Each
  of the seventeen fields is a `FieldCodec.Field` with the attributes of the source: when it is
  left out, and what its absence means.  The two agree because a `Field` says so of itself.

  1. `serialize`, `deserialize` — the derived pair.
  2. `deserialize_perm`, `deserialize_append` — the order of keys and unknown keys do not matter.
  3. `options_survive_wire` — every value of the type comes back.
-/
import Mathlib.Algebra.Ring.Int.Defs
import Rperf3.Lib.FieldCodec
import Rperf3.Common.Wire

namespace Rperf3

open FieldCodec

/-! ## Values -/

/-- A JSON value. -/
inductive JsonValue
  | null
  | bool (b : Bool)
  | int (n : Int)
  | float (q : ℚ)
  | string (s : String)
  | array (items : List JsonValue)
  | object (entries : List (String × JsonValue))

namespace JsonValue

def asBool : JsonValue → Option Bool
  | .bool b => some b
  | _ => none

/-- An unsigned integer of `w` bits. -/
def asUint (w : Nat) : JsonValue → Option Nat
  | .int n => if 0 ≤ n ∧ n < 2 ^ w then some n.toNat else none
  | _ => none

def asString : JsonValue → Option String
  | .string s => some s
  | _ => none

/-- `Option<T>`: `null` is `None`. -/
def nullable {α : Type} (read : JsonValue → Option α) : JsonValue → Option (Option α)
  | .null => some none
  | v => (read v).map some

theorem asUint_int {w n : Nat} (h : n < 2 ^ w) : asUint w (.int n) = some n := by
  have hlt : (n : Int) < 2 ^ w := by exact_mod_cast h
  have hif : asUint w (.int n) = if 0 ≤ (n : Int) ∧ (n : Int) < 2 ^ w then some n else none := rfl
  rw [hif, if_pos ⟨Int.natCast_nonneg n, hlt⟩]

theorem nullable_of_ne {α : Type} (read : JsonValue → Option α) {v : JsonValue} (h : v ≠ .null) :
    nullable read v = (read v).map some := by
  rw [nullable]
  exact h

end JsonValue

/-! ## Fields, by their attributes -/

abbrev OptionsField (α : Type) := Field String JsonValue α

/-- An unsigned field without attributes: always written, and required. -/
def uintField (w : Nat) (key : String) : OptionsField Nat where
  key := key
  skip _ := false
  write n := .int n
  default := none
  read := JsonValue.asUint w
  Valid n := n < 2 ^ w
  absent _ _ h := by cases h
  present _ hn _ := JsonValue.asUint_int hn

/-- A string field without attributes. -/
def stringField (key : String) : OptionsField String where
  key := key
  skip _ := false
  write s := .string s
  default := none
  read := JsonValue.asString
  Valid _ := True
  absent _ _ h := by cases h
  present _ _ _ := rfl

/-- `#[serde(default)]` on a `bool`: always written. -/
def defaultedBool (key : String) : OptionsField Bool where
  key := key
  skip _ := false
  write b := .bool b
  default := some false
  read := JsonValue.asBool
  Valid _ := True
  absent _ _ h := by cases h
  present _ _ _ := rfl

/-- `#[serde(default, skip_serializing_if = "std::ops::Not::not")]`. -/
def flagField (key : String) : OptionsField Bool where
  key := key
  skip b := !b
  write b := .bool b
  default := some false
  read := JsonValue.asBool
  Valid _ := True
  absent b _ h := by
    cases b with
    | false => rfl
    | true => cases h
  present _ _ _ := rfl

def isZeroU64 (n : Nat) : Bool := n == 0

/-- `#[serde(default, skip_serializing_if = "is_zero_u64")]`. -/
def nonzeroField (key : String) : OptionsField Nat where
  key := key
  skip := isZeroU64
  write n := .int n
  default := some 0
  read := JsonValue.asUint 64
  Valid n := n < 2 ^ 64
  absent n _ h := by rw [beq_iff_eq.mp h]
  present _ hn _ := JsonValue.asUint_int hn

/-- `#[serde(default, skip_serializing_if = "Option::is_none")]` around a field that is always
    written, and never as `null`. -/
def optionalField {α : Type} (f : OptionsField α) (hskip : ∀ a, f.skip a = false)
    (hnull : ∀ a, f.write a ≠ .null) : OptionsField (Option α) where
  key := f.key
  skip := Option.isNone
  write o := o.elim .null f.write
  default := some none
  read := JsonValue.nullable f.read
  Valid o := ∀ a ∈ o, f.Valid a
  absent o _ h := by rw [Option.isNone_iff_eq_none.mp h]
  present o ho h := by
    cases o with
    | none => cases h
    | some a =>
      have hread := f.present a (ho a rfl) (hskip a)
      change JsonValue.nullable f.read (f.write a) = some (some a)
      rw [JsonValue.nullable_of_ne f.read (hnull a), hread]
      rfl

def optionalUint (w : Nat) (key : String) : OptionsField (Option Nat) :=
  optionalField (uintField w key) (fun _ => rfl) (fun _ h => by cases h)

def optionalString (key : String) : OptionsField (Option String) :=
  optionalField (stringField key) (fun _ => rfl) (fun _ h => by cases h)

namespace ClientOptions

def tcpField := defaultedBool "tcp"
def omitField := uintField 32 "omit"
def timeField := uintField 32 "time"
def parallelField := uintField 32 "parallel"
def lenField := uintField 32 "len"
def clientVersionField := stringField "client_version"
def udpField := flagField "udp"
def bandwidthField := nonzeroField "bandwidth"
def reverseField := flagField "reverse"
def bidirectionalField := flagField "bidirectional"
def windowSizeField := optionalUint 32 "window_size"
def mssField := optionalUint 32 "mss"
def congestionField := optionalString "congestion"
def tosField := optionalUint 8 "tos"
def totalBytesField := optionalUint 64 "total_bytes"
def totalBlocksField := optionalUint 64 "total_blocks"
def authtokenField := optionalString "authtoken"

/-- The fields of a value in the order of the struct. -/
def columns (o : ClientOptions) : List (String × Option JsonValue) :=
  [tcpField.put o.tcp, omitField.put o.omitSecs, timeField.put o.time,
    parallelField.put o.parallel, lenField.put o.len, clientVersionField.put o.clientVersion,
    udpField.put o.udp, bandwidthField.put o.bandwidth, reverseField.put o.reverse,
    bidirectionalField.put o.bidirectional, windowSizeField.put o.windowSize,
    mssField.put o.mss, congestionField.put o.congestion, tosField.put o.tos,
    totalBytesField.put o.totalBytes, totalBlocksField.put o.totalBlocks,
    authtokenField.put o.authtoken]

/-- The derived `Serialize`. -/
def serialize (o : ClientOptions) : List (String × JsonValue) := object o.columns

/-- The derived `Deserialize`: a value, or an error for a key that is missing, there twice, or of
    the wrong type.  Keys the struct does not have are ignored. -/
def deserialize (obj : List (String × JsonValue)) : Option ClientOptions := do
  let tcp ← tcpField.get obj
  let omitSecs ← omitField.get obj
  let time ← timeField.get obj
  let parallel ← parallelField.get obj
  let len ← lenField.get obj
  let clientVersion ← clientVersionField.get obj
  let udp ← udpField.get obj
  let bandwidth ← bandwidthField.get obj
  let reverse ← reverseField.get obj
  let bidirectional ← bidirectionalField.get obj
  let windowSize ← windowSizeField.get obj
  let mss ← mssField.get obj
  let congestion ← congestionField.get obj
  let tos ← tosField.get obj
  let totalBytes ← totalBytesField.get obj
  let totalBlocks ← totalBlocksField.get obj
  let authtoken ← authtokenField.get obj
  pure { tcp, omitSecs, time, parallel, len, clientVersion, udp, bandwidth, reverse, bidirectional,
         windowSize, mss, congestion, tos, totalBytes, totalBlocks, authtoken }

/-- The keys of the struct. -/
def keys : List String :=
  ["tcp", "omit", "time", "parallel", "len", "client_version", "udp", "bandwidth", "reverse",
    "bidirectional", "window_size", "mss", "congestion", "tos", "total_bytes", "total_blocks",
    "authtoken"]

theorem map_columns (o : ClientOptions) : o.columns.map Prod.fst = keys := rfl

theorem keys_nodup : keys.Nodup := by decide

/-- The ranges of the machine integers. -/
structure InRange (o : ClientOptions) : Prop where
  omitSecs : o.omitSecs < 2 ^ 32
  time : o.time < 2 ^ 32
  parallel : o.parallel < 2 ^ 32
  len : o.len < 2 ^ 32
  bandwidth : o.bandwidth < 2 ^ 64
  windowSize : ∀ n ∈ o.windowSize, n < 2 ^ 32
  mss : ∀ n ∈ o.mss, n < 2 ^ 32
  tos : ∀ n ∈ o.tos, n < 2 ^ 8
  totalBytes : ∀ n ∈ o.totalBytes, n < 2 ^ 64
  totalBlocks : ∀ n ∈ o.totalBlocks, n < 2 ^ 64

/-! ## The result depends on the known keys only -/

/-- Two objects on which every field reads alike. -/
theorem deserialize_congr {obj obj' : List (String × JsonValue)}
    (h : ∀ {α : Type} (f : OptionsField α), f.key ∈ keys → f.get obj = f.get obj') :
    deserialize obj = deserialize obj' := by
  unfold deserialize
  rw [h tcpField (by decide), h omitField (by decide), h timeField (by decide),
    h parallelField (by decide), h lenField (by decide), h clientVersionField (by decide),
    h udpField (by decide), h bandwidthField (by decide), h reverseField (by decide),
    h bidirectionalField (by decide), h windowSizeField (by decide), h mssField (by decide),
    h congestionField (by decide), h tosField (by decide), h totalBytesField (by decide),
    h totalBlocksField (by decide), h authtokenField (by decide)]

theorem deserialize_perm {obj obj' : List (String × JsonValue)} (h : obj.Perm obj') :
    deserialize obj = deserialize obj' :=
  deserialize_congr fun f _ => get_perm f h

theorem deserialize_append (obj : List (String × JsonValue)) {extra : List (String × JsonValue)}
    (h : ∀ e ∈ extra, e.1 ∉ keys) : deserialize (obj ++ extra) = deserialize obj := by
  refine deserialize_congr fun f hf => get_append f obj ?_
  intro hmem
  obtain ⟨e, he, hkey⟩ := List.mem_map.mp hmem
  exact h e he (hkey ▸ hf)

/-! ## Round trip -/

theorem get_serialize {α : Type} (f : OptionsField α) {o : ClientOptions} {a : α} (ha : f.Valid a)
    (hmem : f.put a ∈ o.columns) : f.get o.serialize = some a := by
  have hnodup : (o.columns.map Prod.fst).Nodup := by
    rw [map_columns]
    exact keys_nodup
  exact get_object f ha hnodup hmem

theorem deserialize_serialize {o : ClientOptions} (h : o.InRange) :
    deserialize o.serialize = some o := by
  unfold deserialize
  rw [get_serialize tcpField (a := o.tcp) trivial (by simp [columns]),
    get_serialize omitField (a := o.omitSecs) h.omitSecs (by simp [columns]),
    get_serialize timeField (a := o.time) h.time (by simp [columns]),
    get_serialize parallelField (a := o.parallel) h.parallel (by simp [columns]),
    get_serialize lenField (a := o.len) h.len (by simp [columns]),
    get_serialize clientVersionField (a := o.clientVersion) trivial (by simp [columns]),
    get_serialize udpField (a := o.udp) trivial (by simp [columns]),
    get_serialize bandwidthField (a := o.bandwidth) h.bandwidth (by simp [columns]),
    get_serialize reverseField (a := o.reverse) trivial (by simp [columns]),
    get_serialize bidirectionalField (a := o.bidirectional) trivial (by simp [columns]),
    get_serialize windowSizeField (a := o.windowSize) h.windowSize (by simp [columns]),
    get_serialize mssField (a := o.mss) h.mss (by simp [columns]),
    get_serialize congestionField (a := o.congestion) (fun _ _ => trivial) (by simp [columns]),
    get_serialize tosField (a := o.tos) h.tos (by simp [columns]),
    get_serialize totalBytesField (a := o.totalBytes) h.totalBytes (by simp [columns]),
    get_serialize totalBlocksField (a := o.totalBlocks) h.totalBlocks (by simp [columns]),
    get_serialize authtokenField (a := o.authtoken) (fun _ _ => trivial) (by simp [columns])]
  rfl

/-- **The options survive the wire.**  Every value comes back from its object, although fields at
    their defaults are left out; and also when the keys come in another order, among any others
    that the struct does not have. -/
theorem options_survive_wire (o : ClientOptions) (h : o.InRange) :
    deserialize o.serialize = some o ∧
    ∀ extra obj, (∀ e ∈ extra, e.1 ∉ keys) → obj.Perm (o.serialize ++ extra) →
      deserialize obj = some o := by
  refine ⟨deserialize_serialize h, ?_⟩
  intro extra obj hextra hperm
  calc deserialize obj = deserialize (o.serialize ++ extra) := deserialize_perm hperm
    _ = deserialize o.serialize := deserialize_append _ hextra
    _ = some o := deserialize_serialize h

/-- A reverse test with a type of service, everything else left out. -/
def reverseTosOptions : ClientOptions :=
  { tcpDefaults 10 1 131072 with reverse := true, tos := some 16 }

theorem options_survive_wire_reversed :
    deserialize (("nodelay", .bool true) :: reverseTosOptions.serialize.reverse)
      = some reverseTosOptions := by
  have hrange : reverseTosOptions.InRange := by
    constructor <;> decide
  have hlaw := options_survive_wire reverseTosOptions hrange
  refine hlaw.2 [("nodelay", .bool true)] _ ?_ ?_
  · intro e he
    rw [List.mem_singleton.mp he]
    decide
  · exact ((List.reverse_perm _).cons _).trans (List.perm_append_singleton _ _).symm

end ClientOptions

end Rperf3
