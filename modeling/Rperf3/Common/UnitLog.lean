/-
  The UNITS of a TCP connection and how much of each was written.

  Whoever writes to a connection writes it unit by unit: the cookie, control bytes, port numbers and
  JSON frames, then payload.  A `UnitWrite` is one attempt, with the part of the unit that got onto
  the connection; the log of all attempts concatenates to the bytes on the wire
  (`written_sinkAfter`).

  `Clean` says that nothing is written behind a unit that was cut; then the bytes are complete units
  with at most the last one incomplete (`Clean.bytes`), which is what lets the peer parse them.

  Whether a log is clean depends on which calls of `send` are refused: `clean_controlLog_iff` says
  that it is unless a unit is broken off by a call that is not its first and a later call goes
  through (`BrokenOff`).
-/
import Rperf3.Common.Framing

namespace Rperf3

open ShortIO

/-- `serde_json` at the two types that cross a control channel. -/
structure Codecs where
  options : Json ClientOptions
  results : Json Results

/-- A control item as `wire.rs` sends it. -/
def Item.wire (js : Codecs) : Item → WireItem
  | .byte m => .message m
  | .port p => .u16 (UInt16.ofNat p)
  | .options o => .json js.options o
  | .results r => .json js.results r

/-- The units of a connection. -/
inductive WireUnit
  | cookie (c : Bytes)
  | item (i : Item)
  | payload (p : Bytes)
  deriving DecidableEq

def WireUnit.bytes (js : Codecs) : WireUnit → Bytes
  | .cookie c => c
  | .item i => (i.wire js).encode
  | .payload p => p

/-- One attempt to write a unit: a prefix of it got onto the connection. -/
structure UnitWrite (js : Codecs) where
  unit : WireUnit
  part : Bytes
  fits : part <+: unit.bytes js

variable {js : Codecs}

/-- Some of the unit was written, but not all. -/
def UnitWrite.Cut (w : UnitWrite js) : Prop := w.part ≠ [] ∧ w.part ≠ w.unit.bytes js

/-- What a log of attempts has put on the connection. -/
def writtenBytes (log : List (UnitWrite js)) : Bytes := log.flatMap UnitWrite.part

/-- Nothing is written behind a cut unit. -/
def Clean : List (UnitWrite js) → Prop
  | [] => True
  | w :: log => (w.Cut → ∀ w' ∈ log, w'.part = []) ∧ Clean log

theorem clean_iff : ∀ {log : List (UnitWrite js)},
    Clean log ↔ ∀ pre w post, log = pre ++ w :: post → w.Cut → ∀ w' ∈ post, w'.part = []
  | [] => ⟨fun _ pre w post h => absurd h.symm (List.append_ne_nil_of_right_ne_nil pre nofun),
      fun _ => trivial⟩
  | u :: log => by
    constructor
    · rintro ⟨hu, hlog⟩ pre w post hsplit
      cases pre with
      | nil =>
        cases hsplit
        exact hu
      | cons p pre =>
        cases hsplit
        exact clean_iff.mp hlog pre w post rfl
    · intro h
      refine ⟨h [] u log rfl, clean_iff.mpr fun pre w post hsplit => ?_⟩
      exact h (u :: pre) w post (by rw [hsplit]; rfl)

/-- **What a clean log writes**: complete units, then at most a part of one. -/
theorem Clean.bytes : ∀ {log : List (UnitWrite js)}, Clean log →
    ∃ (whole : List WireUnit) (part : Bytes),
      writtenBytes log = whole.flatMap (WireUnit.bytes js) ++ part ∧
      whole.Sublist (log.map UnitWrite.unit) ∧ (part = [] ∨ ∃ w ∈ log, w.Cut ∧ part = w.part)
  | [], _ => ⟨[], [], rfl, List.Sublist.refl _, Or.inl rfl⟩
  | w :: log, ⟨hw, hlog⟩ => by
    obtain ⟨whole, part, hbytes, hsub, hpart⟩ := hlog.bytes
    have hlater : part = [] ∨ ∃ w' ∈ w :: log, w'.Cut ∧ part = w'.part := by
      rcases hpart with hnil | ⟨w', hmem, hcut⟩
      · exact Or.inl hnil
      · exact Or.inr ⟨w', List.mem_cons_of_mem w hmem, hcut⟩
    by_cases hnone : w.part = []
    · refine ⟨whole, part, ?_, hsub.cons _, hlater⟩
      rw [writtenBytes, List.flatMap_cons, hnone]
      exact hbytes
    by_cases hall : w.part = w.unit.bytes js
    · refine ⟨w.unit :: whole, part, ?_, hsub.cons_cons _, hlater⟩
      rw [writtenBytes, List.flatMap_cons, hall, List.flatMap_cons, List.append_assoc]
      exact congrArg _ hbytes
    · -- cut: nothing follows
      have hcut : w.Cut := ⟨hnone, hall⟩
      refine ⟨[], w.part, ?_, List.nil_sublist _, Or.inr ⟨w, List.mem_cons_self, hcut, rfl⟩⟩
      rw [writtenBytes, List.flatMap_cons, List.flatMap_eq_nil_iff.mpr (hw hcut)]
      exact List.append_nil _

/-! ## Items on a socket -/

section Socket

variable (js) (answers : Nat → Answer IoError)

/-- Write one item: the outcome, and the socket afterwards. -/
def Item.write (i : Item) (s : Sink UInt8) : Except IoError Unit × Sink UInt8 :=
  ((i.wire js).send (Sink.send answers)).on s

/-- The part of the item that was written. -/
def Item.unitWrite (i : Item) (s : Sink UInt8) : UnitWrite js where
  unit := .item i
  part := (i.write js answers s).2.written.drop s.written.length
  fits := by
    obtain ⟨p, hp, hw, -⟩ := WireItem.writesPart_send answers (i.wire js) s
    rw [show (i.write js answers s).2.written = s.written ++ p from hw.written, List.drop_left]
    exact hp

/-- The attempts to write a list of items, one after the other, whatever becomes of each. -/
def controlLog : List Item → Sink UInt8 → List (UnitWrite js)
  | [], _ => []
  | i :: items, s => i.unitWrite js answers s :: controlLog items (i.write js answers s).2

/-- The socket after them. -/
def sinkAfter : List Item → Sink UInt8 → Sink UInt8
  | [], s => s
  | i :: items, s => sinkAfter items (i.write js answers s).2

variable {js answers}

variable (js answers) in
/-- What the calls of an item write is its part, all of it if the item reports success; it is cut
    exactly if a call other than the first is refused. -/
theorem write_spec (i : Item) (s : Sink UInt8) :
    Wrote answers s (i.write js answers s).2 (i.unitWrite js answers s).part ∧
      ((i.write js answers s).1 = .ok () →
        (i.unitWrite js answers s).part = (i.unitWrite js answers s).unit.bytes js) ∧
      ((i.unitWrite js answers s).Cut ↔ ∃ k, s.calls < k ∧ k < (i.write js answers s).2.calls ∧
        (answers k).takes = false) := by
  obtain ⟨p, -, hw, hok, hcut⟩ := WireItem.writesPart_send answers (i.wire js) s
  have hpart : (i.unitWrite js answers s).part = p := by
    show (((i.wire js).send (Sink.send answers)).on s).2.written.drop s.written.length = p
    rw [hw.written, List.drop_left]
  unfold UnitWrite.Cut
  rw [hpart]
  exact ⟨hw, hok, hcut⟩

theorem write_written (i : Item) (s : Sink UInt8) :
    (i.write js answers s).2.written = s.written ++ (i.unitWrite js answers s).part :=
  (write_spec js answers i s).1.written

/-- **The log is what is on the wire.** -/
theorem written_sinkAfter : ∀ (items : List Item) (s : Sink UInt8),
    (sinkAfter js answers items s).written =
      s.written ++ writtenBytes (controlLog js answers items s)
  | [], s => (List.append_nil _).symm
  | i :: items, s => by
    rw [sinkAfter, written_sinkAfter items, write_written, List.append_assoc]
    rfl

/-- A reported success means a complete unit. -/
theorem not_cut_of_ok {i : Item} {s : Sink UInt8} (h : (i.write js answers s).1 = .ok ()) :
    ¬ (i.unitWrite js answers s).Cut :=
  fun hcut => hcut.2 ((write_spec js answers i s).2.1 h)

/-- A single byte cannot be cut. -/
theorem not_cut_byte (m : Message) (s : Sink UInt8) :
    ¬ ((Item.byte m).unitWrite js answers s).Cut := by
  rintro ⟨hne, hpart⟩
  have hfits := ((Item.byte m).unitWrite js answers s).fits
  have hle := hfits.length_le
  refine hpart (hfits.eq_of_length_le ?_)
  have hpos := List.length_pos_of_ne_nil hne
  have hone : (((Item.byte m).unitWrite js answers s).unit.bytes js).length = 1 := rfl
  omega

/-! ## Which calls spoil a log -/

theorem sinkAfter_append (xs ys : List Item) (s : Sink UInt8) :
    sinkAfter js answers (xs ++ ys) s = sinkAfter js answers ys (sinkAfter js answers xs s) := by
  induction xs generalizing s with
  | nil => rfl
  | cons i xs ih => exact ih _

theorem controlLog_append (xs ys : List Item) (s : Sink UInt8) :
    controlLog js answers (xs ++ ys) s =
      controlLog js answers xs s ++ controlLog js answers ys (sinkAfter js answers xs s) := by
  induction xs generalizing s with
  | nil => rfl
  | cons i xs ih => exact congrArg (List.cons _) (ih _)

variable (js answers) in
theorem calls_le_sinkAfter (items : List Item) (s : Sink UInt8) :
    s.calls ≤ (sinkAfter js answers items s).calls := by
  induction items generalizing s with
  | nil => exact Nat.le_refl _
  | cons i items ih => exact Nat.le_trans (write_spec js answers i s).1.calls (ih _)

/-- A place in the log is a place in the list of items. -/
theorem controlLog_split {items : List Item} {s : Sink UInt8} {pre post : List (UnitWrite js)}
    {w : UnitWrite js} (h : controlLog js answers items s = pre ++ w :: post) :
    ∃ before i after, items = before ++ i :: after ∧
      w = i.unitWrite js answers (sinkAfter js answers before s) ∧
      post = controlLog js answers after (sinkAfter js answers (before ++ [i]) s) := by
  induction items generalizing s pre with
  | nil => exact absurd h.symm (List.append_ne_nil_of_right_ne_nil pre nofun)
  | cons i items ih =>
    cases pre with
    | nil =>
      obtain ⟨rfl, rfl⟩ := List.cons.inj h
      exact ⟨[], i, items, rfl, rfl, rfl⟩
    | cons x pre =>
      obtain ⟨before, i', after, rfl, hw, hpost⟩ := ih (List.cons.inj h).2
      exact ⟨i :: before, i', after, rfl, hw, hpost⟩

variable (js answers) in
/-- Something is written exactly if some call takes something. -/
theorem exists_part_iff (items : List Item) (s : Sink UInt8) :
    (∃ w ∈ controlLog js answers items s, w.part ≠ []) ↔
      ∃ k, s.calls ≤ k ∧ k < (sinkAfter js answers items s).calls ∧ (answers k).takes = true := by
  induction items generalizing s with
  | nil =>
    refine iff_of_false (fun ⟨_, hw, _⟩ => absurd hw List.not_mem_nil) ?_
    rintro ⟨k, hle, hlt, -⟩
    exact absurd hlt (Nat.not_lt.mpr hle)
  | cons i items ih =>
    have hhead := (write_spec js answers i s).1
    have hle := calls_le_sinkAfter js answers items (i.write js answers s).2
    rw [controlLog, List.exists_mem_cons_iff, ih, hhead.taken, sinkAfter]
    constructor
    · rintro (⟨k, hk, hk', htaken⟩ | ⟨k, hk, hk', htaken⟩)
      · exact ⟨k, hk, Nat.lt_of_lt_of_le hk' hle, htaken⟩
      · exact ⟨k, Nat.le_trans hhead.calls hk, hk', htaken⟩
    · rintro ⟨k, hk, hk', htaken⟩
      rcases Nat.lt_or_ge k (i.write js answers s).2.calls with hbefore | hafter
      · exact .inl ⟨k, hk, hbefore, htaken⟩
      · exact .inr ⟨k, hafter, hk', htaken⟩

variable (js answers) in
/-- A call of some unit other than its first is refused, and a call of a later unit goes through.
    The calls of a unit are numbered from those made before it. -/
def BrokenOff (items : List Item) (s : Sink UInt8) : Prop :=
  ∃ before i after k k', items = before ++ i :: after ∧
    (sinkAfter js answers before s).calls < k ∧
    k < (sinkAfter js answers (before ++ [i]) s).calls ∧ (answers k).takes = false ∧
    (sinkAfter js answers (before ++ [i]) s).calls ≤ k' ∧
    k' < (sinkAfter js answers items s).calls ∧ (answers k').takes = true

/-- **When a control log is clean**, in terms of the answers. -/
theorem clean_controlLog_iff (items : List Item) (s : Sink UInt8) :
    Clean (controlLog js answers items s) ↔ ¬ BrokenOff js answers items s := by
  have hafter : ∀ (before : List Item) (i : Item), sinkAfter js answers (before ++ [i]) s =
      (i.write js answers (sinkAfter js answers before s)).2 :=
    fun before i => sinkAfter_append before [i] s
  rw [clean_iff]
  constructor
  · rintro hclean ⟨before, i, after, k, k', rfl, hk, hk', hrefused, hj, hj', htaken⟩
    rw [hafter] at hk' hj
    rw [sinkAfter_append] at hj'
    have hcut := (write_spec js answers i _).2.2.mpr ⟨k, hk, hk', hrefused⟩
    obtain ⟨w, hw, hpart⟩ := (exists_part_iff js answers after _).mpr ⟨k', hj, hj', htaken⟩
    exact hpart (hclean _ _ _ (controlLog_append before (i :: after) s) hcut w hw)
  · intro hnot pre w post hsplit hcut w' hw'
    obtain ⟨before, i, after, rfl, rfl, rfl⟩ := controlLog_split hsplit
    by_contra hpart
    obtain ⟨k, hk, hk', hrefused⟩ := (write_spec js answers i _).2.2.mp hcut
    obtain ⟨k', hj, hj', htaken⟩ := (exists_part_iff js answers after _).mp ⟨w', hw', hpart⟩
    rw [← hafter] at hk'
    rw [← sinkAfter_append, List.append_assoc] at hj'
    exact hnot ⟨before, i, after, k, k', rfl, hk, hk', hrefused, hj, hj', htaken⟩

end Socket

/-! ## Writers on a socket -/

section Sends

variable {ε : Type} (js) (answers : Nat → Answer IoError) (io : IoError → ε)

/-- The sends of a program and the outcomes it saw are those of the socket. -/
def OnSocket : List (Item × Except ε Unit) → Sink UInt8 → Prop
  | [], _ => True
  | (i, r) :: sends, s =>
    r = (i.write js answers s).1.mapError io ∧ OnSocket sends (i.write js answers s).2

variable {js answers io}

theorem onSocket_append {xs ys : List (Item × Except ε Unit)} {s : Sink UInt8} :
    OnSocket js answers io (xs ++ ys) s ↔ OnSocket js answers io xs s ∧
      OnSocket js answers io ys (sinkAfter js answers (xs.map Prod.fst) s) := by
  induction xs generalizing s with
  | nil => exact (iff_of_eq (true_and _)).symm
  | cons x xs ih => exact (and_congr_right fun _ => ih).trans and_assoc.symm

/-- A cut unit is a send that failed, and no byte. -/
theorem exists_send_of_cut {sends : List (Item × Except ε Unit)} {s : Sink UInt8}
    (h : OnSocket js answers io sends s) {before after : List Item} {i : Item}
    (hitems : sends.map Prod.fst = before ++ i :: after)
    (hcut : (i.unitWrite js answers (sinkAfter js answers before s)).Cut) :
    (∀ m, i ≠ .byte m) ∧ ∃ before' e after', sends = before' ++ (i, .error e) :: after' ∧
      after'.map Prod.fst = after := by
  obtain ⟨before', rest, rfl, rfl, hrest⟩ := List.map_eq_append_iff.mp hitems
  obtain ⟨⟨i', r⟩, after', rfl, rfl, rfl⟩ := List.map_eq_cons_iff.mp hrest
  refine ⟨?_, before', ?_⟩
  · rintro m hm
    dsimp only at hm
    subst hm
    exact not_cut_byte m _ hcut
  have hr := (onSocket_append.mp h).2.1
  cases hwrite : (i'.write js answers (sinkAfter js answers (before'.map Prod.fst) s)).1 with
  | ok u => exact absurd hcut (not_cut_of_ok hwrite)
  | error e =>
    rw [hwrite] at hr
    exact ⟨io e, after', by rw [hr]; rfl, rfl⟩

end Sends

end Rperf3
