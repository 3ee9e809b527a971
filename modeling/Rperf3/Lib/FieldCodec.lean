/-
  RECORDS WRITTEN AS OBJECTS, one codec per field.

  An object is a list of keys with values.  A field may be left out when its value is what a reader
  takes for an absent key; that the two agree is part of the field (`Field.absent`), so a codec
  where they differ cannot be built.

  1. `get_object` — every field of a record comes back from the record's object.
  2. `get_perm`, `get_append` — a reader does not see the order of the keys, nor keys of others.
-/
import Mathlib.Data.List.Perm.Basic

namespace FieldCodec

variable {κ V α : Type}

/-- How a field is written and read back, for the values `Valid` admits.  Without a `default` an
    absent key is an error. -/
structure Field (κ V α : Type) where
  key : κ
  skip : α → Bool
  write : α → V
  default : Option α
  read : V → Option α
  Valid : α → Prop
  absent : ∀ a, Valid a → skip a = true → default = some a
  present : ∀ a, Valid a → skip a = false → read (write a) = some a

/-- The field's column of a record: its key, and its value unless it is left out. -/
def Field.put (f : Field κ V α) (a : α) : κ × Option V :=
  (f.key, if f.skip a then none else some (f.write a))

/-- The object of a record. -/
def object (columns : List (κ × Option V)) : List (κ × V) :=
  columns.filterMap fun c => c.2.map fun v => (c.1, v)

variable [DecidableEq κ]

/-- The values an object has under a key. -/
def values (k : κ) (obj : List (κ × V)) : List V :=
  obj.filterMap fun e => if e.1 = k then some e.2 else none

/-- Reading a field: absent, present, or present twice. -/
def Field.get (f : Field κ V α) (obj : List (κ × V)) : Option α :=
  match values f.key obj with
  | [] => f.default
  | [v] => f.read v
  | _ => none

/-! ## Round trip -/

theorem values_object_cons (k : κ) (c : κ × Option V) (columns : List (κ × Option V)) :
    values k (object (c :: columns))
      = (if c.1 = k then c.2.toList else []) ++ values k (object columns) := by
  obtain ⟨key, v⟩ := c
  unfold object values
  cases v with
  | none => simp
  | some v =>
    by_cases h : key = k
    · simp [h]
    · simp [h]

theorem values_object_of_notMem {k : κ} {columns : List (κ × Option V)}
    (h : k ∉ columns.map Prod.fst) : values k (object columns) = [] := by
  induction columns with
  | nil => rfl
  | cons c columns ih =>
    rw [List.map_cons, List.mem_cons, not_or] at h
    rw [values_object_cons, if_neg (Ne.symm h.1), ih h.2]
    rfl

/-- Each key has the value of its column. -/
theorem values_object {k : κ} {v : Option V} {columns : List (κ × Option V)}
    (hnodup : (columns.map Prod.fst).Nodup) (hmem : (k, v) ∈ columns) :
    values k (object columns) = v.toList := by
  induction columns with
  | nil => exact absurd hmem List.not_mem_nil
  | cons c columns ih =>
    rw [List.map_cons, List.nodup_cons] at hnodup
    rw [values_object_cons]
    rcases List.mem_cons.mp hmem with rfl | hmem
    · rw [if_pos rfl, values_object_of_notMem hnodup.1, List.append_nil]
    · have hne : c.1 ≠ k := by
        rintro rfl
        exact hnodup.1 (List.mem_map.mpr ⟨_, hmem, rfl⟩)
      rw [if_neg hne, ih hnodup.2 hmem]
      rfl

/-- **A field comes back from the object.** -/
theorem get_object (f : Field κ V α) {a : α} {columns : List (κ × Option V)} (ha : f.Valid a)
    (hnodup : (columns.map Prod.fst).Nodup) (hmem : f.put a ∈ columns) :
    f.get (object columns) = some a := by
  unfold Field.get
  rw [values_object hnodup hmem]
  cases hskip : f.skip a with
  | true =>
    rw [if_pos rfl]
    exact f.absent a ha hskip
  | false =>
    rw [if_neg (by simp)]
    exact f.present a ha hskip

/-! ## Order and further keys -/

/-- **The order of the keys does not matter.** -/
theorem get_perm (f : Field κ V α) {obj obj' : List (κ × V)} (h : obj.Perm obj') :
    f.get obj = f.get obj' := by
  have hvalues : (values f.key obj).Perm (values f.key obj') := h.filterMap _
  unfold Field.get
  generalize values f.key obj = l at hvalues ⊢
  generalize values f.key obj' = l' at hvalues ⊢
  have hlen := hvalues.length_eq
  match l, l', hlen with
  | [], [], _ => rfl
  | [v], [v'], _ =>
    have heq : v = v' := List.singleton_perm_singleton.mp hvalues
    rw [heq]
  | _ :: _ :: _, _ :: _ :: _, _ => rfl

/-- **Nor do the keys of others.** -/
theorem get_append (f : Field κ V α) (obj : List (κ × V)) {extra : List (κ × V)}
    (h : f.key ∉ extra.map Prod.fst) : f.get (obj ++ extra) = f.get obj := by
  have hextra : values f.key extra = [] := by
    refine List.filterMap_eq_nil_iff.mpr fun e he => ?_
    have hne : e.1 ≠ f.key := fun heq => h (List.mem_map.mpr ⟨e, he, heq⟩)
    rw [if_neg hne]
  have hvalues : values f.key (obj ++ extra) = values f.key obj := by
    unfold values at hextra ⊢
    rw [List.filterMap_append, hextra, List.append_nil]
  unfold Field.get
  rw [hvalues]

end FieldCodec
