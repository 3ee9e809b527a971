/-
  Finite KEY-UNIQUE tables: the reading of a hash map that every model below uses.

  A hash map is Mathlib's `AList` (an association list that carries the proof that no key occurs
  twice), so "one entry per key" is never a separate hypothesis.  `AList` already has lookup,
  insertion and deletion with their lemmas; this file adds the three operations it lacks:

  * `retain` — drop the entries whose VALUE fails a test (cache eviction);
  * `modify` — update the value under a key in place (`get_mut`), nothing when the key is absent;
  * `size`   — the number of entries, and how insertion and deletion change it.
-/
import Mathlib.Data.List.AList

/-- A finite map from `K` to `V` with at most one entry per key. -/
abbrev Table (K V : Type) := AList fun _ : K => V

namespace Table

variable {K V : Type}

/-- Keep only the entries whose value passes `p`. -/
def retain (p : V → Bool) (m : Table K V) : Table K V :=
  ⟨m.entries.filter fun e => p e.2, m.nodupKeys.sublist List.filter_sublist⟩

/-- Number of entries. -/
def size (m : Table K V) : Nat := m.keys.length

variable [DecidableEq K]

/-- Update the value stored under `k`, if there is one. -/
def modify (k : K) (f : V → V) (m : Table K V) : Table K V :=
  match m.lookup k with
  | some v => m.insert k (f v)
  | none => m

/-! ## Lookup after each operation -/

/-- Under unique keys an entry survives `retain` exactly when its value passes the test. -/
theorem lookup_retain (p : V → Bool) (m : Table K V) (k : K) :
    (m.retain p).lookup k = (m.lookup k).filter p := by
  have hmem : ∀ v, v ∈ (m.retain p).lookup k ↔ v ∈ m.lookup k ∧ p v = true := by
    intro v
    rw [AList.mem_lookup_iff, AList.mem_lookup_iff]
    exact List.mem_filter
  apply Option.ext
  intro v
  show v ∈ (m.retain p).lookup k ↔ v ∈ (m.lookup k).filter p
  rw [hmem, Option.mem_def, Option.mem_def, Option.filter_eq_some_iff]

theorem lookup_modify_self (k : K) (f : V → V) (m : Table K V) :
    (m.modify k f).lookup k = (m.lookup k).map f := by
  unfold modify
  split
  · rename_i v hv
    rw [AList.lookup_insert, hv]
    rfl
  · rename_i hnone
    rw [hnone]
    rfl

theorem lookup_modify_ne {k k' : K} (f : V → V) (m : Table K V) (h : k' ≠ k) :
    (m.modify k f).lookup k' = m.lookup k' := by
  unfold modify
  split
  · exact AList.lookup_insert_ne h
  · rfl

/-! ## Size -/

theorem size_insert_of_lookup_none {m : Table K V} {k : K} (v : V) (h : m.lookup k = none) :
    size (m.insert k v) = size m + 1 := by
  have hk : k ∉ m.keys := fun hmem => AList.lookup_eq_none.mp h (AList.mem_keys.mpr hmem)
  rw [size, AList.keys_insert, List.erase_of_not_mem hk]
  rfl

theorem size_erase_le (m : Table K V) (k : K) : size (m.erase k) ≤ size m := by
  rw [size, AList.keys_erase]
  exact List.length_erase_le

/-- A table is empty as soon as no key is bound in it. -/
theorem eq_empty_of_lookup_none {m : Table K V} (h : ∀ k, m.lookup k = none) : m = ∅ := by
  apply AList.ext
  rw [AList.empty_entries, List.eq_nil_iff_forall_not_mem]
  rintro ⟨k, v⟩ hmem
  have hsome : v ∈ m.lookup k := AList.mem_lookup_iff.mpr hmem
  rw [h k] at hsome
  exact absurd hsome (Option.not_mem_none v)

end Table
