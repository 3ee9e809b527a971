/-
  GATHERING entries into a table, where a second entry under one key is an error.

  A reader goes through its items in order.  It passes over some, stops at a malformed one, and
  binds a key for each of the others, unless the key is bound already.

  1. `gather` — the pass.
  2. `gather_isSome_iff` — it succeeds iff nothing is malformed and no two items bind one key: a
     property of the items as a bag, so the order in which they come does not matter.
  3. `lookup_gather` — the table then binds exactly what the items bind.
-/
import Rperf3.Lib.Table

namespace Gather

variable {K V : Type}

/-- What a reader makes of one item. -/
inductive Item (K V : Type)
  | skip
  | bad
  | entry (k : K) (v : V)
  deriving DecidableEq

def Item.key? : Item K V → Option K
  | .skip => none
  | .bad => none
  | .entry k _ => some k

/-- The keys that are bound, with repetitions. -/
def keys (items : List (Item K V)) : List K := items.filterMap Item.key?

/-- Nothing malformed, and no key twice. -/
def Clean (items : List (Item K V)) : Prop := Item.bad ∉ items ∧ (keys items).Nodup

theorem clean_nil : Clean ([] : List (Item K V)) := ⟨List.not_mem_nil, List.nodup_nil⟩

theorem clean_skip (items : List (Item K V)) : Clean (.skip :: items) ↔ Clean items := by
  have hbad : Item.bad ∈ Item.skip :: items ↔ Item.bad ∈ items := by simp
  unfold Clean
  rw [hbad]
  rfl

theorem not_clean_bad (items : List (Item K V)) : ¬ Clean (.bad :: items) :=
  fun h => h.1 List.mem_cons_self

theorem clean_entry (k : K) (v : V) (items : List (Item K V)) :
    Clean (.entry k v :: items) ↔ k ∉ keys items ∧ Clean items := by
  have hkeys : keys (Item.entry k v :: items) = k :: keys items := rfl
  have hbad : Item.bad ∈ Item.entry k v :: items ↔ Item.bad ∈ items := by simp
  unfold Clean
  rw [hkeys, hbad, List.nodup_cons, and_left_comm]

theorem Clean.perm {items items' : List (Item K V)} (hperm : items.Perm items')
    (h : Clean items) : Clean items' :=
  ⟨fun hbad => h.1 (hperm.mem_iff.mpr hbad), (hperm.filterMap _).nodup_iff.mp h.2⟩

variable [DecidableEq K]

/-- The pass over the items. -/
def gather : Table K V → List (Item K V) → Option (Table K V)
  | m, [] => some m
  | m, .skip :: items => gather m items
  | _, .bad :: _ => none
  | m, .entry k v :: items =>
    if (m.lookup k).isSome then none else gather (m.insert k v) items

/-- Keys that are free after an insertion. -/
theorem free_insert_iff (m : Table K V) (k : K) (v : V) (ks : List K) :
    (∀ k' ∈ ks, (m.insert k v).lookup k' = none) ↔ k ∉ ks ∧ ∀ k' ∈ ks, m.lookup k' = none := by
  constructor
  · intro hfree
    have hnot : k ∉ ks := by
      intro hmem
      have hself := hfree k hmem
      rw [AList.lookup_insert] at hself
      cases hself
    refine ⟨hnot, fun k' hk' => ?_⟩
    have hne : k' ≠ k := fun heq => hnot (heq ▸ hk')
    rw [← hfree k' hk', AList.lookup_insert_ne hne]
  · rintro ⟨hnot, hfree⟩ k' hk'
    have hne : k' ≠ k := fun heq => hnot (heq ▸ hk')
    rw [AList.lookup_insert_ne hne]
    exact hfree k' hk'

/-- From a table that is not empty, its keys count as taken. -/
theorem gather_iff (items : List (Item K V)) : ∀ m : Table K V,
    (gather m items).isSome ↔ Clean items ∧ ∀ k ∈ keys items, m.lookup k = none := by
  induction items with
  | nil =>
    intro m
    exact ⟨fun _ => ⟨clean_nil, fun k hk => absurd hk List.not_mem_nil⟩, fun _ => rfl⟩
  | cons i items ih =>
    intro m
    cases i with
    | skip =>
      rw [gather, ih, clean_skip]
      rfl
    | bad =>
      rw [gather]
      exact ⟨fun h => (by cases h), fun h => absurd h.1 (not_clean_bad items)⟩
    | entry k v =>
      have hkeys : keys (Item.entry k v :: items) = k :: keys items := rfl
      rw [gather, hkeys, clean_entry, List.forall_mem_cons]
      cases hk : m.lookup k with
      | some w =>
        rw [if_pos Option.isSome_some]
        exact ⟨fun h => (by cases h), fun h => (by cases h.2.1)⟩
      | none =>
        rw [if_neg (by simp), ih, free_insert_iff]
        constructor
        · rintro ⟨hclean, hnot, hfree⟩
          exact ⟨⟨hnot, hclean⟩, rfl, hfree⟩
        · rintro ⟨⟨hnot, hclean⟩, -, hfree⟩
          exact ⟨hclean, hnot, hfree⟩

/-- **When the pass succeeds.** -/
theorem gather_isSome_iff (items : List (Item K V)) :
    (gather ∅ items).isSome ↔ Clean items := by
  rw [gather_iff]
  exact ⟨fun h => h.1, fun h => ⟨h, fun k _ => AList.lookup_empty k⟩⟩

theorem lookup_gather_from (items : List (Item K V)) : ∀ {m m' : Table K V},
    gather m items = some m' → ∀ k v,
      (m'.lookup k = some v ↔ m.lookup k = some v ∨ Item.entry k v ∈ items) := by
  induction items with
  | nil =>
    intro m m' h k v
    cases h
    simp
  | cons i items ih =>
    intro m m' h k v
    cases i with
    | skip =>
      rw [gather] at h
      rw [ih h k v]
      simp
    | bad =>
      rw [gather] at h
      cases h
    | entry k₀ v₀ =>
      rw [gather] at h
      split at h
      · cases h
      · rename_i hfree
        rw [Bool.not_eq_true, Option.isSome_eq_false_iff, Option.isNone_iff_eq_none] at hfree
        rw [ih h k v, List.mem_cons, Item.entry.injEq, ← or_assoc]
        refine or_congr_left ?_
        by_cases hk : k = k₀
        · subst hk
          rw [AList.lookup_insert, hfree]
          simp [eq_comm]
        · rw [AList.lookup_insert_ne hk]
          simp [hk]

/-- **What the table binds.** -/
theorem lookup_gather {items : List (Item K V)} {m : Table K V} (h : gather ∅ items = some m)
    (k : K) (v : V) : m.lookup k = some v ↔ Item.entry k v ∈ items := by
  rw [lookup_gather_from items h k v, AList.lookup_empty]
  simp

/-- The order of the items does not matter. -/
theorem gather_isSome_perm {items items' : List (Item K V)} (hperm : items.Perm items') :
    (gather ∅ items).isSome ↔ (gather ∅ items').isSome := by
  rw [gather_isSome_iff, gather_isSome_iff]
  exact ⟨fun h => h.perm hperm, fun h => h.perm hperm.symm⟩

theorem lookup_gather_perm {items items' : List (Item K V)} (hperm : items.Perm items')
    {m m' : Table K V} (h : gather ∅ items = some m) (h' : gather ∅ items' = some m') (k : K) :
    m.lookup k = m'.lookup k := by
  apply Option.ext
  intro v
  rw [lookup_gather h, lookup_gather h', hperm.mem_iff]

end Gather
