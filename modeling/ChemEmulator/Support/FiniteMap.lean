import Mathlib.Data.List.AList

/-!
# Finite maps

Finite maps whose values do not depend on the key, as association lists
without repeated keys.  `AList` provides lookup, insertion and deletion; this
module adds what programs do to a map entry by entry: inserting only when the
key is absent, keeping the entries that satisfy a test, updating every value,
and filling a map in a loop.
-/

/-- A finite map from `κ` to `ν`. -/
abbrev FiniteMap (κ ν : Type*) := AList fun _ : κ => ν

namespace FiniteMap

variable {κ ν α : Type*}

/-- Keep the entries that pass a test. -/
def filter (p : κ → ν → Bool) (m : FiniteMap κ ν) : FiniteMap κ ν where
  entries := m.entries.filter fun e => p e.1 e.2
  nodupKeys := m.nodupKeys.sublist List.filter_sublist

/-- Update every value. -/
def mapValues (f : ν → ν) (m : FiniteMap κ ν) : FiniteMap κ ν where
  entries := m.entries.map fun e => ⟨e.1, f e.2⟩
  nodupKeys := by
    have hkeys : (m.entries.map fun e => (⟨e.1, f e.2⟩ : (_ : κ) × ν)).keys =
        m.entries.keys := by
      simp [List.keys, Function.comp_def]
    unfold List.NodupKeys
    rw [hkeys]
    exact m.keys_nodup

/-- Update every value, with a view to its key. -/
def mapEntries (f : κ → ν → ν) (m : FiniteMap κ ν) : FiniteMap κ ν where
  entries := m.entries.map fun e => ⟨e.1, f e.1 e.2⟩
  nodupKeys := by
    have hkeys : (m.entries.map fun e =>
        (⟨e.1, f e.1 e.2⟩ : (_ : κ) × ν)).keys = m.entries.keys := by
      simp [List.keys, Function.comp_def]
    unfold List.NodupKeys
    rw [hkeys]
    exact m.keys_nodup

/-- A map with other values under the same keys. -/
def mapTo (f : κ → ν → α) (m : FiniteMap κ ν) : FiniteMap κ α where
  entries := m.entries.map fun e => ⟨e.1, f e.1 e.2⟩
  nodupKeys := by
    have hkeys : (m.entries.map fun e =>
        (⟨e.1, f e.1 e.2⟩ : (_ : κ) × α)).keys = m.entries.keys := by
      simp [List.keys, Function.comp_def]
    unfold List.NodupKeys
    rw [hkeys]
    exact m.keys_nodup

/-- The values, in the order of iteration. -/
def values (m : FiniteMap κ ν) : List ν :=
  m.entries.map fun e => e.2

variable [DecidableEq κ]

/-- Insert a value unless the key is already there. -/
def insertIfMissing (k : κ) (v : ν) (m : FiniteMap κ ν) : FiniteMap κ ν :=
  if k ∈ m then m else m.insert k v

/-- Every entry satisfies `P`. -/
def All (P : κ → ν → Prop) (m : FiniteMap κ ν) : Prop :=
  ∀ k v, m.lookup k = some v → P k v

theorem all_iff_entries {P : κ → ν → Prop} {m : FiniteMap κ ν} :
    All P m ↔ ∀ e ∈ m.entries, P e.1 e.2 := by
  constructor
  · intro h e he
    exact h e.1 e.2 (AList.mem_lookup_iff.mpr he)
  · intro h k v hlookup
    exact h ⟨k, v⟩ (AList.mem_lookup_iff.mp hlookup)

instance {P : κ → ν → Prop} [∀ k v, Decidable (P k v)] (m : FiniteMap κ ν) :
    Decidable (All P m) :=
  decidable_of_iff (∀ e ∈ m.entries, P e.1 e.2) all_iff_entries.symm

/-! ## Statements about what a lookup finds -/

instance {o : Option α} {P : α → Prop} [∀ a, Decidable (P a)] :
    Decidable (∀ a, o = some a → P a) :=
  inferInstanceAs (Decidable (∀ a ∈ o, P a))

instance {o : Option α} {P : α → Prop} [∀ a, Decidable (P a)] :
    Decidable (∃ a, o = some a ∧ P a) :=
  inferInstanceAs (Decidable (∃ a ∈ o, P a))

instance {o : Option (κ × ν)} {P : κ → ν → Prop}
    [∀ k v, Decidable (P k v)] : Decidable (∀ k v, o = some (k, v) → P k v) :=
  decidable_of_iff (∀ p, o = some p → P p.1 p.2) Prod.forall

/-! ## Membership -/

theorem mem_iff_lookup {k : κ} {m : FiniteMap κ ν} :
    k ∈ m ↔ ∃ v, m.lookup k = some v := by
  rw [← AList.lookup_isSome, Option.isSome_iff_exists]

theorem mem_insertIfMissing {k k' : κ} {v : ν} {m : FiniteMap κ ν} :
    k ∈ insertIfMissing k' v m ↔ k ∈ m ∨ k = k' := by
  by_cases hmem : k' ∈ m
  · simp only [insertIfMissing, hmem, if_true]
    constructor
    · exact Or.inl
    · rintro (h | rfl)
      · exact h
      · exact hmem
  · simp only [insertIfMissing, hmem, if_false, AList.mem_insert]
    exact or_comm

theorem lookup_filter {p : κ → ν → Bool} {m : FiniteMap κ ν} {k : κ} {v : ν} :
    (filter p m).lookup k = some v ↔ m.lookup k = some v ∧ p k v = true := by
  rw [← Option.mem_def, ← Option.mem_def, AList.mem_lookup_iff,
    AList.mem_lookup_iff]
  exact List.mem_filter

theorem mem_filter {p : κ → ν → Bool} {m : FiniteMap κ ν} {k : κ} :
    k ∈ filter p m ↔ ∃ v, m.lookup k = some v ∧ p k v = true := by
  simp only [mem_iff_lookup, lookup_filter]

theorem lookup_mapTo (f : κ → ν → α) (m : FiniteMap κ ν) (k : κ) :
    (mapTo f m).lookup k = (m.lookup k).map (f k) := by
  apply Option.ext
  intro v
  rw [← Option.mem_def, AList.mem_lookup_iff, Option.map_eq_some_iff]
  simp only [mapTo, List.mem_map, Sigma.mk.injEq, heq_eq_eq]
  constructor
  · rintro ⟨⟨k', w⟩, hmem, rfl, rfl⟩
    exact ⟨w, AList.mem_lookup_iff.mpr hmem, rfl⟩
  · rintro ⟨w, hw, rfl⟩
    exact ⟨⟨k, w⟩, AList.mem_lookup_iff.mp hw, rfl, rfl⟩

theorem lookup_mapEntries (f : κ → ν → ν) (m : FiniteMap κ ν) (k : κ) :
    (mapEntries f m).lookup k = (m.lookup k).map (f k) :=
  lookup_mapTo f m k

theorem lookup_mapValues (f : ν → ν) (m : FiniteMap κ ν) (k : κ) :
    (mapValues f m).lookup k = (m.lookup k).map f :=
  lookup_mapEntries (fun _ => f) m k

theorem mem_mapValues {f : ν → ν} {m : FiniteMap κ ν} {k : κ} :
    k ∈ mapValues f m ↔ k ∈ m := by
  rw [← AList.lookup_isSome, ← AList.lookup_isSome, lookup_mapValues,
    Option.isSome_map]

theorem mem_values_iff {m : FiniteMap κ ν} {v : ν} :
    v ∈ m.values ↔ ∃ k, m.lookup k = some v := by
  simp only [values, List.mem_map]
  constructor
  · rintro ⟨⟨k, w⟩, hmem, rfl⟩
    exact ⟨k, AList.mem_lookup_iff.mpr hmem⟩
  · rintro ⟨k, hk⟩
    exact ⟨⟨k, v⟩, AList.mem_lookup_iff.mp hk, rfl⟩

theorem values_insert (k : κ) (v : ν) (m : FiniteMap κ ν) :
    values (m.insert k v) = v :: values (m.erase k) := by
  rw [values, values, AList.entries_insert]
  rfl

/-- The values are the one under a key and those that stay when it goes. -/
theorem values_perm_of_lookup {k : κ} {v : ν} {m : FiniteMap κ ν}
    (h : m.lookup k = some v) : (values m).Perm (v :: values (m.erase k)) := by
  have hkeys : k ∈ m.entries.keys :=
    AList.mem_keys.mp (mem_iff_lookup.mpr ⟨v, h⟩)
  obtain ⟨w, before, after, -, hentries, herase⟩ :=
    List.exists_of_kerase hkeys
  have hw : m.lookup k = some w := by
    refine AList.mem_lookup_iff.mpr ?_
    rw [hentries]
    exact List.mem_append_right before List.mem_cons_self
  cases h.symm.trans hw
  have hleft : values m = before.map (·.2) ++ v :: after.map (·.2) := by
    rw [values, hentries, List.map_append, List.map_cons]
  have hright : values (m.erase k) = before.map (·.2) ++ after.map (·.2) := by
    rw [← List.map_append, ← herase]
    rfl
  rw [hleft, hright]
  exact List.perm_middle

theorem erase_of_not_mem {k : κ} {m : FiniteMap κ ν} (h : k ∉ m) :
    m.erase k = m := by
  apply AList.ext
  exact List.kerase_of_notMem_keys h

omit [DecidableEq κ] in
theorem length_values (m : FiniteMap κ ν) :
    (values m).length = m.keys.length := by
  rw [values, List.length_map, AList.keys, List.keys, List.length_map]

/-! ## Properties of all entries -/

theorem All.insert {P : κ → ν → Prop} {m : FiniteMap κ ν} {k : κ} {v : ν}
    (hm : All P m) (hv : P k v) : All P (m.insert k v) := by
  intro k' v' hlookup
  by_cases hk : k' = k
  · subst hk
    rw [AList.lookup_insert, Option.some.injEq] at hlookup
    exact hlookup ▸ hv
  · rw [AList.lookup_insert_ne hk] at hlookup
    exact hm k' v' hlookup

theorem all_mapValues_iff {P : κ → ν → Prop} {f : ν → ν}
    {m : FiniteMap κ ν} :
    All P (mapValues f m) ↔ All (fun k v => P k (f v)) m := by
  simp only [All, lookup_mapValues, Option.map_eq_some_iff]
  constructor
  · intro h k v hv
    exact h k (f v) ⟨v, hv, rfl⟩
  · rintro h k - ⟨v, hv, rfl⟩
    exact h k v hv

theorem All.erase {P : κ → ν → Prop} {m : FiniteMap κ ν} (hm : All P m)
    (k : κ) : All P (m.erase k) := by
  intro k' v' hlookup
  have hk : k' ≠ k := by
    rintro rfl
    simp at hlookup
  rw [AList.lookup_erase_ne hk] at hlookup
  exact hm k' v' hlookup

theorem All.filter {P : κ → ν → Prop} {m : FiniteMap κ ν} (hm : All P m)
    (p : κ → ν → Bool) : All P (filter p m) := by
  intro k v hlookup
  exact hm k v (lookup_filter.mp hlookup).1

theorem all_empty {P : κ → ν → Prop} : All P (∅ : FiniteMap κ ν) := by
  intro k v hlookup
  simp at hlookup

/-! ## Loops that fill a map -/

omit [DecidableEq κ] in
/-- A loop whose rounds each add the keys in `R a` adds the keys of all its
rounds. -/
theorem mem_foldl {f : FiniteMap κ ν → α → FiniteMap κ ν} {R : α → κ → Prop}
    (hf : ∀ m a k, k ∈ f m a ↔ k ∈ m ∨ R a k)
    (m : FiniteMap κ ν) (l : List α) (k : κ) :
    k ∈ l.foldl f m ↔ k ∈ m ∨ ∃ a ∈ l, R a k := by
  induction l generalizing m with
  | nil => simp
  | cons a l ih =>
      rw [List.foldl_cons, ih, hf]
      simp only [List.mem_cons, exists_eq_or_imp, or_assoc]

/-- `m` has the entries of `old` and, under other keys, only entries that
satisfy `P`. -/
structure Fills (P : κ → ν → Prop) (old m : FiniteMap κ ν) : Prop where
  kept : ∀ k v, old.lookup k = some v → m.lookup k = some v
  added : ∀ k v, m.lookup k = some v →
    old.lookup k = some v ∨ (k ∉ old ∧ P k v)

theorem Fills.refl {P : κ → ν → Prop} (m : FiniteMap κ ν) : Fills P m m :=
  ⟨fun _ _ h => h, fun _ _ h => Or.inl h⟩

theorem Fills.insertIfMissing {P : κ → ν → Prop} {old m : FiniteMap κ ν}
    {k : κ} {v : ν} (h : Fills P old m) (hv : P k v) :
    Fills P old (insertIfMissing k v m) := by
  by_cases hmem : k ∈ m
  · simpa [FiniteMap.insertIfMissing, hmem] using h
  · simp only [FiniteMap.insertIfMissing, hmem, if_false]
    have hnew : k ∉ old := by
      intro hold
      obtain ⟨w, hw⟩ := mem_iff_lookup.mp hold
      exact hmem (mem_iff_lookup.mpr ⟨w, h.kept k w hw⟩)
    constructor
    · intro k' w hw
      have hne : k' ≠ k := by
        rintro rfl
        exact hnew (mem_iff_lookup.mpr ⟨w, hw⟩)
      rw [AList.lookup_insert_ne hne]
      exact h.kept k' w hw
    · intro k' w hw
      by_cases hk : k' = k
      · subst hk
        rw [AList.lookup_insert, Option.some.injEq] at hw
        exact Or.inr ⟨hnew, hw ▸ hv⟩
      · rw [AList.lookup_insert_ne hk] at hw
        exact h.added k' w hw

theorem Fills.foldl {P : κ → ν → Prop} {old : FiniteMap κ ν}
    {f : FiniteMap κ ν → α → FiniteMap κ ν}
    (hf : ∀ m a, Fills P old m → Fills P old (f m a))
    {m : FiniteMap κ ν} (hm : Fills P old m) (l : List α) :
    Fills P old (l.foldl f m) := by
  induction l generalizing m with
  | nil => exact hm
  | cons a l ih => exact ih (hf m a hm)

theorem Fills.all {P Q : κ → ν → Prop} {old m : FiniteMap κ ν}
    (h : Fills P old m) (hold : All Q old) (hPQ : ∀ k v, P k v → Q k v) :
    All Q m := by
  intro k v hlookup
  rcases h.added k v hlookup with hkept | ⟨-, hnew⟩
  · exact hold k v hkept
  · exact hPQ k v hnew

end FiniteMap
