import ChemEmulator.Support.FiniteMap

/-!
# A table kept beside a map

A program that writes what it keeps in a map to a table has every entry twice.
The table has a key of its own, computed from the key of the map, and an
insertion under a key that is taken is refused.  `Mirrors` says that no two
entries of the map share a row, that there are no other rows, and that every
entry is related to its row.  It survives the changes of the map that are
followed by the matching change of the table.
-/

namespace FiniteMap

variable {κ ι ν ρ : Type*} [DecidableEq κ] [DecidableEq ι]

/-- The rows of the table are those of the entries of the map. -/
structure Mirrors (key : κ → ι) (r : ν → ρ → Prop) (m : FiniteMap κ ν)
    (t : FiniteMap ι ρ) : Prop where
  distinct : ∀ k ∈ m, ∀ l ∈ m, key k = key l → k = l
  owned : ∀ i ∈ t, ∃ k ∈ m, key k = i
  rows : All (fun k v => ∃ row, t.lookup (key k) = some row ∧ r v row) m

/-- The loop that deletes the rows of some keys. -/
def eraseRows (key : κ → ι) (ks : List κ) (t : FiniteMap ι ρ) :
    FiniteMap ι ρ :=
  ks.foldl (fun t k => t.erase (key k)) t

/-- An insertion that changes the row if the key is taken. -/
def upsert (i : ι) (fresh : ρ) (conflict : ρ → ρ) (t : FiniteMap ι ρ) :
    FiniteMap ι ρ :=
  t.insert i (((t.lookup i).map conflict).getD fresh)

omit [DecidableEq κ] in
theorem lookup_eraseRows (key : κ → ι) (ks : List κ) (t : FiniteMap ι ρ)
    (i : ι) :
    (eraseRows key ks t).lookup i =
      if i ∈ ks.map key then none else t.lookup i := by
  induction ks generalizing t with
  | nil => simp [eraseRows]
  | cons k ks ih =>
      have htail := ih (t.erase (key k))
      simp only [eraseRows, List.foldl_cons] at htail ⊢
      rw [htail]
      by_cases hi : i = key k
      · subst hi
        simp
      · simp only [List.map_cons, List.mem_cons, hi, false_or,
          AList.lookup_erase_ne hi]

namespace Mirrors

variable {key : κ → ι} {r : ν → ρ → Prop} {m m' : FiniteMap κ ν}
  {t : FiniteMap ι ρ}

theorem empty : Mirrors key r (∅ : FiniteMap κ ν) (∅ : FiniteMap ι ρ) where
  distinct k hk := absurd hk (AList.notMem_empty k)
  owned i hi := absurd hi (AList.notMem_empty i)
  rows := all_empty

/-- Values change in a way that their rows still fit. -/
theorem update (h : Mirrors key r m t)
    (hmem : ∀ k, k ∈ m' ↔ k ∈ m)
    (hvalues : ∀ k v', m'.lookup k = some v' →
      ∃ v, m.lookup k = some v ∧ ∀ row, r v row → r v' row) :
    Mirrors key r m' t := by
  refine ⟨?_, ?_, ?_⟩
  · intro k hk l hl
    exact h.distinct k ((hmem k).mp hk) l ((hmem l).mp hl)
  · intro i hi
    obtain ⟨k, hk, hkey⟩ := h.owned i hi
    exact ⟨k, (hmem k).mpr hk, hkey⟩
  · intro k v' hv'
    obtain ⟨v, hv, hr⟩ := hvalues k v' hv'
    obtain ⟨row, hrow, hfits⟩ := h.rows k v hv
    exact ⟨row, hrow, hr row hfits⟩

/-- One value is replaced. -/
theorem replace (h : Mirrors key r m t) {k : κ} {v v' : ν}
    (hv : m.lookup k = some v) (hr : ∀ row, r v row → r v' row) :
    Mirrors key r (m.insert k v') t := by
  refine h.update ?_ ?_
  · intro l
    rw [AList.mem_insert]
    constructor
    · rintro (rfl | hl)
      · exact mem_iff_lookup.mpr ⟨v, hv⟩
      · exact hl
    · exact Or.inr
  · intro l w hw
    by_cases hl : l = k
    · subst hl
      rw [AList.lookup_insert, Option.some.injEq] at hw
      subst hw
      exact ⟨v, hv, hr⟩
    · rw [AList.lookup_insert_ne hl] at hw
      exact ⟨w, hw, fun _ hrow => hrow⟩

/-- A new entry whose row nobody has yet. -/
theorem insertNew (h : Mirrors key r m t) {k : κ} {v : ν} {row : ρ}
    (hfresh : ∀ l ∈ m, key l ≠ key k) (hr : r v row) :
    Mirrors key r (m.insert k v) (insertIfMissing (key k) row t) := by
  have hmissing : key k ∉ t := by
    intro htaken
    obtain ⟨l, hl, hkey⟩ := h.owned _ htaken
    exact hfresh l hl hkey
  rw [insertIfMissing, if_neg hmissing]
  refine ⟨?_, ?_, ?_⟩
  · intro l hl l' hl' hkey
    rcases AList.mem_insert _ |>.mp hl with rfl | hold <;>
      rcases AList.mem_insert _ |>.mp hl' with rfl | hold'
    · rfl
    · exact absurd hkey.symm (hfresh l' hold')
    · exact absurd hkey (hfresh l hold)
    · exact h.distinct l hold l' hold' hkey
  · intro i hi
    rcases AList.mem_insert _ |>.mp hi with rfl | hold
    · exact ⟨k, AList.mem_insert _ |>.mpr (Or.inl rfl), rfl⟩
    · obtain ⟨l, hl, hkey⟩ := h.owned i hold
      exact ⟨l, AList.mem_insert _ |>.mpr (Or.inr hl), hkey⟩
  · intro l w hw
    by_cases hl : l = k
    · subst hl
      rw [AList.lookup_insert, Option.some.injEq] at hw
      subst hw
      exact ⟨row, AList.lookup_insert _, hr⟩
    · rw [AList.lookup_insert_ne hl] at hw
      have hother : key l ≠ key k :=
        hfresh l (mem_iff_lookup.mpr ⟨w, hw⟩)
      rw [AList.lookup_insert_ne hother]
      exact h.rows l w hw

/-- An entry is written to the map, and to the row that nobody else has. -/
theorem upsert (h : Mirrors key r m t) {k : κ} {v : ν} {fresh : ρ}
    {conflict : ρ → ρ} (hown : ∀ l ∈ m, key l = key k → l = k)
    (hfresh : r v fresh)
    (hconflict : ∀ w row, m.lookup k = some w → r w row → r v (conflict row)) :
    Mirrors key r (m.insert k v)
      (FiniteMap.upsert (key k) fresh conflict t) := by
  refine ⟨?_, ?_, ?_⟩
  · intro l hl l' hl' hkey
    rcases AList.mem_insert _ |>.mp hl with rfl | hold <;>
      rcases AList.mem_insert _ |>.mp hl' with rfl | hold'
    · rfl
    · exact (hown l' hold' hkey.symm).symm
    · exact hown l hold hkey
    · exact h.distinct l hold l' hold' hkey
  · intro i hi
    rcases AList.mem_insert _ |>.mp hi with rfl | hold
    · exact ⟨k, AList.mem_insert _ |>.mpr (Or.inl rfl), rfl⟩
    · obtain ⟨l, hl, hkey⟩ := h.owned i hold
      exact ⟨l, AList.mem_insert _ |>.mpr (Or.inr hl), hkey⟩
  · intro l w hw
    by_cases hl : l = k
    · subst hl
      rw [AList.lookup_insert, Option.some.injEq] at hw
      subst hw
      refine ⟨_, AList.lookup_insert _, ?_⟩
      cases hrow : t.lookup (key l) with
      | none => exact hfresh
      | some row =>
          obtain ⟨l', hl', hkey⟩ :=
            h.owned _ (mem_iff_lookup.mpr ⟨row, hrow⟩)
          obtain rfl := hown l' hl' hkey
          obtain ⟨old, hold⟩ := mem_iff_lookup.mp hl'
          obtain ⟨row', hrow', hr⟩ := h.rows l' old hold
          cases hrow.symm.trans hrow'
          exact hconflict old row hold hr
    · rw [AList.lookup_insert_ne hl] at hw
      have hother : key l ≠ key k := fun hkey =>
        hl (hown l (mem_iff_lookup.mpr ⟨w, hw⟩) hkey)
      rw [FiniteMap.upsert, AList.lookup_insert_ne hother]
      exact h.rows l w hw

/-- All rows are changed, in a way that they still fit. -/
theorem mapRows (h : Mirrors key r m t) {f : ρ → ρ}
    (hf : ∀ v row, r v row → r v (f row)) :
    Mirrors key r m (mapValues f t) := by
  refine ⟨h.distinct, ?_, ?_⟩
  · intro i hi
    exact h.owned i (mem_mapValues.mp hi)
  · intro k v hv
    obtain ⟨row, hrow, hr⟩ := h.rows k v hv
    exact ⟨f row, by rw [lookup_mapValues, hrow]; rfl, hf v row hr⟩

/-- Entries go together with their rows. -/
theorem drop (h : Mirrors key r m t) {ks : List κ}
    (hks : ∀ k ∈ ks, k ∈ m)
    (hm' : ∀ k v, m'.lookup k = some v ↔ m.lookup k = some v ∧ k ∉ ks) :
    Mirrors key r m' (eraseRows key ks t) := by
  have hmem : ∀ k, k ∈ m' → k ∈ m ∧ k ∉ ks := by
    intro k hk
    obtain ⟨v, hv⟩ := mem_iff_lookup.mp hk
    obtain ⟨hold, hkept⟩ := (hm' k v).mp hv
    exact ⟨mem_iff_lookup.mpr ⟨v, hold⟩, hkept⟩
  refine ⟨?_, ?_, ?_⟩
  · intro k hk l hl
    exact h.distinct k (hmem k hk).1 l (hmem l hl).1
  · intro i hi
    obtain ⟨row, hrow⟩ := mem_iff_lookup.mp hi
    rw [lookup_eraseRows] at hrow
    split_ifs at hrow with hgone
    obtain ⟨k, hk, rfl⟩ := h.owned i (mem_iff_lookup.mpr ⟨row, hrow⟩)
    obtain ⟨v, hv⟩ := mem_iff_lookup.mp hk
    refine ⟨k, mem_iff_lookup.mpr ⟨v, (hm' k v).mpr ⟨hv, ?_⟩⟩, rfl⟩
    exact fun hdropped => hgone (List.mem_map_of_mem hdropped)
  · intro k v hv
    obtain ⟨hold, hkept⟩ := (hm' k v).mp hv
    obtain ⟨row, hrow, hr⟩ := h.rows k v hold
    refine ⟨row, ?_, hr⟩
    rw [lookup_eraseRows, if_neg, hrow]
    -- a row that is deleted belongs to another entry
    intro hgone
    obtain ⟨l, hl, hkey⟩ := List.mem_map.mp hgone
    have hsame := h.distinct l (hks l hl) k
      (mem_iff_lookup.mpr ⟨v, hold⟩) hkey
    exact hkept (hsame ▸ hl)

/-- One entry goes together with its row. -/
theorem erase (h : Mirrors key r m t) {k : κ} (hk : k ∈ m) :
    Mirrors key r (m.erase k) (t.erase (key k)) := by
  have hdrop : Mirrors key r (m.erase k) (eraseRows key [k] t) := by
    refine h.drop ?_ ?_
    · intro l hl
      rw [List.mem_singleton.mp hl]
      exact hk
    · intro l v
      by_cases hl : l = k
      · rw [hl, AList.lookup_erase]
        simp
      · rw [AList.lookup_erase_ne hl]
        simp [hl]
  exact hdrop

end Mirrors

end FiniteMap
