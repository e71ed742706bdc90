import ChemEmulator.Support.FiniteMap

/-!
# Records filed under a key of their owner

Every record belongs to an owner and is filed under a key that the owner had
when the record was made.  Whoever looks for the records of an owner uses the
key that the owner has now.  That finds exactly the owner's records as long as
they are `Filed`: each record lies under the present key of its owner, and
nobody else has that key.
-/

namespace FiniteMap

variable {ι κ ρ : Type*} [DecidableEq κ]

/-- Records lie under the keys of their owners.  `key` is the present key of an
owner, and nothing for an owner that is gone. -/
structure Filed (key : ι → Option κ) (owner : ρ → ι)
    (records : FiniteMap κ ρ) : Prop where
  own : ∀ k r, records.lookup k = some r → key (owner r) = some k
  only : ∀ i k r, key i = some k → records.lookup k = some r → owner r = i

namespace Filed

variable {key : ι → Option κ} {owner : ρ → ι} {records : FiniteMap κ ρ}

theorem empty : Filed key owner (∅ : FiniteMap κ ρ) where
  own k r h := by simp at h
  only i k r _ h := by simp at h

/-- An owner has one record at most. -/
theorem single (h : Filed key owner records) {k l : κ} {r s : ρ}
    (hr : records.lookup k = some r) (hs : records.lookup l = some s)
    (howner : owner r = owner s) : k = l := by
  have hk : key (owner r) = some k := h.own k r hr
  rw [howner, h.own l s hs] at hk
  exact (Option.some.inj hk).symm

/-- Erasing under the key of an owner removes the owner's records. -/
theorem lookup_erase (h : Filed key owner records) {i : ι} {k l : κ} {r : ρ}
    (hi : key i = some k) :
    (records.erase k).lookup l = some r ↔
      records.lookup l = some r ∧ owner r ≠ i := by
  by_cases hl : l = k
  · subst hl
    rw [AList.lookup_erase]
    constructor
    · intro hnone
      cases hnone
    · rintro ⟨hr, hne⟩
      exact absurd (h.only i l r hi hr) hne
  · rw [AList.lookup_erase_ne hl]
    refine ⟨fun hr => ⟨hr, ?_⟩, fun hr => hr.1⟩
    rintro rfl
    exact hl (Option.some.inj ((h.own l r hr).symm.trans hi))

end Filed

variable {key : ι → Option κ} {owner : ρ → ι} {records : FiniteMap κ ρ}

/-- Records are filed when their owners are there and erasing under the key of
an owner removes the owner's records and no others. -/
theorem filed_iff :
    Filed key owner records ↔
      (∀ k r, records.lookup k = some r → ∃ l, key (owner r) = some l) ∧
        ∀ i k, key i = some k → ∀ l r,
          (records.erase k).lookup l = some r ↔
            records.lookup l = some r ∧ owner r ≠ i := by
  constructor
  · intro h
    exact ⟨fun k r hr => ⟨k, h.own k r hr⟩,
      fun i k hi l r => h.lookup_erase hi⟩
  · rintro ⟨hthere, herase⟩
    constructor
    · intro k r hr
      obtain ⟨l, hl⟩ := hthere k r hr
      by_cases hkl : k = l
      · rw [hl, hkl]
      · have hstill : (records.erase l).lookup k = some r := by
          rw [AList.lookup_erase_ne hkl, hr]
        exact absurd rfl ((herase (owner r) l hl k r).mp hstill).2
    · intro i k r hi hr
      by_contra hne
      have hstill := (herase i k hi k r).mpr ⟨hr, hne⟩
      rw [AList.lookup_erase] at hstill
      cases hstill

section Changes

variable [DecidableEq ι]

/-- An owner leaves, and its key is erased. -/
theorem Filed.leave (h : Filed key owner records) {i : ι} {k : κ}
    (hi : key i = some k) :
    Filed (Function.update key i none) owner (records.erase k) := by
  constructor
  · intro l r hr
    obtain ⟨hr', hne⟩ := (h.lookup_erase hi).mp hr
    rw [Function.update_of_ne hne]
    exact h.own l r hr'
  · intro j l r hj hr
    have hji : j ≠ i := by
      rintro rfl
      rw [Function.update_self] at hj
      cases hj
    rw [Function.update_of_ne hji] at hj
    exact h.only j l r hj ((h.lookup_erase hi).mp hr).1

/-- An owner gets a key: its records have to lie there already, and nobody
else's may. -/
theorem Filed.rekey_iff (h : Filed key owner records) {i : ι} {k : κ} :
    Filed (Function.update key i (some k)) owner records ↔
      (∀ l r, records.lookup l = some r → owner r = i → l = k) ∧
        ∀ r, records.lookup k = some r → owner r = i := by
  constructor
  · intro hnew
    refine ⟨fun l r hr hown => ?_, fun r hr => ?_⟩
    · have hkey := hnew.own l r hr
      rw [hown, Function.update_self] at hkey
      exact (Option.some.inj hkey).symm
    · exact hnew.only i k r (Function.update_self ..) hr
  · rintro ⟨hown, honly⟩
    constructor
    · intro l r hr
      by_cases hi : owner r = i
      · rw [hi, Function.update_self, hown l r hr hi]
      · rw [Function.update_of_ne hi]
        exact h.own l r hr
    · intro j l r hj hr
      by_cases hji : j = i
      · subst hji
        rw [Function.update_self, Option.some.injEq] at hj
        subst hj
        exact honly r hr
      · rw [Function.update_of_ne hji] at hj
        exact h.only j l r hj hr

omit [DecidableEq ι] in
/-- A new record under the key of its owner: nobody else may have the key. -/
theorem filed_insert_iff {k : κ} {r : ρ} (hk : k ∉ records)
    (hr : key (owner r) = some k) :
    Filed key owner (records.insert k r) ↔
      Filed key owner records ∧ ∀ i, key i = some k → i = owner r := by
  have hne : ∀ l s, records.lookup l = some s → l ≠ k := by
    rintro l s hs rfl
    exact hk (mem_iff_lookup.mpr ⟨s, hs⟩)
  constructor
  · intro h
    refine ⟨⟨?_, ?_⟩, ?_⟩
    · intro l s hs
      refine h.own l s ?_
      rwa [AList.lookup_insert_ne (hne l s hs)]
    · intro i l s hi hs
      refine h.only i l s hi ?_
      rwa [AList.lookup_insert_ne (hne l s hs)]
    · intro i hi
      exact (h.only i k r hi (AList.lookup_insert records)).symm
  · rintro ⟨h, honly⟩
    constructor
    · intro l s hs
      by_cases hl : l = k
      · subst hl
        rw [AList.lookup_insert, Option.some.injEq] at hs
        exact hs ▸ hr
      · rw [AList.lookup_insert_ne hl] at hs
        exact h.own l s hs
    · intro i l s hi hs
      by_cases hl : l = k
      · subst hl
        rw [AList.lookup_insert, Option.some.injEq] at hs
        rw [← hs, honly i hi]
      · rw [AList.lookup_insert_ne hl] at hs
        exact h.only i l s hi hs

end Changes

end FiniteMap
