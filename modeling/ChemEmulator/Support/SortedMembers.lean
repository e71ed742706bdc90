import Mathlib.Data.List.Pairwise
import Mathlib.Data.String.Basic

/-!
# Members sorted by their keys

The members of an object in the order in which a map keeps them.  Two lists of
this kind are equal if the same is found in both.
-/

namespace List

variable {κ ν : Type*} [DecidableEq κ]

theorem lookup_of_notMem {members : List (κ × ν)} {key : κ}
    (h : key ∉ members.map Prod.fst) : members.lookup key = none := by
  rw [List.lookup_eq_none_iff]
  intro m hm
  rw [bne_iff_ne]
  rintro rfl
  exact h (List.mem_map_of_mem hm)

theorem lookup_cons_eq (m : κ × ν) (rest : List (κ × ν)) (key : κ) :
    (m :: rest).lookup key =
      if key = m.1 then some m.2 else rest.lookup key := by
  obtain ⟨k, v⟩ := m
  rw [List.lookup_cons]
  split_ifs with heq
  · rw [heq, beq_self_eq_true]
  · rw [beq_false_of_ne heq]

theorem lookup_of_mem {members : List (κ × ν)}
    (h : (members.map Prod.fst).Nodup) {m : κ × ν} (hm : m ∈ members) :
    members.lookup m.1 = some m.2 := by
  induction members with
  | nil => cases hm
  | cons first rest ih =>
      obtain ⟨hfirst, hrest⟩ := List.nodup_cons.mp h
      rw [lookup_cons_eq]
      rcases List.mem_cons.mp hm with rfl | hm
      · rw [if_pos rfl]
      · rw [if_neg, ih hrest hm]
        intro heq
        exact hfirst (heq ▸ List.mem_map_of_mem hm)

end List

namespace SortedMembers

variable {ν : Type*}

/-- A key that is there gets a new value. -/
def insertMember (m : String × ν) : List (String × ν) → List (String × ν)
  | [] => [m]
  | m' :: rest =>
      if m.1 < m'.1 then m :: m' :: rest
      else if m.1 = m'.1 then m :: rest
      else m' :: insertMember m rest

def eraseMember (key : String) (members : List (String × ν)) :
    List (String × ν) :=
  members.filter fun m => m.1 ≠ key

/-- The keys ascend. -/
def Sorted (members : List (String × ν)) : Prop :=
  members.Pairwise fun m m' => m.1 < m'.1

instance (members : List (String × ν)) : Decidable (Sorted members) :=
  inferInstanceAs (Decidable (members.Pairwise _))

/-! ## What is found -/

theorem lookup_insertMember (m : String × ν) (members : List (String × ν))
    (key : String) :
    (insertMember m members).lookup key =
      if key = m.1 then some m.2 else members.lookup key := by
  induction members with
  | nil => rw [insertMember, List.lookup_cons_eq]
  | cons m' rest ih =>
      rw [insertMember]
      by_cases hlt : m.1 < m'.1
      · rw [if_pos hlt, List.lookup_cons_eq]
      by_cases heq : m.1 = m'.1
      · rw [if_neg hlt, if_pos heq, List.lookup_cons_eq, List.lookup_cons_eq]
        split_ifs with hkey hkey'
        · rfl
        · exact absurd (hkey'.trans heq.symm) hkey
        · rfl
      · rw [if_neg hlt, if_neg heq, List.lookup_cons_eq, List.lookup_cons_eq,
          ih]
        split_ifs with hkey hkey'
        · exact absurd (hkey'.symm.trans hkey) heq
        · rfl
        · rfl
        · rfl

theorem mem_insertMember {m f : String × ν} {members : List (String × ν)}
    (h : f ∈ insertMember m members) : f = m ∨ f ∈ members := by
  induction members with
  | nil => exact Or.inl (List.mem_singleton.mp h)
  | cons m' rest ih =>
      rw [insertMember] at h
      split_ifs at h
      · exact List.mem_cons.mp h
      · exact (List.mem_cons.mp h).imp_right (List.mem_cons_of_mem m')
      · rcases List.mem_cons.mp h with rfl | h
        · exact Or.inr List.mem_cons_self
        · exact (ih h).imp_right (List.mem_cons_of_mem m')

theorem lookup_eraseMember (key : String) (members : List (String × ν))
    (key' : String) :
    (eraseMember key members).lookup key' =
      if key' = key then none else members.lookup key' := by
  induction members with
  | nil =>
      rw [eraseMember, List.filter_nil, List.lookup_nil]
      split_ifs <;> rfl
  | cons m rest ih =>
      rw [eraseMember, List.filter_cons, List.lookup_cons_eq]
      by_cases hm : m.1 = key
      · rw [if_neg (by simpa using hm)]
        refine ih.trans ?_
        split_ifs with hkey hkey'
        · rfl
        · exact absurd (hkey'.trans hm) hkey
        · rfl
      · rw [if_pos (by simpa using hm), List.lookup_cons_eq]
        split_ifs with hkey hkey'
        · exact absurd (hkey.symm.trans hkey') hm
        · rfl
        · exact ih.trans (if_pos ‹_›)
        · exact ih.trans (if_neg ‹_›)

/-! ## Order -/

theorem Sorted.nodup {members : List (String × ν)} (h : Sorted members) :
    (members.map Prod.fst).Nodup := by
  rw [List.Nodup, List.pairwise_map]
  exact List.Pairwise.imp (fun hlt => ne_of_lt hlt) h

theorem lookup_of_lt {members : List (String × ν)} {key : String}
    (h : ∀ m ∈ members, key < m.1) : members.lookup key = none := by
  refine List.lookup_of_notMem fun hmem => ?_
  obtain ⟨m, hm, rfl⟩ := List.mem_map.mp hmem
  exact lt_irrefl _ (h m hm)

/-- The first key is the least one that is found. -/
theorem Sorted.ext {members members' : List (String × ν)} (h : Sorted members)
    (h' : Sorted members')
    (hlookup : ∀ key, members.lookup key = members'.lookup key) :
    members = members' := by
  induction members generalizing members' with
  | nil =>
      cases members' with
      | nil => rfl
      | cons m' rest' =>
          have hmiss := hlookup m'.1
          rw [List.lookup_cons_eq, if_pos rfl] at hmiss
          cases hmiss
  | cons m rest ih =>
      obtain ⟨hfirst, hrest⟩ := List.pairwise_cons.mp h
      cases members' with
      | nil =>
          have hmiss := hlookup m.1
          rw [List.lookup_cons_eq, if_pos rfl] at hmiss
          cases hmiss
      | cons m' rest' =>
          obtain ⟨hfirst', hrest'⟩ := List.pairwise_cons.mp h'
          have hm := hlookup m.1
          have hm' := hlookup m'.1
          rw [List.lookup_cons_eq, if_pos rfl, List.lookup_cons_eq] at hm
          rw [List.lookup_cons_eq, List.lookup_cons_eq, if_pos rfl] at hm'
          have hkey : m.1 = m'.1 := by
            by_contra hne
            rw [if_neg hne] at hm
            rw [if_neg (Ne.symm hne)] at hm'
            rcases lt_or_gt_of_ne hne with hlt | hlt
            · have hnone : rest'.lookup m.1 = none :=
                lookup_of_lt fun f hf => lt_trans hlt (hfirst' f hf)
              cases hm.trans hnone
            · have hnone : rest.lookup m'.1 = none :=
                lookup_of_lt fun f hf => lt_trans hlt (hfirst f hf)
              cases hnone.symm.trans hm'
          rw [if_pos hkey, Option.some.injEq] at hm
          obtain rfl : m = m' := Prod.ext hkey hm
          rw [ih hrest hrest' fun key => ?_]
          have hboth := hlookup key
          rw [List.lookup_cons_eq, List.lookup_cons_eq] at hboth
          by_cases hk : key = m.1
          · rw [hk, lookup_of_lt hfirst, lookup_of_lt hfirst']
          · rwa [if_neg hk, if_neg hk] at hboth

end SortedMembers
