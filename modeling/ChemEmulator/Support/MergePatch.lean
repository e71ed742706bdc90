import ChemEmulator.Support.Json
import ChemEmulator.Support.SortedMembers

/-!
# Merge patches

A patch is a value like the one that it changes: the members that it has are
merged into those of the target, a `null` deletes, and anything but an object
takes the place of what was there.

`effect` is what a patch does to one place of a value.  Places do not disturb
each other: what is found at a place after a patch depends on what was found
there before, and on the effect.
-/

namespace Json

open SortedMembers

/-- What is no object has no members. -/
def members : Json → List (String × Json)
  | object fields => fields
  | _ => []

theorem find?_eq (j : Json) (key : String) :
    j.find? key = j.members.lookup key := by
  cases j <;> rfl

/-- The value at the end of a path of keys. -/
def valueAt (j : Json) : List String → Option Json
  | [] => some j
  | key :: path => (j.find? key).bind fun v => v.valueAt path

mutual

/-- `merge_patch`. -/
def mergePatch (target : Json) : Json → Json
  | object patch => object (mergeMembers target.members patch)
  | null => null
  | boolean b => boolean b
  | integer n => integer n
  | float x => float x
  | string s => string s
  | array elements => array elements

def mergeMembers (fields : List (String × Json)) :
    List (String × Json) → List (String × Json)
  | [] => fields
  | m :: rest => mergeMembers (mergeMember fields m) rest

def mergeMember (fields : List (String × Json)) :
    String × Json → List (String × Json)
  | (key, null) => eraseMember key fields
  | (key, patch) =>
      insertMember (key, mergePatch ((fields.lookup key).getD null) patch)
        fields

end

mutual

/-- The keys of every object ascend; inside of arrays nothing is merged. -/
def ordered : Json → Bool
  | object fields => decide (Sorted fields) && orderedMembers fields
  | _ => true

def orderedMembers : List (String × Json) → Bool
  | [] => true
  | m :: rest => orderedMember m && orderedMembers rest

def orderedMember : String × Json → Bool
  | (_, v) => ordered v

end

/-! ## One object -/

/-- What stands under a key after a patch, from what the patch has under it. -/
def mergedAt (old : Option Json) : Option Json → Option Json
  | none => old
  | some null => none
  | some patch => some (mergePatch (old.getD null) patch)

theorem lookup_mergeMember (fields : List (String × Json)) (m : String × Json)
    (key : String) :
    (mergeMember fields m).lookup key =
      if key = m.1 then mergedAt (fields.lookup key) (some m.2)
      else fields.lookup key := by
  obtain ⟨k, patch⟩ := m
  cases patch with
  | null =>
      rw [mergeMember, lookup_eraseMember]
      rfl
  | _ =>
      rw [mergeMember, lookup_insertMember]
      dsimp only
      split_ifs with hkey
      · rw [hkey]
        rfl
      · rfl
      · simp

theorem lookup_mergeMembers {patch : List (String × Json)}
    (h : (patch.map Prod.fst).Nodup) (fields : List (String × Json))
    (key : String) :
    (mergeMembers fields patch).lookup key =
      mergedAt (fields.lookup key) (patch.lookup key) := by
  induction patch generalizing fields with
  | nil =>
      rw [mergeMembers]
      rfl
  | cons m rest ih =>
      obtain ⟨hm, hrest⟩ := List.nodup_cons.mp h
      rw [mergeMembers, ih hrest, lookup_mergeMember, List.lookup_cons_eq]
      split_ifs with hkey
      · rw [hkey, List.lookup_of_notMem hm]
        rfl
      · rfl

/-! ## One place -/

inductive Effect where
  | keep
  | set (v : Option Json)
  /-- The patch goes deeper. -/
  | change (patch : Json)

/-- What a patch does to a place. -/
def effect (patch : Json) : List String → Effect
  | [] =>
      match patch with
      | object fields => .change (object fields)
      | v => .set (some v)
  | key :: path =>
      match patch with
      | object fields =>
          match fields.lookup key with
          | none => .keep
          | some null => .set none
          | some v => v.effect path
      | _ => .set none

def Effect.apply : Effect → Option Json → Option Json
  | keep, old => old
  | set v, _ => v
  | change patch, old => some (mergePatch (old.getD null) patch)

def Effect.isKeep : Effect → Bool
  | keep => true
  | _ => false

theorem Effect.eq_keep {effect : Effect} (h : effect.isKeep = true) :
    effect = .keep := by
  cases effect with
  | keep => rfl
  | _ => cases h

theorem ordered_of_lookup {fields : List (String × Json)}
    (h : orderedMembers fields = true) {key : String} {v : Json}
    (hv : fields.lookup key = some v) : v.ordered = true := by
  induction fields with
  | nil => cases hv
  | cons m rest ih =>
      rw [orderedMembers, Bool.and_eq_true] at h
      rw [List.lookup_cons_eq] at hv
      split_ifs at hv
      · cases hv
        rw [orderedMember] at h
        exact h.1
      · exact ih h.2 hv

theorem sorted_of_ordered {fields : List (String × Json)}
    (h : (object fields).ordered = true) :
    Sorted fields ∧ orderedMembers fields = true := by
  rw [ordered, Bool.and_eq_true, decide_eq_true_eq] at h
  exact h

theorem find?_mergePatch {patch : List (String × Json)} (h : Sorted patch)
    (target : Json) (key : String) :
    (mergePatch target (object patch)).find? key =
      mergedAt (target.find? key) (patch.lookup key) := by
  rw [mergePatch, find?_eq, find?_eq]
  exact lookup_mergeMembers h.nodup target.members key

/-- A place that is missing is like one below `null`. -/
theorem Effect.apply_valueAt_null (patch : Json) (path : List String) :
    (patch.effect path).apply (null.valueAt path) =
        (patch.effect path).apply none := by
  cases path with
  | nil => cases patch <;> rfl
  | cons key path => rfl

/-- What is found at a place after a patch. -/
theorem valueAt_mergePatch {patch : Json} (h : patch.ordered = true)
    (target : Json) (path : List String) :
    (mergePatch target patch).valueAt path =
      (patch.effect path).apply (target.valueAt path) := by
  induction path generalizing patch target with
  | nil => cases patch <;> rfl
  | cons key path ih =>
      cases patch with
      | object fields =>
          obtain ⟨hsorted, hmembers⟩ := sorted_of_ordered h
          rw [valueAt, find?_mergePatch hsorted, effect]
          cases hv : fields.lookup key with
          | none => rfl
          | some v =>
              have hordered := ordered_of_lookup hmembers hv
              cases v with
              | null => rfl
              | _ =>
                  simp only [mergedAt, Option.bind_some, ih hordered]
                  rw [valueAt]
                  cases target.find? key with
                  | none => exact Effect.apply_valueAt_null _ path
                  | some old => rfl
      | _ =>
          simp only [mergePatch, effect]
          rfl

end Json
