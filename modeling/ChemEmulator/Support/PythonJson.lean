import ChemEmulator.Support.Json
import ChemEmulator.Support.SortedMembers

/-!
# JSON texts written by Python

`json.dumps` of a value made of the built-in types: all characters but the
printable ASCII ones are escaped, so a text is a single line whatever strings
are in it.  `toJson` is what a parser has to make of such a text.  Two things
are not what they look like: a float that is not finite is written as a name
that is no JSON, and an integer that a 64-bit type does not hold becomes a
float.

How a float is written is a parameter.
-/

namespace List

variable {κ ν : Type*}

/-- The members that have a value. -/
def present (members : List (κ × Option ν)) : List (κ × ν) :=
  members.filterMap fun m => m.2.map fun v => (m.1, v)

theorem present_cons (key : κ) (v : Option ν) (rest : List (κ × Option ν)) :
    present ((key, v) :: rest) =
      (v.map fun v => (key, v)).toList ++ present rest := by
  cases v <;> rfl

theorem map_fst_present_sublist (members : List (κ × Option ν)) :
    ((present members).map Prod.fst).Sublist (members.map Prod.fst) := by
  induction members with
  | nil => exact List.Sublist.slnil
  | cons m rest ih =>
      obtain ⟨key, v⟩ := m
      rw [present_cons]
      cases v with
      | none => exact ih.cons key
      | some v => exact ih.cons_cons key

variable [DecidableEq κ]

theorem lookup_present {members : List (κ × Option ν)}
    (h : (members.map Prod.fst).Nodup) (key : κ) :
    (present members).lookup key = (members.lookup key).join := by
  induction members with
  | nil => rfl
  | cons m rest ih =>
      obtain ⟨k, v⟩ := m
      obtain ⟨hk, hrest⟩ := List.nodup_cons.mp h
      rw [present_cons, lookup_cons_eq]
      have hmissing : (present rest).lookup k = none :=
        lookup_of_notMem fun hmem =>
          hk ((map_fst_present_sublist rest).subset hmem)
      split_ifs with heq
      · cases v with
        | none =>
            rw [heq]
            exact hmissing
        | some v =>
            rw [Option.map_some, Option.toList_some, List.singleton_append,
              lookup_cons_eq, if_pos heq]
            rfl
      · cases v with
        | none => exact ih hrest
        | some v =>
            rw [Option.map_some, Option.toList_some, List.singleton_append,
              lookup_cons_eq, if_neg heq, ih hrest]

end List

inductive PythonValue where
  | none
  | bool (b : Bool)
  | int (n : ℤ)
  | float (x : FloatValue)
  | str (s : String)
  | list (elements : List PythonValue)
  | dict (members : List (String × PythonValue))

namespace PythonValue

open SortedMembers

/-! ## Texts -/

def hexDigit (n : ℕ) : Char :=
  if n < 10 then Char.ofNat (48 + n) else Char.ofNat (87 + n)

/-- `'\\u{0:04x}'.format(n)`. -/
def unicodeEscape (n : ℕ) : List Char :=
  ['\\', 'u', hexDigit (n / 4096 % 16), hexDigit (n / 256 % 16),
    hexDigit (n / 16 % 16), hexDigit (n % 16)]

/-- `py_encode_basestring_ascii` for one character. -/
def escape (c : Char) : List Char :=
  if c = '"' then ['\\', '"']
  else if c = '\\' then ['\\', '\\']
  else if c = '\n' then ['\\', 'n']
  else if c = '\r' then ['\\', 'r']
  else if c = '\t' then ['\\', 't']
  else if c.toNat = 12 then ['\\', 'f']
  else if c.toNat = 8 then ['\\', 'b']
  else if 32 ≤ c.toNat ∧ c.toNat ≤ 126 then [c]
  else if c.toNat < 65536 then unicodeEscape c.toNat
  else
    let n := c.toNat - 65536
    unicodeEscape (55296 + n / 1024) ++ unicodeEscape (56320 + n % 1024)

def quote (s : String) : List Char := '"' :: s.toList.flatMap escape ++ ['"']

variable (floatText : FloatValue → List Char)

mutual

/-- `json.dumps`. -/
def dumps : PythonValue → List Char
  | .none => ['n', 'u', 'l', 'l']
  | .bool true => ['t', 'r', 'u', 'e']
  | .bool false => ['f', 'a', 'l', 's', 'e']
  | .int n => (toString n).toList
  | .float x => floatText x
  | .str s => quote s
  | .list elements => '[' :: (dumpsElements elements ++ [']'])
  | .dict members => '{' :: (dumpsMembers members ++ ['}'])

def dumpsElements : List PythonValue → List Char
  | [] => []
  | v :: rest =>
      dumps v ++ if rest.isEmpty then [] else ',' :: ' ' :: dumpsElements rest

def dumpsMembers : List (String × PythonValue) → List Char
  | [] => []
  | m :: rest =>
      dumpsMember m ++ if rest.isEmpty then []
        else ',' :: ' ' :: dumpsMembers rest

def dumpsMember : String × PythonValue → List Char
  | (key, v) => quote key ++ ':' :: ' ' :: dumps v

end

/-! ## A text is one line -/

def Printable (c : Char) : Prop := 32 ≤ c.toNat ∧ c.toNat ≤ 126

instance (c : Char) : Decidable (Printable c) :=
  inferInstanceAs (Decidable (_ ∧ _))

theorem printable_of_all {xs : List Char}
    (h : xs.all (fun c => decide (Printable c)) = true) :
    ∀ c ∈ xs, Printable c :=
  fun c hc => of_decide_eq_true (List.all_eq_true.mp h c hc)

theorem printable_hexDigit {n : ℕ} (h : n < 16) : Printable (hexDigit n) := by
  have hall : ∀ m < 16, Printable (hexDigit m) := by decide
  exact hall n h

theorem printable_unicodeEscape (n : ℕ) :
    ∀ c ∈ unicodeEscape n, Printable c := by
  intro c hc
  simp only [unicodeEscape, List.mem_cons, List.not_mem_nil, or_false] at hc
  rcases hc with rfl | rfl | rfl | rfl | rfl | rfl
  · decide
  · decide
  all_goals exact printable_hexDigit (Nat.mod_lt _ (by decide))

theorem printable_escape (c : Char) : ∀ e ∈ escape c, Printable e := by
  unfold escape
  split_ifs with _ _ _ _ _ _ _ hprintable
  all_goals try exact printable_of_all (by decide)
  · intro e he
    rw [List.mem_singleton.mp he]
    exact hprintable
  · exact printable_unicodeEscape _
  · intro e he
    rcases List.mem_append.mp he with he | he
    · exact printable_unicodeEscape _ e he
    · exact printable_unicodeEscape _ e he

theorem printable_quote (s : String) : ∀ c ∈ quote s, Printable c := by
  intro c hc
  rw [quote, List.mem_append, List.mem_cons, List.mem_flatMap,
    List.mem_singleton] at hc
  rcases hc with (rfl | ⟨e, -, he⟩) | rfl
  · decide
  · exact printable_escape e c he
  · decide

theorem printable_toString_nat (n : ℕ) : ∀ c ∈ (toString n).toList,
    Printable c := by
  intro c hc
  rw [Nat.toString_eq_ofList_toDigits, String.toList_ofList] at hc
  have hdigit := Nat.isDigit_of_mem_toDigits (by decide) (by decide) hc
  rw [Char.isDigit, Bool.and_eq_true, decide_eq_true_eq,
    decide_eq_true_eq] at hdigit
  obtain ⟨hlow, hhigh⟩ := hdigit
  rw [ge_iff_le, UInt32.le_iff_toNat_le] at hlow
  rw [UInt32.le_iff_toNat_le] at hhigh
  exact ⟨le_trans (by decide) hlow, le_trans hhigh (by decide)⟩

theorem printable_toString_int (n : ℤ) : ∀ c ∈ (toString n).toList,
    Printable c := by
  cases n with
  | ofNat n => exact printable_toString_nat n
  | negSucc n =>
      intro c hc
      have htext : (toString (Int.negSucc n)).toList =
          '-' :: (toString (n + 1)).toList := by
        change ("-" ++ toString (n + 1)).toList = _
        rw [String.toList_append]
        rfl
      rw [htext, List.mem_cons] at hc
      rcases hc with rfl | hc
      · decide
      · exact printable_toString_nat _ c hc

variable {floatText}

theorem printable_append {xs ys : List Char} (hxs : ∀ c ∈ xs, Printable c)
    (hys : ∀ c ∈ ys, Printable c) : ∀ c ∈ xs ++ ys, Printable c := by
  intro c hc
  rcases List.mem_append.mp hc with hc | hc
  · exact hxs c hc
  · exact hys c hc

theorem printable_cons {x : Char} {xs : List Char} (hx : Printable x)
    (hxs : ∀ c ∈ xs, Printable c) : ∀ c ∈ x :: xs, Printable c := by
  intro c hc
  rcases List.mem_cons.mp hc with rfl | hc
  · exact hx
  · exact hxs c hc

mutual

/-- Whatever the strings in a value are, its text is one line. -/
theorem printable_dumps
    (hfloat : ∀ x, ∀ c ∈ floatText x, Printable c) :
    ∀ v : PythonValue, ∀ c ∈ dumps floatText v, Printable c
  | .none => by
      rw [dumps]
      exact printable_of_all (by decide)
  | .bool true => by
      rw [dumps]
      exact printable_of_all (by decide)
  | .bool false => by
      rw [dumps]
      exact printable_of_all (by decide)
  | .int n => by
      rw [dumps]
      exact printable_toString_int n
  | .float x => by
      rw [dumps]
      exact hfloat x
  | .str s => by
      rw [dumps]
      exact printable_quote s
  | .list elements => by
      rw [dumps]
      exact printable_cons (by decide)
        (printable_append (printable_dumpsElements hfloat elements)
          (printable_of_all (by decide)))
  | .dict members => by
      rw [dumps]
      exact printable_cons (by decide)
        (printable_append (printable_dumpsMembers hfloat members)
          (printable_of_all (by decide)))

theorem printable_dumpsElements
    (hfloat : ∀ x, ∀ c ∈ floatText x, Printable c) :
    ∀ elements, ∀ c ∈ dumpsElements floatText elements, Printable c
  | [] => by
      rw [dumpsElements]
      exact nofun
  | v :: rest => by
      rw [dumpsElements]
      refine printable_append (printable_dumps hfloat v) ?_
      split_ifs
      · exact nofun
      · exact printable_cons (by decide) (printable_cons (by decide)
          (printable_dumpsElements hfloat rest))

theorem printable_dumpsMembers
    (hfloat : ∀ x, ∀ c ∈ floatText x, Printable c) :
    ∀ members, ∀ c ∈ dumpsMembers floatText members, Printable c
  | [] => by
      rw [dumpsMembers]
      exact nofun
  | m :: rest => by
      rw [dumpsMembers]
      refine printable_append (printable_dumpsMember hfloat m) ?_
      split_ifs
      · exact nofun
      · exact printable_cons (by decide) (printable_cons (by decide)
          (printable_dumpsMembers hfloat rest))

theorem printable_dumpsMember
    (hfloat : ∀ x, ∀ c ∈ floatText x, Printable c) :
    ∀ m, ∀ c ∈ dumpsMember floatText m, Printable c
  | (key, v) => by
      rw [dumpsMember]
      exact printable_append (printable_quote key) (printable_cons (by decide)
        (printable_cons (by decide) (printable_dumps hfloat v)))

end

/-! ## Values -/

/-- An object of the parser is sorted by its keys; a key that comes again
replaces the first one. -/
def sortMembers (members : List (String × Json)) : List (String × Json) :=
  members.foldl (fun sorted m => insertMember m sorted) []

/-- `INT64_MIN` and `UINT64_MAX` are the bounds. -/
def intToJson (n : ℤ) : Json :=
  if -2 ^ 63 ≤ n ∧ n < 2 ^ 64 then .integer n
  else .float (FloatValue.roundBinary 53 n)

mutual

/-- What a parser makes of the text; there is none for a float that is not
finite. -/
def toJson : PythonValue → Option Json
  | .none => some .null
  | .bool b => some (.boolean b)
  | .int n => some (intToJson n)
  | .float (.finite x) => some (.float x)
  | .float (.infinite _) => Option.none
  | .float .nan => Option.none
  | .str s => some (.string s)
  | .list elements => (elementsToJson elements).map Json.array
  | .dict members =>
      (membersToJson members).map fun ms => .object (sortMembers ms)

def elementsToJson : List PythonValue → Option (List Json)
  | [] => some []
  | v :: rest => do
      let j ← toJson v
      let js ← elementsToJson rest
      return j :: js

def membersToJson : List (String × PythonValue) → Option (List (String × Json))
  | [] => some []
  | m :: rest => do
      let j ← memberToJson m
      let js ← membersToJson rest
      return j :: js

def memberToJson : String × PythonValue → Option (String × Json)
  | (key, v) => (toJson v).map fun j => (key, j)

end

/-! ## What is found in an object -/

theorem lookup_foldl_insertMember {members : List (String × Json)}
    (h : (members.map Prod.fst).Nodup) (sorted : List (String × Json))
    (key : String) :
    (members.foldl (fun sorted m => insertMember m sorted) sorted).lookup
      key = (members.lookup key).or (sorted.lookup key) := by
  induction members generalizing sorted with
  | nil => rfl
  | cons m rest ih =>
      obtain ⟨hm, hrest⟩ := List.nodup_cons.mp h
      rw [List.foldl_cons, ih hrest, lookup_insertMember, List.lookup_cons_eq]
      split_ifs with hkey
      · rw [hkey, List.lookup_of_notMem hm]
        rfl
      · rfl

theorem lookup_sortMembers {members : List (String × Json)}
    (h : (members.map Prod.fst).Nodup) (key : String) :
    (sortMembers members).lookup key = members.lookup key := by
  rw [sortMembers, lookup_foldl_insertMember h, List.lookup_nil,
    Option.or_none]

theorem mem_foldl_insertMember {f : String × Json}
    {members sorted : List (String × Json)}
    (h : f ∈ members.foldl (fun sorted m => insertMember m sorted) sorted) :
    f ∈ members ∨ f ∈ sorted := by
  induction members generalizing sorted with
  | nil => exact Or.inr h
  | cons m rest ih =>
      rcases ih h with hrest | hsorted
      · exact Or.inl (List.mem_cons_of_mem m hrest)
      · rcases mem_insertMember hsorted with rfl | hsorted
        · exact Or.inl List.mem_cons_self
        · exact Or.inr hsorted

theorem mem_sortMembers {f : String × Json} {members : List (String × Json)}
    (h : f ∈ sortMembers members) : f ∈ members :=
  (mem_foldl_insertMember h).resolve_right List.not_mem_nil

theorem membersToJson_some {members : List (String × PythonValue)}
    {ms : List (String × Json)} (h : membersToJson members = some ms) :
    ms.map Prod.fst = members.map Prod.fst ∧
      (∀ key, ms.lookup key = (members.lookup key).bind toJson) ∧
      ∀ key v, members.lookup key = some v → (toJson v).isSome = true := by
  induction members generalizing ms with
  | nil =>
      cases h
      exact ⟨rfl, fun _ => rfl, nofun⟩
  | cons m rest ih =>
      obtain ⟨k, v⟩ := m
      simp only [membersToJson, memberToJson, Option.bind_eq_bind,
        Option.bind_eq_some_iff, Option.map_eq_some_iff] at h
      obtain ⟨m', ⟨j, hj, rfl⟩, js, hjs, hms⟩ := h
      cases hms
      obtain ⟨hkeys, hlookup, hreadable⟩ := ih hjs
      refine ⟨by rw [List.map_cons, List.map_cons, hkeys], ?_, ?_⟩
      · intro key
        rw [List.lookup_cons_eq, List.lookup_cons_eq, hlookup key]
        split_ifs
        · exact hj.symm
        · rfl
      · intro key w hw
        rw [List.lookup_cons_eq] at hw
        split_ifs at hw
        · cases hw
          exact Option.isSome_iff_exists.mpr ⟨j, hj⟩
        · exact hreadable key w hw

/-- What a parser makes of an object. -/
theorem toJson_dict {members : List (String × PythonValue)} {j : Json}
    (h : toJson (.dict members) = some j)
    (hkeys : (members.map Prod.fst).Nodup) :
    ∃ fields, j = .object fields ∧
      (∀ f ∈ fields, f.1 ∈ members.map Prod.fst) ∧
      (∀ key, fields.lookup key = (members.lookup key).bind toJson) ∧
      ∀ key v, members.lookup key = some v → (toJson v).isSome = true := by
  rw [toJson, Option.map_eq_some_iff] at h
  obtain ⟨ms, hms, rfl⟩ := h
  obtain ⟨hfst, hlookup, hreadable⟩ := membersToJson_some hms
  refine ⟨sortMembers ms, rfl, ?_, ?_, hreadable⟩
  · intro f hf
    rw [← hfst]
    exact List.mem_map_of_mem (mem_sortMembers hf)
  · intro key
    rw [lookup_sortMembers (hfst ▸ hkeys), hlookup]

mutual

/-- There is no infinity in the value, and nothing that is not a number. -/
def isFinite : PythonValue → Bool
  | .none => true
  | .bool _ => true
  | .int _ => true
  | .float x => x.isfinite
  | .str _ => true
  | .list elements => isFiniteElements elements
  | .dict members => isFiniteMembers members

def isFiniteElements : List PythonValue → Bool
  | [] => true
  | v :: rest => isFinite v && isFiniteElements rest

def isFiniteMembers : List (String × PythonValue) → Bool
  | [] => true
  | m :: rest => isFiniteMember m && isFiniteMembers rest

def isFiniteMember : String × PythonValue → Bool
  | (_, v) => isFinite v

end

theorem isSome_bind_cons {α : Type*} (x : Option α) (xs : Option (List α)) :
    (x.bind fun a => xs.bind fun as => some (a :: as)).isSome =
      (x.isSome && xs.isSome) := by
  cases x <;> cases xs <;> rfl

mutual

/-- Only a float that is not finite keeps a text from being JSON. -/
theorem isSome_toJson : ∀ v : PythonValue, (toJson v).isSome = isFinite v
  | .none => by rw [toJson, isFinite, Option.isSome_some]
  | .bool _ => by rw [toJson, isFinite, Option.isSome_some]
  | .int _ => by rw [toJson, isFinite, Option.isSome_some]
  | .float (.finite _) => by
      rw [toJson, isFinite]
      rfl
  | .float (.infinite _) => by
      rw [toJson, isFinite]
      rfl
  | .float .nan => by
      rw [toJson, isFinite]
      rfl
  | .str _ => by rw [toJson, isFinite, Option.isSome_some]
  | .list elements => by
      rw [toJson, isFinite, Option.isSome_map, isSome_elementsToJson elements]
  | .dict members => by
      rw [toJson, isFinite, Option.isSome_map, isSome_membersToJson members]

theorem isSome_elementsToJson : ∀ elements : List PythonValue,
    (elementsToJson elements).isSome = isFiniteElements elements
  | [] => by rw [elementsToJson, isFiniteElements, Option.isSome_some]
  | v :: rest => by
      rw [elementsToJson, isFiniteElements, ← isSome_toJson v,
        ← isSome_elementsToJson rest]
      exact isSome_bind_cons _ _

theorem isSome_membersToJson : ∀ members : List (String × PythonValue),
    (membersToJson members).isSome = isFiniteMembers members
  | [] => by rw [membersToJson, isFiniteMembers, Option.isSome_some]
  | m :: rest => by
      rw [membersToJson, isFiniteMembers, ← isSome_memberToJson m,
        ← isSome_membersToJson rest]
      exact isSome_bind_cons _ _

theorem isSome_memberToJson : ∀ m : String × PythonValue,
    (memberToJson m).isSome = isFiniteMember m
  | (key, v) => by
      rw [memberToJson, isFiniteMember, Option.isSome_map, isSome_toJson v]

end

theorem toJson_float {x : FloatValue}
    (h : (toJson (.float x)).isSome = true) :
    ∃ q, x = .finite q ∧ toJson (.float x) = some (.float q) := by
  rw [isSome_toJson, isFinite] at h
  cases x with
  | finite q => exact ⟨q, rfl, by rw [toJson]⟩
  | infinite negative => cases h
  | nan => cases h

end PythonValue
