import ChemEmulator.Support.FloatValue

/-!
# JSON values

Values of a JSON library whose accessors throw: converting a value to a type it
does not have, and looking a key up in something that is no object.  An
accessor has no result where the library throws.

`Kind` says which values a conversion takes, `Json.has` and `Json.allows`
whether a field that is needed, or one that may be left out, can be read.
-/

inductive Json where
  | null
  | boolean (b : Bool)
  | integer (n : ℤ)
  | float (x : ℚ)
  | string (s : String)
  | array (elements : List Json)
  | object (fields : List (String × Json))

namespace Json

def isBoolean : Json → Bool
  | boolean _ => true
  | _ => false

def isNumber : Json → Bool
  | integer _ => true
  | float _ => true
  | _ => false

def isString : Json → Bool
  | string _ => true
  | _ => false

/-! ## Conversions -/

def getBoolean : Json → Option Bool
  | boolean b => some b
  | _ => none

def getString : Json → Option String
  | string s => some s
  | _ => none

/-- Conversion to a floating-point type whose significand has `p` digits.  What
is beyond the largest `float` becomes an infinity there and stays a number
here. -/
def getFloat (p : ℕ) : Json → Option ℚ
  | integer n => some (FloatValue.roundBinary p n)
  | float x => some (FloatValue.roundBinary p x)
  | _ => none

/-- Conversion to `double`, the type in which floats are stored. -/
def getDouble : Json → Option ℚ
  | integer n => some (FloatValue.roundBinary 53 n)
  | float x => some x
  | _ => none

/-- Conversion to an unsigned integer of 64 bits. -/
def getUnsigned : Json → Option ℕ
  | integer n => some (n % 2 ^ 64).toNat
  | float x => some (FloatValue.toUnsigned (.finite x))
  | _ => none

/-- Conversion to `int`.  A type that is none of the library's own also takes
a boolean.  The language does not define what a float out of range becomes. -/
def getInt : Json → Option Int32
  | integer n => some (Int32.ofInt n)
  | float x => some (Int32.ofInt (FloatValue.truncate x))
  | boolean b => some (if b then 1 else 0)
  | _ => none

/-! ## Objects -/

/-- The value under a key of an object; `at` throws where there is none. -/
def find? : Json → String → Option Json
  | object fields, key => fields.lookup key
  | _, _ => none

def contains (j : Json) (key : String) : Bool := (j.find? key).isSome

/-- `operator[]`: `null` becomes an object, and a missing key is added with
the value `null`. -/
def index : Json → String → Option Json
  | object fields, key => some ((fields.lookup key).getD null)
  | null, _ => some null
  | _, _ => none

/-- `j[key] = v`. -/
def assign : Json → String → Json → Option Json
  | object fields, key, v =>
      some (object ((key, v) :: fields.filter fun f => f.1 != key))
  | null, key, v => some (object [(key, v)])
  | _, _, _ => none

/-- The members that have a value. -/
def given : List (String × Option Json) → List (String × Json)
  | [] => []
  | (_, none) :: rest => given rest
  | (key, some v) :: rest => (key, v) :: given rest

/-- `null` after these members have been assigned to it. -/
def assigned (members : List (String × Option Json)) : Json :=
  match given members with
  | [] => null
  | fields => object fields

section Reading

variable {α : Type*} (get : Json → Option α)

/-- `T x = j[key]`. -/
def read (j : Json) (key : String) : Option α := (j.index key).bind get

/-- `j.value(key, default)`. -/
def value (j : Json) (key : String) (default : α) : Option α :=
  match j with
  | object fields =>
      match fields.lookup key with
      | none => some default
      | some v => get v
  | _ => none

end Reading

/-- A number under a key, if there is one. -/
def numberAt (j : Json) (key : String) : Option Json :=
  (j.find? key).filter isNumber

/-- A string under a key, if there is one. -/
def stringAt (j : Json) (key : String) : Option String :=
  (j.find? key).bind getString

/-! ## What a conversion takes -/

inductive Kind where
  | number
  /-- A number or a boolean. -/
  | arithmetic
  | text
  | flag
deriving DecidableEq

def Kind.admits : Kind → Json → Bool
  | .number, j => j.isNumber
  | .arithmetic, j => j.isNumber || j.isBoolean
  | .text, j => j.isString
  | .flag, j => j.isBoolean

/-- The conversion takes exactly the values of a kind. -/
def Takes {α : Type*} (get : Json → Option α) (kind : Kind) : Prop :=
  ∀ j, (get j).isSome = kind.admits j

theorem takes_getBoolean : Takes getBoolean .flag := by
  intro j
  cases j <;> rfl

theorem takes_getString : Takes getString .text := by
  intro j
  cases j <;> rfl

theorem takes_getDouble : Takes getDouble .number := by
  intro j
  cases j <;> rfl

theorem takes_getUnsigned : Takes getUnsigned .number := by
  intro j
  cases j <;> rfl

theorem takes_getInt : Takes getInt .arithmetic := by
  intro j
  cases j <;> rfl

structure Field where
  key : String
  kind : Kind
deriving DecidableEq

/-- The field is there, with a value of its kind. -/
def has (j : Json) (field : Field) : Bool :=
  (j.find? field.key).any field.kind.admits

/-- The field is missing, or has a value of its kind. -/
def allows (j : Json) (field : Field) : Bool :=
  (j.find? field.key).all field.kind.admits

variable {α : Type*} {get : Json → Option α} {kind : Kind}

/-- Reading goes on in the same way whatever has been read. -/
theorem any_const (x : Option α) (b : Bool) :
    (x.any fun _ => b) = (x.isSome && b) := by
  cases x <;> rfl

theorem isSome_read (h : Takes get kind) (fields : List (String × Json))
    (key : String) :
    (read get (object fields) key).isSome =
      (object fields).has ⟨key, kind⟩ := by
  have hnull : kind.admits null = false := by cases kind <;> rfl
  simp only [read, index, has, find?, Option.bind_some, h _]
  cases fields.lookup key with
  | none => exact hnull
  | some v => rfl

theorem isSome_value (h : Takes get kind) (fields : List (String × Json))
    (key : String) (default : α) :
    (value get (object fields) key default).isSome =
      (object fields).allows ⟨key, kind⟩ := by
  simp only [value, allows, find?]
  cases fields.lookup key with
  | none => rfl
  | some v => exact h v

theorem value_of_missing {fields : List (String × Json)} {key : String}
    (h : (object fields).contains key = false) (default : α) :
    value get (object fields) key default = some default := by
  have hlookup : fields.lookup key = none := by
    simpa [contains, find?] using h
  simp [value, hlookup]

/-- A field that may be left out and is read only if it is there. -/
theorem isSome_read_of_contains (h : Takes get kind)
    (fields : List (String × Json)) (key : String) :
    ((object fields).contains key = true →
        (read get (object fields) key).isSome = true) ↔
      (object fields).allows ⟨key, kind⟩ = true := by
  rw [isSome_read h]
  simp only [contains, has, allows, find?]
  cases fields.lookup key with
  | none => simp
  | some v => simp

theorem lookup_given {members : List (String × Option Json)}
    (h : (members.map Prod.fst).Nodup) (key : String) :
    (given members).lookup key = (members.lookup key).join := by
  induction members with
  | nil => rfl
  | cons m rest ih =>
      obtain ⟨k, v⟩ := m
      obtain ⟨hk, hrest⟩ := List.nodup_cons.mp h
      rw [List.lookup_cons]
      by_cases heq : key = k
      · subst heq
        rw [beq_self_eq_true]
        cases v with
        | none =>
            have hnone : rest.lookup key = none := by
              rw [List.lookup_eq_none_iff]
              intro m hm
              have hne : key ≠ m.1 := by
                rintro rfl
                exact hk (List.mem_map.mpr ⟨m, hm, rfl⟩)
              exact bne_iff_ne.mpr hne
            rw [given, ih hrest, hnone]
            rfl
        | some v =>
            rw [given, List.lookup_cons, beq_self_eq_true]
            rfl
      · rw [beq_false_of_ne heq, ← ih hrest]
        cases v with
        | none => rw [given]
        | some v => rw [given, List.lookup_cons, beq_false_of_ne heq]

/-- What is found under a key is what has been assigned to it. -/
theorem find?_assigned {members : List (String × Option Json)}
    (h : (members.map Prod.fst).Nodup) (key : String) :
    (assigned members).find? key = (members.lookup key).join := by
  rw [← lookup_given h, assigned]
  split
  next hnil =>
    rw [hnil]
    rfl
  · rfl

/-! ## Footprints -/

/-- The values differ in no other member. -/
def SameBut (key : String) (j j' : Json) : Prop :=
  ∀ other, other ≠ key → j.find? other = j'.find? other

/-- The function looks at these members only. -/
def Reads {β : Type*} (keys : List String) (f : Json → β) : Prop :=
  ∀ ⦃j j'⦄, (∀ key ∈ keys, j.find? key = j'.find? key) → f j = f j'

theorem Reads.eq_of_sameBut {β : Type*} {keys : List String} {f : Json → β}
    (hf : Reads keys f) {key : String} {j j' : Json} (h : SameBut key j j')
    (hkey : key ∉ keys) : f j = f j' := by
  apply hf
  intro other hother
  apply h
  rintro rfl
  exact hkey hother

theorem Reads.eq_of_ne {β : Type*} {member : String} {f : Json → β}
    (hf : Reads [member] f) {key : String} {j j' : Json}
    (h : SameBut key j j') (hne : key ≠ member) : f j = f j' :=
  hf.eq_of_sameBut h fun hmem => hne (List.mem_singleton.mp hmem)

theorem reads_stringAt (key : String) : Reads [key] (stringAt · key) := by
  intro j j' h
  simp only [stringAt, h key (List.mem_singleton_self key)]

theorem reads_contains (key : String) : Reads [key] (contains · key) := by
  intro j j' h
  simp only [contains, h key (List.mem_singleton_self key)]

end Json
