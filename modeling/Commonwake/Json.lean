import Mathlib.Tactic

/-!
# JSON values

Values as a JSON library keeps them after reading: a number is an integer or
a binary64 float, and the members of an object are listed in the order of
the library's sorted map.  Two encoders of one value differ only in how they
write numbers, so the only traversal needed is the one which replaces the
numbers of a value.
-/

/-- A number of a JSON value.  The two constructors are different values even
when they denote the same real number. -/
inductive JsonNumber where
  | int (n : ℤ)
  | float (bits : UInt64)
  deriving DecidableEq, Repr

inductive Json where
  | null
  | bool (b : Bool)
  | number (n : JsonNumber)
  | string (s : String)
  | array (items : List Json)
  | object (members : List (String × Json))

namespace Json

instance : Inhabited Json := ⟨.null⟩

/-! ## Equality -/

mutual

/-- Boolean equality of two values. -/
def eqb : Json → Json → Bool
  | .null, .null => true
  | .bool a, .bool b => a == b
  | .number a, .number b => a == b
  | .string a, .string b => a == b
  | .array a, .array b => eqbItems a b
  | .object a, .object b => eqbMembers a b
  | _, _ => false

def eqbItems : List Json → List Json → Bool
  | [], [] => true
  | a :: as, b :: bs => eqb a b && eqbItems as bs
  | _, _ => false

def eqbMembers : List (String × Json) → List (String × Json) → Bool
  | [], [] => true
  | (k, a) :: as, (l, b) :: bs => (k == l && eqb a b) && eqbMembers as bs
  | _, _ => false

end

mutual

theorem eqb_iff : ∀ a b : Json, eqb a b = true ↔ a = b
  | .null, b => by cases b <;> simp [eqb]
  | .bool a, b => by cases b <;> simp [eqb]
  | .number a, b => by cases b <;> simp [eqb]
  | .string a, b => by cases b <;> simp [eqb]
  | .array a, b => by
      cases b with
      | array b => simp [eqb, eqbItems_iff a b]
      | _ => simp [eqb]
  | .object a, b => by
      cases b with
      | object b => simp [eqb, eqbMembers_iff a b]
      | _ => simp [eqb]

theorem eqbItems_iff : ∀ a b : List Json, eqbItems a b = true ↔ a = b
  | [], b => by cases b <;> simp [eqbItems]
  | a :: as, b => by
      cases b with
      | nil => simp [eqbItems]
      | cons b bs => simp [eqbItems, eqb_iff a b, eqbItems_iff as bs]

theorem eqbMembers_iff :
    ∀ a b : List (String × Json), eqbMembers a b = true ↔ a = b
  | [], b => by cases b <;> simp [eqbMembers]
  | (k, a) :: as, b => by
      cases b with
      | nil => simp [eqbMembers]
      | cons head bs =>
          obtain ⟨l, b⟩ := head
          simp [eqbMembers, eqb_iff a b, eqbMembers_iff as bs]

end

instance : DecidableEq Json := fun a b =>
  decidable_of_iff (eqb a b = true) (eqb_iff a b)

/-! ## Replacing the numbers of a value -/

mutual

/-- Replace every number of a value. -/
def mapNumbers (f : JsonNumber → JsonNumber) : Json → Json
  | .null => .null
  | .bool b => .bool b
  | .number n => .number (f n)
  | .string s => .string s
  | .array items => .array (mapItems f items)
  | .object members => .object (mapMembers f members)

def mapItems (f : JsonNumber → JsonNumber) : List Json → List Json
  | [] => []
  | v :: rest => mapNumbers f v :: mapItems f rest

def mapMembers (f : JsonNumber → JsonNumber) :
    List (String × Json) → List (String × Json)
  | [] => []
  | (key, v) :: rest => (key, mapNumbers f v) :: mapMembers f rest

end

section

variable (f : JsonNumber → JsonNumber)

@[simp] theorem mapNumbers_null : mapNumbers f .null = .null := rfl

@[simp] theorem mapNumbers_bool (b : Bool) :
    mapNumbers f (.bool b) = .bool b := rfl

@[simp] theorem mapNumbers_number (n : JsonNumber) :
    mapNumbers f (.number n) = .number (f n) := rfl

@[simp] theorem mapNumbers_string (s : String) :
    mapNumbers f (.string s) = .string s := rfl

@[simp] theorem mapNumbers_array (items : List Json) :
    mapNumbers f (.array items) = .array (items.map (mapNumbers f)) := by
  have h : ∀ items : List Json,
      mapItems f items = items.map (mapNumbers f) := by
    intro items
    induction items with
    | nil => rfl
    | cons v rest ih => simp [mapItems, ih]
  simp [mapNumbers, h]

@[simp] theorem mapNumbers_object (members : List (String × Json)) :
    mapNumbers f (.object members) =
      .object (members.map fun member => (member.1, mapNumbers f member.2)) := by
  have h : ∀ members : List (String × Json),
      mapMembers f members =
        members.map fun member => (member.1, mapNumbers f member.2) := by
    intro members
    induction members with
    | nil => rfl
    | cons member rest ih =>
        obtain ⟨key, v⟩ := member
        simp [mapMembers, ih]
  simp [mapNumbers, h]

end

mutual

/-- Two replacements after each other are one. -/
theorem mapNumbers_mapNumbers (f g : JsonNumber → JsonNumber) :
    ∀ v : Json, (v.mapNumbers f).mapNumbers g = v.mapNumbers fun n => g (f n)
  | .null => rfl
  | .bool _ => rfl
  | .number _ => rfl
  | .string _ => rfl
  | .array items => by
      simp only [mapNumbers, mapItems_mapItems f g items]
  | .object members => by
      simp only [mapNumbers, mapMembers_mapMembers f g members]

theorem mapItems_mapItems (f g : JsonNumber → JsonNumber) :
    ∀ items : List Json,
      mapItems g (mapItems f items) = mapItems (fun n => g (f n)) items
  | [] => rfl
  | v :: rest => by
      simp only [mapItems, mapNumbers_mapNumbers f g v, mapItems_mapItems f g rest]

theorem mapMembers_mapMembers (f g : JsonNumber → JsonNumber) :
    ∀ members : List (String × Json),
      mapMembers g (mapMembers f members) = mapMembers (fun n => g (f n)) members
  | [] => rfl
  | (key, v) :: rest => by
      simp only [mapMembers, mapNumbers_mapNumbers f g v,
        mapMembers_mapMembers f g rest]

end

/-! ## Object members -/

/-- The member of an object with the given key. -/
def get? (value : Json) (key : String) : Option Json :=
  match value with
  | .object members => members.lookup key
  | _ => none

theorem lookup_mapNumbers (f : JsonNumber → JsonNumber)
    (members : List (String × Json)) (key : String) :
    (members.map fun member => (member.1, mapNumbers f member.2)).lookup key =
      (members.lookup key).map (mapNumbers f) := by
  induction members with
  | nil => rfl
  | cons member rest ih =>
      obtain ⟨name, v⟩ := member
      simp only [List.map_cons, List.lookup_cons]
      cases key == name <;> simp [ih]

theorem get?_mapNumbers (f : JsonNumber → JsonNumber) (value : Json)
    (key : String) :
    (mapNumbers f value).get? key = (value.get? key).map (mapNumbers f) := by
  cases value with
  | object members =>
      rw [mapNumbers_object]
      exact lookup_mapNumbers f members key
  | array items => simp [get?]
  | _ => simp [get?]

def isObject : Json → Bool
  | .object _ => true
  | _ => false

def isNull : Json → Bool
  | .null => true
  | _ => false

/-- Remove a member of an object. -/
def remove (key : String) : Json → Json
  | .object members => .object (members.filter fun member => member.1 != key)
  | value => value

theorem remove_mapNumbers (f : JsonNumber → JsonNumber) (key : String)
    (value : Json) :
    (mapNumbers f value).remove key = mapNumbers f (value.remove key) := by
  cases value with
  | object members =>
      simp [remove, List.filter_map, Function.comp_def]
  | array items => simp [remove]
  | _ => simp [remove]

end Json
