import Commonwake.Json

/-!
# Reading typed values from JSON

The decoders which a derived `Deserialize` with unknown fields denied
amounts to.  A structure is read from an object whose keys are all declared,
or from an array with the fields in declaration order; an enumeration of
unit variants is read from its name, or from an object with that single name
and `null`.  A decoder which fails returns `none`.
-/

namespace Serde

variable {α β : Type}

/-- The members from which a structure with the declared fields is read. -/
def fields (declared : List String) : Json → Option (List (String × Json))
  | .object members =>
      if members.all (fun member => declared.contains member.1)
      then some members else none
  | .array items =>
      if items.length ≤ declared.length
      then some (declared.zip items) else none
  | _ => none

/-- A field which must be present. -/
def required (decode : Json → Option α) (members : List (String × Json))
    (key : String) : Option α :=
  match members.lookup key with
  | some value => decode value
  | none => none

/-- A field with a default. -/
def defaulted (decode : Json → Option α) (default : α)
    (members : List (String × Json)) (key : String) : Option α :=
  match members.lookup key with
  | some value => decode value
  | none => some default

/-- An optional value: `null` is absence. -/
def nullable (decode : Json → Option α) : Json → Option (Option α)
  | .null => some none
  | value => (decode value).map some

/-- A field of an option type. -/
def optional (decode : Json → Option α) (members : List (String × Json))
    (key : String) : Option (Option α) :=
  defaulted (nullable decode) none members key

def value : Json → Option Json := some

def string : Json → Option String
  | .string s => some s
  | _ => none

def bool : Json → Option Bool
  | .bool b => some b
  | _ => none

/-- An integer type with the given bounds, the upper one excluded. -/
def bounded (low high : ℤ) : Json → Option ℤ
  | .number (.int n) => if low ≤ n ∧ n < high then some n else none
  | _ => none

def i64 : Json → Option ℤ := bounded (-2 ^ 63) (2 ^ 63)

def u64 : Json → Option ℤ := bounded 0 (2 ^ 64)

def u32 : Json → Option ℤ := bounded 0 (2 ^ 32)

def items (decode : Json → Option α) : List Json → Option (List α)
  | [] => some []
  | v :: rest => do
      let a ← decode v
      let as ← items decode rest
      pure (a :: as)

def list (decode : Json → Option α) : Json → Option (List α)
  | .array values => items decode values
  | _ => none

/-- An enumeration of unit variants, given by the names of its values. -/
def enumeration (table : List (String × α)) : Json → Option α
  | .string name => table.lookup name
  | .object [(name, .null)] => table.lookup name
  | _ => none

/-! ## Writing -/

def strings (values : List String) : Json :=
  .array (values.map .string)

def int (n : ℤ) : Json := .number (.int n)

/-- A member which is left out when its value is absent. -/
def skipNone (key : String) (encode : α → Json) :
    Option α → List (String × Json)
  | some a => [(key, encode a)]
  | none => []

/-- A member which is written as `null` when its value is absent. -/
def nullOr (encode : α → Json) : Option α → Json
  | some a => encode a
  | none => .null

/-! ## Reading what was written -/

@[simp] theorem string_string (s : String) : string (.string s) = some s := rfl

@[simp] theorem bool_bool (b : Bool) : bool (.bool b) = some b := rfl

@[simp] theorem value_eq (v : Json) : value v = some v := rfl

theorem items_map {decode : Json → Option β} {encode : α → Json} {g : α → β}
    {as : List α} (h : ∀ a ∈ as, decode (encode a) = some (g a)) :
    items decode (as.map encode) = some (as.map g) := by
  induction as with
  | nil => rfl
  | cons a rest ih =>
      have hrest := ih fun b hb => h b (List.mem_cons_of_mem a hb)
      simp [items, h a List.mem_cons_self, hrest]

@[simp] theorem list_strings (values : List String) :
    list string (strings values) = some values := by
  have h : items string (values.map Json.string) = some (values.map id) :=
    items_map fun a _ => rfl
  simpa [list, strings] using h

@[simp] theorem strings_mapNumbers (f : JsonNumber → JsonNumber)
    (values : List String) :
    (strings values).mapNumbers f = strings values := by
  simp [strings, Function.comp_def]

/-! ## Rewriting the numbers of a value -/

section

variable {f : JsonNumber → JsonNumber}

/-- What the decoder reads does not depend on how numbers are written. -/
def Stable (f : JsonNumber → JsonNumber) (decode : Json → Option α) : Prop :=
  ∀ value x, decode value = some x → decode (value.mapNumbers f) = some x

theorem stable_string : Stable f string := by
  intro value x h
  cases value with
  | string s => exact h
  | _ => cases h

theorem stable_enumeration (table : List (String × α)) :
    Stable f (enumeration table) := by
  intro value x h
  unfold enumeration at h
  split at h
  · exact h
  · exact h
  · cases h

theorem stable_bounded {low high : ℤ}
    (hf : ∀ n, low ≤ n → n < high → f (.int n) = .int n) :
    Stable f (bounded low high) := by
  intro value x h
  unfold bounded at h
  split at h
  · split at h
    · next hrange =>
        rw [Json.mapNumbers_number, hf _ hrange.1 hrange.2, ← h]
        exact if_pos hrange
    · cases h
  · cases h

theorem Stable.list {decode : Json → Option α} (h : Stable f decode) :
    Stable f (list decode) := by
  intro value x hx
  cases value with
  | array values =>
      rw [Json.mapNumbers_array]
      unfold Serde.list at hx ⊢
      induction values generalizing x with
      | nil => exact hx
      | cons first rest ih =>
          simp only [items, Option.bind_eq_bind, Option.bind_eq_some_iff, Option.pure_def,
            Option.some.injEq] at hx
          obtain ⟨a, ha, as, has, rfl⟩ := hx
          simp [items, h first a ha, ih as has]
  | _ => cases hx

theorem Stable.nullable {decode : Json → Option α} (h : Stable f decode) :
    Stable f (nullable decode) := by
  intro value x hx
  cases value with
  | null => exact hx
  | _ =>
      obtain ⟨a, ha, rfl⟩ := Option.map_eq_some_iff.mp hx
      have hmapped := h _ a ha
      simp_all [Serde.nullable]

/-- The members with their numbers rewritten. -/
def mapMembers (f : JsonNumber → JsonNumber) (members : List (String × Json)) :
    List (String × Json) :=
  members.map fun member => (member.1, member.2.mapNumbers f)

theorem fields_mapNumbers {declared : List String} {value : Json}
    {members : List (String × Json)} (h : fields declared value = some members) :
    fields declared (value.mapNumbers f) = some (mapMembers f members) := by
  cases value with
  | object stored =>
      simp only [fields, Option.ite_none_right_eq_some, Option.some.injEq] at h
      obtain ⟨hdeclared, rfl⟩ := h
      simp only [Json.mapNumbers_object, fields, mapMembers]
      rw [if_pos (by simpa [List.all_map, Function.comp_def] using hdeclared)]
  | array values =>
      simp only [fields, Option.ite_none_right_eq_some, Option.some.injEq] at h
      obtain ⟨hlength, rfl⟩ := h
      simp only [Json.mapNumbers_array, fields, mapMembers, List.length_map]
      rw [if_pos hlength, List.zip_map_right]
      rfl
  | _ => cases h

theorem lookup_mapMembers (members : List (String × Json)) (key : String) :
    (mapMembers f members).lookup key =
      (members.lookup key).map (Json.mapNumbers f) :=
  Json.lookup_mapNumbers f members key

variable {decode : Json → Option α} {members : List (String × Json)} {key : String}

theorem Stable.required (h : Stable f decode) {x : α}
    (hx : required decode members key = some x) :
    required decode (mapMembers f members) key = some x := by
  unfold Serde.required at hx ⊢
  rw [lookup_mapMembers]
  cases hlookup : members.lookup key with
  | none =>
      rw [hlookup] at hx
      cases hx
  | some value =>
      rw [hlookup] at hx
      exact h value x hx

theorem Stable.defaulted (h : Stable f decode) {default x : α}
    (hx : defaulted decode default members key = some x) :
    defaulted decode default (mapMembers f members) key = some x := by
  unfold Serde.defaulted at hx ⊢
  rw [lookup_mapMembers]
  cases hlookup : members.lookup key with
  | none =>
      rw [hlookup] at hx
      exact hx
  | some value =>
      rw [hlookup] at hx
      exact h value x hx

theorem Stable.optional (h : Stable f decode) {x : Option α}
    (hx : optional decode members key = some x) :
    optional decode (mapMembers f members) key = some x :=
  h.nullable.defaulted hx

/-- What the decoder reads from the rewritten value is related to what it reads
from the value, when it reads both. -/
def Agrees (f : JsonNumber → JsonNumber) (related : α → α → Prop)
    (decode : Json → Option α) : Prop :=
  ∀ value x y, decode value = some x → decode (value.mapNumbers f) = some y → related x y

theorem Stable.agrees (h : Stable f decode) : Agrees f (· = ·) decode := by
  intro value x y hx hy
  rw [h value x hx] at hy
  exact Option.some.inj hy

section

variable {related : α → α → Prop} {x y : α}

theorem Agrees.required (h : Agrees f related decode)
    (hx : required decode members key = some x)
    (hy : required decode (mapMembers f members) key = some y) : related x y := by
  unfold Serde.required at hx hy
  rw [lookup_mapMembers] at hy
  cases hlookup : members.lookup key with
  | none =>
      rw [hlookup] at hx
      cases hx
  | some value =>
      rw [hlookup] at hx hy
      exact h value x y hx hy

theorem Agrees.defaulted (h : Agrees f related decode) {default : α}
    (hdefault : related default default)
    (hx : defaulted decode default members key = some x)
    (hy : defaulted decode default (mapMembers f members) key = some y) :
    related x y := by
  unfold Serde.defaulted at hx hy
  rw [lookup_mapMembers] at hy
  cases hlookup : members.lookup key with
  | none =>
      rw [hlookup] at hx hy
      cases hx
      cases hy
      exact hdefault
  | some value =>
      rw [hlookup] at hx hy
      exact h value x y hx hy

theorem Agrees.list (h : Agrees f related decode) :
    Agrees f (List.Forall₂ related) (list decode) := by
  intro value x y hx hy
  cases value with
  | array values =>
      rw [Json.mapNumbers_array] at hy
      unfold Serde.list at hx hy
      induction values generalizing x y with
      | nil =>
          cases hx
          cases hy
          exact .nil
      | cons first rest ih =>
          simp only [List.map_cons, items, Option.bind_eq_bind, Option.bind_eq_some_iff,
            Option.pure_def, Option.some.injEq] at hx hy
          obtain ⟨a, ha, as, has, rfl⟩ := hx
          obtain ⟨b, hb, bs, hbs, rfl⟩ := hy
          exact .cons (h first a b ha hb) (ih as bs has hbs)
  | _ => cases hx

end

end

end Serde
