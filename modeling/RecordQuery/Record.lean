import RecordQuery.Text.Letters
import RecordQuery.Value.Basic

/-! A record is a list of named values in order, a relation a list of records.
Names are looked up ignoring letter case, the exact spelling first. -/
namespace RecordQuery

structure Record where
  fields : List (String × Value)
  deriving DecidableEq

abbrev Relation := List Record

namespace Record

def empty : Record := ⟨[]⟩

def keys (r : Record) : List String := r.fields.map Prod.fst

/-- The value under exactly this name. -/
def get? (r : Record) (name : String) : Option Value :=
  (r.fields.find? fun field => field.1 == name).map Prod.snd

/-- The value under exactly this name, else under its lower-case spelling, else under
the first name that differs from it in letter case only. -/
def lookup (r : Record) (name : String) : Option Value :=
  (r.get? name).or <| (r.get? (Text.lower name)).or <|
    (r.fields.find? fun field => Text.sameName field.1 name).map Prod.snd

def lookupOrNull (r : Record) (name : String) : Value := (r.lookup name).getD .null

def has (r : Record) (name : String) : Bool := (r.lookup name).isSome

/-- The fields with one value replaced in place, or one more field at the end. -/
def insertField (name : String) (value : Value) : List (String × Value) → List (String × Value)
  | [] => [(name, value)]
  | field :: fields =>
    if field.1 = name then (name, value) :: fields else field :: insertField name value fields

def insert (r : Record) (name : String) (value : Value) : Record :=
  ⟨insertField name value r.fields⟩

/-- The fields written one after another. -/
def ofList (fields : List (String × Value)) : Record :=
  fields.foldl (fun r field => r.insert field.1 field.2) empty

/-- The record without the named fields. -/
def without (r : Record) (names : List String) : Record :=
  ⟨r.fields.filter fun field => !names.contains field.1⟩

def toValue (r : Record) : Value := .object r.fields

@[simp] theorem get?_empty (name : String) : empty.get? name = none := rfl

theorem get?_insert_self (r : Record) (name : String) (value : Value) :
    (r.insert name value).get? name = some value := by
  obtain ⟨fields⟩ := r
  simp only [get?, insert]
  induction fields with
  | nil => simp [insertField]
  | cons field fields ih =>
    by_cases same : field.1 = name
    · simp [insertField, same]
    · rw [insertField, if_neg same, List.find?_cons_of_neg (by simpa using same)]
      exact ih

/-- One more field is not found by a search that does not accept its name. -/
theorem find?_insertField (accepts : String → Bool) {name : String} (rejected : accepts name = false)
    (value : Value) (fields : List (String × Value)) :
    (insertField name value fields).find? (fun field => accepts field.1) =
      fields.find? fun field => accepts field.1 := by
  induction fields with
  | nil => simp [insertField, rejected]
  | cons field fields ih =>
    by_cases same : field.1 = name
    · rw [insertField, if_pos same, List.find?_cons_of_neg (by simpa using rejected),
        List.find?_cons_of_neg (by simpa [same] using rejected)]
    · rw [insertField, if_neg same, List.find?_cons, List.find?_cons, ih]

theorem get?_insert_of_ne (r : Record) {name other : String} (value : Value)
    (differ : other ≠ name) : (r.insert name value).get? other = r.get? other := by
  rw [get?, get?, insert, find?_insertField (· == other) (by simpa using differ.symm)]

theorem map_fst_insertField (name : String) (value : Value) (fields : List (String × Value)) :
    (insertField name value fields).map Prod.fst =
      if name ∈ fields.map Prod.fst then fields.map Prod.fst else fields.map Prod.fst ++ [name] := by
  induction fields with
  | nil => simp [insertField]
  | cons field fields ih =>
    by_cases same : field.1 = name
    · simp [insertField, same]
    · rw [insertField, if_neg same, List.map_cons, ih, List.map_cons]
      by_cases later : name ∈ fields.map Prod.fst
      · simp [later]
      · simp [later, Ne.symm same]

theorem keys_insert (r : Record) (name : String) (value : Value) :
    (r.insert name value).keys = if name ∈ r.keys then r.keys else r.keys ++ [name] :=
  map_fst_insertField name value r.fields

end Record
end RecordQuery
