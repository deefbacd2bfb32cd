import RecordQuery.Number.Basic

/-! Values of a record's fields. Equality and order as conditions use them: numbers
by value, texts by code point, and nothing across kinds. -/
namespace RecordQuery

inductive Value where
  | null
  | bool (b : Bool)
  | number (n : Number)
  | text (s : String)
  | list (items : List Value)
  | object (fields : List (String × Value))

namespace Value

instance : Inhabited Value := ⟨null⟩

mutual

/-- Identity of values: whole and double-precision numbers differ, and so do the two zeros. -/
def identical : Value → Value → Bool
  | null, null => true
  | bool a, bool b => a == b
  | number a, number b => a == b
  | text a, text b => a == b
  | list as, list bs => identicalItems as bs
  | object as, object bs => identicalFields as bs
  | _, _ => false

def identicalItems : List Value → List Value → Bool
  | [], [] => true
  | a :: as, b :: bs => identical a b && identicalItems as bs
  | _, _ => false

def identicalFields : List (String × Value) → List (String × Value) → Bool
  | [], [] => true
  | (k, a) :: as, (l, b) :: bs => k == l && identical a b && identicalFields as bs
  | _, _ => false

end

mutual

theorem identical_iff : ∀ a b : Value, identical a b = true ↔ a = b
  | null, b => by cases b <;> simp [identical]
  | bool _, b => by cases b <;> simp [identical]
  | number _, b => by cases b <;> simp [identical]
  | text _, b => by cases b <;> simp [identical]
  | list as, b => by cases b <;> simp [identical, identicalItems_iff as]
  | object as, b => by cases b <;> simp [identical, identicalFields_iff as]

theorem identicalItems_iff : ∀ as bs : List Value, identicalItems as bs = true ↔ as = bs
  | [], bs => by cases bs <;> simp [identicalItems]
  | a :: as, bs => by cases bs <;> simp [identicalItems, identical_iff a, identicalItems_iff as]

theorem identicalFields_iff :
    ∀ as bs : List (String × Value), identicalFields as bs = true ↔ as = bs
  | [], bs => by cases bs <;> simp [identicalFields]
  | (k, a) :: as, bs => by
    cases bs with
    | nil => simp [identicalFields]
    | cons b bs =>
      obtain ⟨l, b⟩ := b
      simp [identicalFields, identical_iff a, identicalFields_iff as]

end

instance : DecidableEq Value := fun a b => decidable_of_iff _ (identical_iff a b)

def isNull : Value → Bool
  | null => true
  | _ => false

/-- Null equals only null, and values of different kinds are never equal. -/
def equals : Value → Value → Bool
  | null, null => true
  | number a, number b => a.sameValue b
  | text a, text b => a == b
  | bool a, bool b => a == b
  | _, _ => false

/-- Numbers by value and texts by code point; all else is unordered. -/
def order? : Value → Value → Option Ordering
  | number a, number b => some (a.order b)
  | text a, text b => some (compare a b)
  | _, _ => none

end Value
end RecordQuery
