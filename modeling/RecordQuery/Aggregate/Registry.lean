import RecordQuery.Aggregate.Call

/-! Sets of aggregate functions that may be called, listed by name. -/
namespace RecordQuery.Aggregate

structure Registry where
  functions : List Function

namespace Registry

def empty : Registry := ⟨[]⟩

def contains (registry : Registry) (function : Function) : Bool :=
  registry.functions.contains function

def insert (registry : Registry) (function : Function) : Registry :=
  if registry.contains function then registry else ⟨function :: registry.functions⟩

def find? (registry : Registry) (function : Function) : Option Function :=
  if registry.contains function then some function else none

/-- All functions in the order of their names. -/
def alphabetical : List Function := [.average, .count, .maximum, .minimum, .sum]

def names (registry : Registry) : List String :=
  (alphabetical.filter registry.contains).map Function.name

/-- The registry of every function. -/
def standard : Registry := alphabetical.foldl insert empty

theorem contains_insert (registry : Registry) (f g : Function) :
    (registry.insert f).contains g = (f == g || registry.contains g) := by
  unfold insert
  split
  next present =>
    by_cases same : f = g
    · subst same; simp [present]
    · simp [same]
  next => rw [contains, List.contains_cons, Bool.beq_comm]; rfl

theorem contains_foldl_insert (registry : Registry) (functions : List Function) (f : Function) :
    (functions.foldl insert registry).contains f = (functions.contains f || registry.contains f) := by
  induction functions generalizing registry with
  | nil => rfl
  | cons g functions ih =>
    rw [List.foldl_cons, ih, contains_insert, List.contains_cons, Bool.beq_comm (a := f), ← Bool.or_assoc,
      Bool.or_comm (g == f)]

theorem standard_contains (function : Function) : standard.contains function = true := by
  rw [standard, contains_foldl_insert]
  cases function <;> rfl

end Registry
end RecordQuery.Aggregate
