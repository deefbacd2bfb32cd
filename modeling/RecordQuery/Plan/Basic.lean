import RecordQuery.Condition.Basic
import RecordQuery.OrderItem

/-! Plans. A plan is the list of stages that rows go through, each stage a function
from rows to rows. -/
namespace RecordQuery

/-- How several order keys combine: in one pass each, so that the last one decides and
earlier ones break its ties, or in one comparison from first to last. -/
inductive OrderMode where
  | lastKeyWins | composite
  deriving DecidableEq, Repr

/-- An aggregate call with the key its result is stored under. A helper is needed by
later stages only, and does not replace a field that is there already. -/
structure NamedCall where
  call : Aggregate.Call
  key : String
  helper : Bool
  deriving DecidableEq, Repr

structure OrderKey where
  field : String
  ascending : Bool
  deriving DecidableEq, Repr

inductive Stage where
  | filter (condition : Condition)
  /-- One row for each group. Without keys all rows are one group. -/
  | group (keys : List String) (calls : List NamedCall)
  | sort (mode : OrderMode) (keys : List OrderKey)
  | distinct (items : List SelectItem)
  /-- The offset is skipped before rows are counted. -/
  | slice (limit : Option Nat) (offset : Nat)
  /-- A wildcard shows the whole row but for the hidden fields. -/
  | project (items : List SelectItem) (hidden : List String)

abbrev Plan := List Stage

end RecordQuery
