import RecordQuery.Value.Compact

/-! The order of ORDER BY. Missing, null, false and the empty text count as zero,
true as one; numbers come before texts; lists and objects sort by their
compact notation. -/
namespace RecordQuery

inductive SortKey where
  | number (x : Binary64)
  | text (s : String)
  deriving DecidableEq

namespace SortKey

def ofValue : Option Value → SortKey
  | none | some .null | some (.bool false) => number .zero
  | some (.bool true) => number .one
  | some (.number n) => number n.toBinary64
  | some (.text s) => if s.isEmpty then number .zero else text s
  | some value => text value.compactText

def order : SortKey → SortKey → Ordering
  | number x, number y => x.order y
  | number _, text _ => .lt
  | text _, number _ => .gt
  | text a, text b => compare a b

end SortKey

/-- The place of one field value relative to another, reversed when descending. -/
def Value.sortOrder (a b : Option Value) (ascending : Bool) : Ordering :=
  let order := (SortKey.ofValue a).order (SortKey.ofValue b)
  if ascending then order else order.swap

end RecordQuery
