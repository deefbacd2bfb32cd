import RecordQuery.Condition.Basic
import RecordQuery.OrderItem

/-! A query, clause by clause. A clause that is not written takes its default. -/
namespace RecordQuery

/-- A condition with the text it was read from. -/
structure WrittenCondition where
  text : String
  condition : Condition

structure Query where
  select : List SelectItem
  distinct : Bool
  filter : Option WrittenCondition
  /-- Column names in lower case. -/
  groupBy : List String
  having : Option WrittenCondition
  orderBy : List OrderItem
  limit : Option Nat
  offset : Nat

namespace Query

def isWildcard (q : Query) : Bool := q.select.any SelectItem.isWildcard

def hasAggregates (q : Query) : Bool := q.select.any SelectItem.isAggregate

def isGroupColumn (q : Query) (name : String) : Bool := q.groupBy.any (Text.sameName · name)

/-- The rows of the result stand for groups. Without group columns there is one group. -/
def isGrouped (q : Query) : Bool := !q.groupBy.isEmpty || q.hasAggregates

end Query
end RecordQuery
