import RecordQuery.Aggregate.Tally
import RecordQuery.FirstOccurrences
import RecordQuery.Plan.Basic
import RecordQuery.Value.Compact

/-! Groups of rows. Rows are in one group when the values of their group columns have
the same compact notation, a missing value being null. Groups stand in the order of their
first rows, and members in the order of the input. -/
namespace RecordQuery

/-- The values of the group columns. -/
def Record.groupValues (r : Record) (keys : List String) : List Value := keys.map r.lookupOrNull

/-- A row with the values of its group columns, and the notation that tells groups apart. -/
structure KeyedRow where
  key : String
  values : List Value
  row : Record

def KeyedRow.ofRow (keys : List String) (r : Record) : KeyedRow :=
  ⟨(Value.list (r.groupValues keys)).compactText, r.groupValues keys, r⟩

structure Group where
  values : List Value
  members : Relation
  deriving DecidableEq

namespace Group

/-- The groups of rows. The values of a group are those of its first row. -/
def ofKeyed (rows : List KeyedRow) : List Group :=
  (firstOccurrences KeyedRow.key rows).map fun first =>
    ⟨first.values, (rows.filter fun other => other.key = first.key).map KeyedRow.row⟩

def ofRows (keys : List String) (rows : Relation) : List Group :=
  ofKeyed (rows.map (KeyedRow.ofRow keys))

/-- The group columns of a group, before its aggregates are added. -/
def base (keys : List String) (group : Group) : Record := .ofList (keys.zip group.values)

end Group

/-- The row with one more aggregate result, unless a helper finds the field present. -/
def Record.addResult (results : Record) (r : Record) (named : NamedCall) : Record :=
  if named.helper && r.has named.key then r
  else match results.get? named.key with
    | some value => r.insert named.key value
    | none => r

/-- A row with the results of calls over members. -/
def Record.withResults (policy : MissingPolicy) (base : Record) (members : Relation)
    (calls : List NamedCall) : Record :=
  let results := Aggregate.results policy members (calls.map fun named => (named.call, named.key))
  calls.foldl (Record.addResult results) base

/-- The row of each group. -/
def groupRows (policy : MissingPolicy) (keys : List String) (calls : List NamedCall)
    (rows : Relation) : Relation :=
  if keys.isEmpty then [Record.withResults policy .empty rows calls]
  else (Group.ofRows keys rows).map fun group =>
    Record.withResults policy (group.base keys) group.members calls

end RecordQuery
