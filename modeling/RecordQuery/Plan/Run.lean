import RecordQuery.Plan.Grouping
import RecordQuery.SortKey

/-! Running of plans: what each stage does to its rows. -/
namespace RecordQuery

namespace OrderKey

def order (key : OrderKey) (a b : Record) : Ordering :=
  Value.sortOrder (a.lookup key.field) (b.lookup key.field) key.ascending

/-- The order by several keys, the first that tells the rows apart. -/
def compositeOrder (keys : List OrderKey) (a b : Record) : Ordering :=
  match keys with
  | [] => .eq
  | key :: keys => (key.order a b).then (compositeOrder keys a b)

end OrderKey

/-- Stable sorting by an order. -/
def sortBy (order : Record → Record → Ordering) (rows : Relation) : Relation :=
  rows.mergeSort fun a b => (order a b).isLE

def sortRows (mode : OrderMode) (keys : List OrderKey) (rows : Relation) : Relation :=
  match mode with
  | .lastKeyWins => keys.foldl (fun rows key => sortBy key.order rows) rows
  | .composite => sortBy (OrderKey.compositeOrder keys) rows

/-- What makes two rows the same under a select list: all of the row if there is a
wildcard, else the values of the items. -/
def Record.identity (items : List SelectItem) (r : Record) : Value :=
  if items.any SelectItem.isWildcard then r.toValue
  else .list (items.map fun item => (item.resolve r).getD .null)

/-- The first row for each compact notation of what makes rows the same. -/
def distinctRows (items : List SelectItem) (rows : Relation) : Relation :=
  (firstOccurrences Prod.fst (rows.map fun r => ((r.identity items).compactText, r))).map Prod.snd

def sliceRows (limit : Option Nat) (offset : Nat) (rows : Relation) : Relation :=
  match limit with
  | some n => (rows.drop offset).take n
  | none => rows.drop offset

/-- The items with a value under their keys. -/
def Record.project (items : List SelectItem) (r : Record) : Record :=
  .ofList (items.filterMap fun item =>
    item.outputKey?.bind fun key => (item.resolve r).map fun value => (key, value))

def projectRows (items : List SelectItem) (hidden : List String) (rows : Relation) : Relation :=
  if items.any SelectItem.isWildcard then rows.map (·.without hidden)
  else rows.map (·.project items)

def Stage.run (policy : MissingPolicy) (stage : Stage) (rows : Relation) : Relation :=
  match stage with
  | filter condition => rows.filter fun r => condition.holds r
  | group keys calls => groupRows policy keys calls rows
  | sort mode keys => sortRows mode keys rows
  | distinct items => distinctRows items rows
  | slice limit offset => sliceRows limit offset rows
  | project items hidden => projectRows items hidden rows

namespace Plan

def run (policy : MissingPolicy) (plan : Plan) (rows : Relation) : Relation :=
  plan.foldl (fun rows stage => stage.run policy rows) rows

/-- The rows after each stage. -/
def trace (policy : MissingPolicy) : Plan → Relation → List Relation
  | [], _ => []
  | stage :: stages, rows =>
    let next := stage.run policy rows
    next :: trace policy stages next

@[simp] theorem run_nil (policy : MissingPolicy) (rows : Relation) : run policy [] rows = rows := rfl

@[simp] theorem run_cons (policy : MissingPolicy) (stage : Stage) (plan : Plan) (rows : Relation) :
    run policy (stage :: plan) rows = run policy plan (stage.run policy rows) := rfl

theorem run_append (policy : MissingPolicy) (first second : Plan) (rows : Relation) :
    run policy (first ++ second) rows = run policy second (run policy first rows) :=
  List.foldl_append

end Plan
end RecordQuery
