import RecordQuery.Plan.Basic
import RecordQuery.Query.Basic

/-! The plan of a query: filter, group, filter groups, sort, drop repetitions, slice,
project. A grouped query computes the calls of its select list under the keys
shown, and the further calls of HAVING and ORDER BY under keys of their own. -/
namespace RecordQuery

namespace NamedCall

/-- The key under which a call was first named. -/
def keyOf? (calls : List NamedCall) (call : Aggregate.Call) : Option String :=
  (calls.find? (·.call = call)).map NamedCall.key

def isTaken (groupBy : List String) (calls : List NamedCall) (key : String) : Bool :=
  groupBy.contains key || calls.any fun named => Text.lower named.key == key

/-- A helper for a call that has no key yet: under its natural key, or under its own
text where that key is taken. -/
def addHelper (groupBy : List String) (calls : List NamedCall) (call : Aggregate.Call) :
    List NamedCall :=
  if (keyOf? calls call).isSome then calls
  else
    let key := if isTaken groupBy calls call.naturalKey then call.text else call.naturalKey
    calls ++ [⟨call, key, true⟩]

end NamedCall

namespace Query

/-- The calls of the select list under their output keys. -/
def selectCalls (q : Query) : List NamedCall :=
  q.select.filterMap fun
    | .aggregate call label => some ⟨call, label.getD call.naturalKey, false⟩
    | _ => none

/-- The calls that HAVING and ORDER BY use. -/
def laterCalls (q : Query) : List Aggregate.Call :=
  ((q.having.map fun written => written.condition.calls).getD []) ++
    q.orderBy.filterMap OrderItem.call

/-- The calls of a grouped query with their keys. -/
def namedCalls (q : Query) : List NamedCall :=
  if q.isGrouped then q.laterCalls.foldl (NamedCall.addHelper q.groupBy) q.selectCalls else []

def hiddenKeys (q : Query) : List String :=
  (q.namedCalls.filter NamedCall.helper).map NamedCall.key

/-- An aggregate sorts by the field that holds its result. -/
def orderKey (q : Query) (item : OrderItem) : OrderKey :=
  ⟨(item.call.bind (NamedCall.keyOf? q.namedCalls)).getD item.field, item.ascending⟩

def filterStages (q : Query) : List Stage :=
  (q.filter.map fun written => Stage.filter written.condition).toList

/-- Without groups HAVING has no effect. -/
def groupStages (q : Query) : List Stage :=
  if q.isGrouped then
    .group q.groupBy q.namedCalls ::
      (q.having.map fun written =>
        Stage.filter (written.condition.withKeys (NamedCall.keyOf? q.namedCalls))).toList
  else []

def sortStages (mode : OrderMode) (q : Query) : List Stage :=
  if q.orderBy.isEmpty then [] else [.sort mode (q.orderBy.map q.orderKey)]

def distinctStages (q : Query) : List Stage := if q.distinct then [.distinct q.select] else []

def sliceStages (q : Query) : List Stage :=
  if q.limit.isSome || 0 < q.offset then [.slice q.limit q.offset] else []

def plan (mode : OrderMode) (q : Query) : Plan :=
  q.filterStages ++ q.groupStages ++ q.sortStages mode ++ q.distinctStages ++ q.sliceStages ++
    [.project q.select q.hiddenKeys]

end Query
end RecordQuery
