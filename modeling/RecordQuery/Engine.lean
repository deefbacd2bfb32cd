import RecordQuery.Config
import RecordQuery.Plan.OfQuery
import RecordQuery.Plan.Run
import RecordQuery.Query.Reading

/-! The engine reads a query, plans it and runs the plan over records. Nothing is kept
between queries. -/
namespace RecordQuery

/-- Data that is no relation. -/
inductive DataError where
  | notList
  | notRecord (index : Nat) (value : Value)

def DataError.message : DataError → String
  | notList => "query execution failed: expected a JSON array of records"
  | notRecord index value =>
    "query execution failed: record " ++ toString index ++ " is not an object: " ++
      value.compactText

namespace Relation

/-- The records from an index on. -/
def ofItems (index : Nat) : List Value → Except DataError Relation
  | [] => .ok []
  | .object fields :: items => (ofItems (index + 1) items).map (⟨fields⟩ :: ·)
  | item :: _ => .error (.notRecord index item)

/-- A list of objects as records. -/
def ofValue : Value → Except DataError Relation
  | .list items => ofItems 0 items
  | _ => .error .notList

end Relation

inductive QueryError where
  | read (error : ReadError)
  | data (error : DataError)

namespace Config

def read (config : Config) (text : String) : Except ReadError Query :=
  Query.read config.maxQueryLength text

def planOf (config : Config) (q : Query) : Plan := q.plan config.orderMode

def plan (config : Config) (text : String) : Except ReadError Plan :=
  (config.read text).map config.planOf

def run (config : Config) (q : Query) (rows : Relation) : Relation :=
  (config.planOf q).run config.missingValues rows

def execute (config : Config) (text : String) (rows : Relation) : Except ReadError Relation :=
  (config.read text).map fun q => config.run q rows

/-- The data is checked before the query is read. -/
def executeOnValue (config : Config) (text : String) (data : Value) :
    Except QueryError Relation :=
  match Relation.ofValue data with
  | .error error => .error (.data error)
  | .ok rows =>
    match config.execute text rows with
    | .error error => .error (.read error)
    | .ok result => .ok result

end Config
end RecordQuery
