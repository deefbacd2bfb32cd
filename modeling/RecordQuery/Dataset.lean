import RecordQuery.Engine

/-! A dataset is a relation with the engine that answers queries about it. -/
namespace RecordQuery

structure Dataset where
  records : Relation
  config : Config

namespace Dataset

def ofRelation (records : Relation) : Dataset := ⟨records, .default⟩

def ofValue (data : Value) : Except DataError Dataset := (Relation.ofValue data).map ofRelation

def size (d : Dataset) : Nat := d.records.length

def isEmpty (d : Dataset) : Bool := d.records.isEmpty

def query (d : Dataset) (text : String) : Except ReadError Relation :=
  d.config.execute text d.records

/-- The result of a query as a dataset of its own. -/
def derive (d : Dataset) (text : String) : Except ReadError Dataset :=
  (d.query text).map ofRelation

end Dataset
end RecordQuery
