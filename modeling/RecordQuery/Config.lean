import RecordQuery.Aggregate.Tally
import RecordQuery.Plan.Basic

/-! The settings of an engine, and their form as a value: an object in which any
setting may be absent and other fields are ignored, or a list of the first few. -/
namespace RecordQuery

namespace MissingPolicy

def name : MissingPolicy → String
  | zero => "zero"
  | skip => "skip"

def ofName? (s : String) : Option MissingPolicy :=
  if s = "zero" then some zero else if s = "skip" then some skip else none

end MissingPolicy

namespace OrderMode

def name : OrderMode → String
  | lastKeyWins => "last_key_wins"
  | composite => "composite"

def ofName? (s : String) : Option OrderMode :=
  if s = "last_key_wins" then some lastKeyWins else if s = "composite" then some composite else none

end OrderMode

structure Config where
  missingValues : MissingPolicy
  orderMode : OrderMode
  /-- In characters. -/
  maxQueryLength : Nat
  deriving DecidableEq, Repr

namespace Config

def default : Config := ⟨.zero, .lastKeyWins, 5000⟩

instance : Inhabited Config := ⟨default⟩

/-- Extremes without missing values, and one order by all keys. -/
def strict : Config := { default with missingValues := .skip, orderMode := .composite }

/-- A name, written as a text or as the only field of an object, with nothing in it. -/
def nameOf? : Value → Option String
  | .text s => some s
  | .object [(name, .null)] => some name
  | _ => none

/-- A count of 64 bits. -/
def countOf? : Value → Option Nat
  | .number (.whole i _) => if 0 ≤ i then some i.toNat else none
  | _ => none

/-- A setting, or its default where it is absent. -/
def setting (value : Option Value) (read? : Value → Option α) (absent : α) : Option α :=
  match value with
  | some value => read? value
  | none => some absent

def ofSettings? (missingValues orderMode maxQueryLength : Option Value) : Option Config := do
  return {
    missingValues := ← setting missingValues (nameOf? · >>= MissingPolicy.ofName?) default.missingValues
    orderMode := ← setting orderMode (nameOf? · >>= OrderMode.ofName?) default.orderMode
    maxQueryLength := ← setting maxQueryLength countOf? default.maxQueryLength }

/-- In a list the settings stand in a fixed order, and those at the end may be absent. -/
def ofValue? : Value → Option Config
  | .object fields =>
    let r : Record := ⟨fields⟩
    ofSettings? (r.get? "missing_values") (r.get? "order_by") (r.get? "max_query_length")
  | .list items => if items.length ≤ 3 then ofSettings? items[0]? items[1]? items[2]? else none
  | _ => none

end Config
end RecordQuery
