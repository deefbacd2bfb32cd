import RecordQuery.Aggregate.Call
import RecordQuery.Date.Part
import RecordQuery.Record

/-! Running results of aggregate functions. A tally takes the value of a field, or
its absence, once per row; its result is what the function gives so far. -/
namespace RecordQuery

/-- How the extremes treat a value that is missing or no number: as the number zero, or not at all. -/
inductive MissingPolicy where
  | zero | skip
  deriving DecidableEq, Repr

def Value.number? : Value → Option Number
  | .number n => some n
  | _ => none

namespace Aggregate

/-- A double-precision result, null beyond the largest number. -/
def floatValue : Option Binary64 → Value
  | some x => .number (.float x)
  | none => .null

/-- A sum is exact while only signed whole numbers were added, and a double-precision
number from the first other one on. Once beyond the largest number it stays there. -/
inductive Sum where
  | exact (total : Int)
  | rounded (total : Option Binary64)
  deriving DecidableEq

namespace Sum

def empty : Sum := exact 0

def approximation : Sum → Option Binary64
  | exact total => Binary64.ofInt? total
  | rounded total => total

/-- What is no number adds nothing. -/
def add (sum : Sum) (value : Option Value) : Sum :=
  match value.bind Value.number? with
  | none => sum
  | some n =>
    match sum, n.signed? with
    | exact total, some i => exact (total + i)
    | sum, _ => rounded (sum.approximation.bind fun total => total.add n.toBinary64)

/-- An exact total within the signed range stays a whole number. -/
def result : Sum → Value
  | exact total =>
    if IsSigned64 total then .ofInt total
    else floatValue (Binary64.ofInt? total)
  | rounded total => floatValue total

/-- The mean over a number of rows, to the nearest hundredth. -/
def mean (sum : Sum) (rows : Nat) : Option Binary64 := do
  let total ← sum.approximation
  let mean ← total.divide rows
  let hundredths ← mean.multiply 100
  let whole ← hundredths.round
  whole.divide 100

end Sum

/-- Which of two numbers an extreme keeps: the later one only if it is strictly better. -/
inductive Extreme where
  | least | greatest
  deriving DecidableEq, Repr

def Extreme.better (extreme : Extreme) (candidate current : Number) : Bool :=
  match extreme with
  | .least => (candidate.order current).isLT
  | .greatest => (candidate.order current).isGT

def Extreme.choose (extreme : Extreme) (current : Option Number) (candidate : Number) : Number :=
  match current with
  | none => candidate
  | some n => if extreme.better candidate n then candidate else n

/-- What a value stands for when extremes are compared. -/
def MissingPolicy.candidate? (policy : MissingPolicy) (value : Option Value) : Option Number :=
  match value.bind Value.number?, policy with
  | some n, _ => some n
  | none, .zero => some .zero
  | none, .skip => none

inductive Tally where
  | count (rows : Nat)
  | sum (sum : Sum)
  | mean (sum : Sum) (rows : Nat)
  | extreme (extreme : Extreme) (policy : MissingPolicy) (current : Option Number)
  deriving DecidableEq

namespace Tally

def start (function : Function) (policy : MissingPolicy) : Tally :=
  match function with
  | .count => count 0
  | .sum => sum .empty
  | .average => mean .empty 0
  | .maximum => extreme .greatest policy none
  | .minimum => extreme .least policy none

/-- Every row counts, whatever its value. -/
def add (tally : Tally) (value : Option Value) : Tally :=
  match tally with
  | count rows => count (rows + 1)
  | sum total => sum (total.add value)
  | mean total rows => mean (total.add value) (rows + 1)
  | extreme e policy current =>
    match MissingPolicy.candidate? policy value with
    | none => extreme e policy current
    | some candidate => extreme e policy (some (e.choose current candidate))

def result : Tally → Value
  | count rows => .ofInt rows
  | sum total => total.result
  | mean total rows => if rows = 0 then .null else floatValue (total.mean rows)
  | extreme _ _ none => .null
  | extreme _ _ (some n) => .number n

def ofValues (function : Function) (policy : MissingPolicy) (values : List (Option Value)) : Tally :=
  values.foldl add (start function policy)

end Tally

/-- What the rows give to a call: the field's value where the call has a field. -/
def Call.values (call : Call) (rows : Relation) : List (Option Value) :=
  rows.map fun r => call.field.bind r.lookup

/-- The result of a call over rows. -/
def Call.over (call : Call) (policy : MissingPolicy) (rows : Relation) : Value :=
  (Tally.ofValues call.function policy (call.values rows)).result

/-- The tallies of calls after one more row. -/
def addRow (calls : List (Call × String)) (tallies : List Tally) (r : Record) : List Tally :=
  calls.zipWith (fun call tally => tally.add (call.1.field.bind r.lookup)) tallies

/-- The tallies of calls, all of them kept while the rows pass once. -/
def tallies (policy : MissingPolicy) (rows : Relation) (calls : List (Call × String)) : List Tally :=
  rows.foldl (addRow calls) (calls.map fun call => Tally.start call.1.function policy)

/-- The results of calls under their keys. A later call replaces an earlier one of the same key. -/
def results (policy : MissingPolicy) (rows : Relation) (calls : List (Call × String)) : Record :=
  .ofList (calls.zipWith (fun call tally => (call.2, tally.result)) (tallies policy rows calls))

end Aggregate
end RecordQuery
