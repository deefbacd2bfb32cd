import RecordQuery.Aggregate.Call
import RecordQuery.Condition.Like
import RecordQuery.FirstOccurrences
import RecordQuery.Record

/-! Conditions on a record. The shape of a test fixes the operator it was written
with. A fragment that could not be read stays in the tree with the reason, and
keeps every record: a condition only removes what it decides. -/
namespace RecordQuery

inductive Comparison where
  | equal | different | less | lessOrEqual | greater | greaterOrEqual
  deriving DecidableEq, Repr

inductive Operator where
  | comparison (comparison : Comparison)
  | like | ilike | oneOf | between | is
  deriving DecidableEq, Repr

/-- The left side of a comparison. Column names are in lower case. -/
inductive Operand where
  | column (name : String)
  | aggregate (call : Aggregate.Call)
  deriving DecidableEq, Repr

/-- An operator with its right side. -/
inductive Test where
  | compare (comparison : Comparison) (literal : Value)
  | oneOf (literals : List Value)
  | between (low high : Value)
  | like (pattern : String)
  | ilike (pattern : String)
  | null (negated : Bool)
  deriving DecidableEq

/-- Why a comparison could not be decided. A pattern of LIKE is no cause: every text is one, and it
could be refused only where its matcher exceeds a limit in size, some ten mebibytes. No such limit
is kept here. -/
inductive Fault where
  | malformed (text : String)
  | unknownOperator (token : String)
  | missingBound (text : String)
  | aggregateOutsideGroup (call : Aggregate.Call)
  | unsupportedIsOperand (text : String)
  deriving DecidableEq, Repr

/-- OR binds loosest, then AND. -/
inductive Condition where
  | any (arms : List Condition)
  | all (parts : List Condition)
  | test (operand : Operand) (test : Test)
  | malformed (text : String) (fault : Fault)

namespace Comparison

def accepts : Comparison → Ordering → Bool
  | equal, order => order.isEq
  | different, order => order.isNe
  | less, order => order.isLT
  | lessOrEqual, order => order.isLE
  | greater, order => order.isGT
  | greaterOrEqual, order => order.isGE

/-- Equality is decided for all values, the order only where there is one. -/
def holds (comparison : Comparison) (value literal : Value) : Bool :=
  match comparison with
  | equal => value.equals literal
  | different => !value.equals literal
  | comparison => (value.order? literal).any comparison.accepts

end Comparison

namespace Operator

/-- The operators written with letters have no place in the order of values. -/
def accepts : Operator → Ordering → Bool
  | comparison c, order => c.accepts order
  | _, _ => false

def text : Operator → String
  | comparison .equal => "="
  | comparison .different => "<>"
  | comparison .less => "<"
  | comparison .lessOrEqual => "<="
  | comparison .greater => ">"
  | comparison .greaterOrEqual => ">="
  | like => "LIKE"
  | ilike => "ILIKE"
  | oneOf => "IN"
  | between => "BETWEEN"
  | is => "IS"

/-- The operator with this spelling. The case of the letters A to Z does not matter. -/
def ofLetters? (token : List Char) : Option Operator :=
  match token.map Char.toUpper with
  | ['='] => some (comparison .equal)
  | ['<', '>'] | ['!', '='] => some (comparison .different)
  | ['<'] => some (comparison .less)
  | ['<', '='] => some (comparison .lessOrEqual)
  | ['>'] => some (comparison .greater)
  | ['>', '='] => some (comparison .greaterOrEqual)
  | ['L', 'I', 'K', 'E'] => some like
  | ['I', 'L', 'I', 'K', 'E'] => some ilike
  | ['I', 'N'] => some oneOf
  | ['B', 'E', 'T', 'W', 'E', 'E', 'N'] => some between
  | ['I', 'S'] => some is
  | _ => none

end Operator

namespace Test

def operator : Test → Operator
  | compare c _ => .comparison c
  | oneOf _ => .oneOf
  | between _ _ => .between
  | like _ => .like
  | ilike _ => .ilike
  | null _ => .is

/-- The text a pattern is matched with: texts, numbers and booleans have one. -/
def likeText? : Value → Option String
  | .text s => some s
  | .number n => some (String.ofList n.text)
  | .bool b => some (if b then "true" else "false")
  | _ => none

def holds (value : Value) : Test → Bool
  | compare comparison literal => comparison.holds value literal
  | oneOf literals => literals.any value.equals
  | between low high =>
    (value.order? low).any Ordering.isGE && (value.order? high).any Ordering.isLE
  | like pattern | ilike pattern => (likeText? value).any (Like.accepts pattern)
  | null negated => value.isNull != negated

end Test

namespace Fault

def message : Fault → String
  | malformed text => "malformed condition `" ++ text ++ "`"
  | unknownOperator token => "unknown operator `" ++ token ++ "`"
  | missingBound text => "BETWEEN needs a lower and an upper bound in `" ++ text ++ "`"
  | aggregateOutsideGroup call =>
    "aggregate " ++ call.text ++ " cannot be evaluated against a single row"
  | unsupportedIsOperand text => "IS expects NULL or NOT NULL, got `" ++ text ++ "`"

end Fault

namespace Condition

/-- The decision of a single comparison. A missing field reads as null. -/
def verdict (condition : Condition) (r : Record) : Except Fault Bool :=
  match condition with
  | test (.column name) t => .ok (t.holds (r.lookupOrNull name))
  | test (.aggregate call) _ => .error (.aggregateOutsideGroup call)
  | malformed _ fault => .error fault
  | any _ | all _ => .error (.malformed "composite condition passed as a comparison")

/-- What cannot be decided counts as true. -/
def passes (condition : Condition) (r : Record) : Bool :=
  match condition.verdict r with
  | .ok decided => decided
  | .error _ => true

mutual

def holds (r : Record) : Condition → Bool
  | any arms => holdsAny r arms
  | all parts => holdsAll r parts
  | test operand t => (test operand t).passes r
  | malformed text fault => (malformed text fault).passes r

def holdsAny (r : Record) : List Condition → Bool
  | [] => false
  | arm :: arms => holds r arm || holdsAny r arms

def holdsAll (r : Record) : List Condition → Bool
  | [] => true
  | part :: parts => holds r part && holdsAll r parts

end

mutual

/-- The calls used as operands, from left to right, with repetitions. -/
def operandCalls : Condition → List Aggregate.Call
  | any arms => operandCallsOf arms
  | all parts => operandCallsOf parts
  | test (.aggregate call) _ => [call]
  | _ => []

def operandCallsOf : List Condition → List Aggregate.Call
  | [] => []
  | condition :: conditions => operandCalls condition ++ operandCallsOf conditions

end

/-- The calls used as operands, each once. -/
def calls (condition : Condition) : List Aggregate.Call :=
  firstOccurrences id condition.operandCalls

mutual

/-- Each call that has a key becomes a column of that name. -/
def withKeys (key? : Aggregate.Call → Option String) : Condition → Condition
  | any arms => any (withKeysOf key? arms)
  | all parts => all (withKeysOf key? parts)
  | test (.aggregate call) t =>
    match key? call with
    | some key => test (.column key) t
    | none => test (.aggregate call) t
  | test (.column name) t => test (.column name) t
  | malformed text fault => malformed text fault

def withKeysOf (key? : Aggregate.Call → Option String) : List Condition → List Condition
  | [] => []
  | condition :: conditions => withKeys key? condition :: withKeysOf key? conditions

end

@[simp] theorem holdsAny_eq (r : Record) (arms : List Condition) :
    holdsAny r arms = arms.any (holds r) := by
  induction arms with
  | nil => rfl
  | cons arm arms ih => simp [holdsAny, ih]

@[simp] theorem holdsAll_eq (r : Record) (parts : List Condition) :
    holdsAll r parts = parts.all (holds r) := by
  induction parts with
  | nil => rfl
  | cons part parts ih => simp [holdsAll, ih]

@[simp] theorem operandCallsOf_eq (conditions : List Condition) :
    operandCallsOf conditions = conditions.flatMap operandCalls := by
  induction conditions with
  | nil => rfl
  | cons condition conditions ih => simp [operandCallsOf, ih]

@[simp] theorem withKeysOf_eq (key? : Aggregate.Call → Option String)
    (conditions : List Condition) :
    withKeysOf key? conditions = conditions.map (withKeys key?) := by
  induction conditions with
  | nil => rfl
  | cons condition conditions ih => simp [withKeysOf, ih]

end Condition
end RecordQuery
