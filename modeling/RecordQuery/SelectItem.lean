import RecordQuery.Aggregate.Call
import RecordQuery.Date.Part
import RecordQuery.ReadError
import RecordQuery.Record

/-! Select items: what a query shows of each row, and under which key. The label of an
item is the name that AS gives it. -/
namespace RecordQuery

inductive SelectItem where
  | wildcard
  | column (name : String) (label : Option String)
  | aggregate (call : Aggregate.Call) (label : Option String)
  | datePart (part : DatePart) (field : String) (label : Option String)
  deriving DecidableEq, Repr

namespace SelectItem

def label? : SelectItem → Option String
  | wildcard => none
  | column _ label | aggregate _ label | datePart _ _ label => label

/-- The key of the item in a shown row. The wildcard has none of its own. -/
def outputKey? : SelectItem → Option String
  | wildcard => none
  | column name label => some (label.getD name)
  | aggregate call label => some (label.getD call.naturalKey)
  | datePart _ field label => some (label.getD field)

def isWildcard : SelectItem → Bool
  | wildcard => true
  | _ => false

def isAggregate : SelectItem → Bool
  | aggregate _ _ => true
  | _ => false

/-- What the item stands for in a row. The result of an aggregate is looked up under
its label, else under its natural key. -/
def resolve (r : Record) : SelectItem → Option Value
  | wildcard => none
  | column name _ => r.lookup name
  | aggregate call label => (label.bind r.lookup).or (r.lookup call.naturalKey)
  | datePart part field _ => some (part.extract (r.lookup field))

/-- The word after white space, AS and white space, up to the end. -/
def labelAfter? (s : List Char) : Option (List Char) :=
  (Text.skipBlanks? s).bind fun s => (Text.skipKeyword? .as s).bind fun s =>
    (Text.skipBlanks? s).filter Text.isName

/-- The shortest body that a label follows, and the label. The body is one line. -/
def splitLabel? : List Char → Option (List Char × List Char)
  | [] => none
  | c :: cs =>
    if c = '\n' then none
    else match labelAfter? cs with
      | some label => some ([c], label)
      | none => (splitLabel? cs).map fun (body, label) => (c :: body, label)

/-- EXTRACT with a part, FROM and a field in parentheses. -/
def readDatePart? (s : List Char) : Option (DatePart × String) := do
  let s ← Text.skipKeyword? .extract s
  let s ← Text.skipChar? '(' (Text.trimStart s)
  let s := Text.trimStart s
  let part ← DatePart.ofLetters? (Text.takeWord s)
  let s ← Text.skipBlanks? (Text.dropWord s)
  let s ← Text.skipKeyword? .from s
  let s ← Text.skipBlanks? s
  let field := Text.takeWord s
  let rest ← Text.skipChar? ')' (Text.trimStart (Text.dropWord s))
  if field.isEmpty || !rest.isEmpty then none else some (part, String.ofList field)

/-- The item with this body and label, written as `whole`. -/
def readBody (body whole : List Char) (label : Option String) : Except ReadError SelectItem :=
  match Aggregate.Call.read? body, readDatePart? body with
  | some call, _ => .ok (aggregate call label)
  | none, some (part, field) => .ok (datePart part field label)
  | none, none =>
    if body = ['*'] then
      if label.isSome then .error .labelledWildcard else .ok wildcard
    else if Text.isName body then .ok (column (String.ofList body) label)
    else .error (.unsupportedSelectItem (String.ofList whole))

def readLetters (s : List Char) : Except ReadError SelectItem :=
  let whole := Text.trim s
  match splitLabel? whole with
  | some (body, label) => readBody (Text.trim body) whole (some (String.ofList label))
  | none => readBody whole whole none

def read (text : String) : Except ReadError SelectItem := readLetters text.toList

end SelectItem
end RecordQuery
