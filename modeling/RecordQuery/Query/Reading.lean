import RecordQuery.Condition.Reading
import RecordQuery.Query.Basic
import RecordQuery.Query.ClauseText

/-! Reading of queries. The clauses are read in the order SELECT, WHERE, GROUP BY,
HAVING, ORDER BY, LIMIT, OFFSET, and the first one at fault decides the error. -/
namespace RecordQuery

def WrittenCondition.read (text : List Char) : WrittenCondition :=
  ⟨String.ofList (Text.trim text), Condition.readLetters text⟩

namespace Query

/-- The text is not empty, not too long, and starts with SELECT. -/
def check (maxLength : Nat) (text : List Char) : Except ReadError Unit :=
  let trimmed := Text.trim text
  if trimmed.isEmpty then .error .emptyQuery
  else if maxLength < trimmed.length then .error (.tooLong trimmed.length maxLength)
  else if ((Text.skipKeyword? .select trimmed).bind Text.skipBlanks?).isSome then .ok ()
  else .error .notSelect

/-- Without a select list every field is shown. -/
def readSelect (text : List Char) : Except ReadError (List SelectItem × Bool) :=
  match SelectHead.find? text with
  | none => .ok ([.wildcard], false)
  | some head =>
    match head.listText? with
    | none => .ok ([.wildcard], head.distinct)
    | some [] => .error .emptySelectList
    | some list =>
      ((Text.Separator.comma.split list).mapM SelectItem.readLetters).map (·, head.distinct)

def readCondition (clause : Clause) (text : List Char) :
    Except ReadError (Option WrittenCondition) :=
  match clause.body? text with
  | none => .ok none
  | some [] => .error (.missingCondition clause)
  | some body => .ok (some (WrittenCondition.read body))

def readGroupItem (item : List Char) : Except ReadError String :=
  let name := Text.trim item
  if Text.isName name then .ok (Text.lower (String.ofList name))
  else .error (.unsupportedGroupItem (String.ofList name))

def readGroupBy (text : List Char) : Except ReadError (List String) :=
  match Clause.group.body? text with
  | none => .ok []
  | some body => (Text.Separator.comma.split body).mapM readGroupItem

def readOrderBy (items : List SelectItem) (text : List Char) : Except ReadError (List OrderItem) :=
  match Clause.order.body? text with
  | none => .ok []
  | some body => (Text.Separator.comma.split body).mapM (OrderItem.readLetters items)

/-- A count of 64 bits. -/
def readCount (clause : Clause) (text : List Char) : Except ReadError (Option Nat) :=
  match clause.word? text with
  | none => .ok none
  | some word =>
    match (readNat? word).filter (· < 1 <<< 64) with
    | some n => .ok (some n)
    | none => .error (.invalidCount clause (String.ofList word))

/-- The query of a normalized text. -/
def readNormalized (text : List Char) : Except ReadError Query := do
  let (select, distinct) ← readSelect text
  let filter ← readCondition .filter text
  let groupBy ← readGroupBy text
  let having ← readCondition .having text
  let orderBy ← readOrderBy select text
  let limit ← readCount .limit text
  let offset ← readCount .offset text
  return ⟨select, distinct, filter, groupBy, having, orderBy, limit, offset.getD 0⟩

def readLetters (maxLength : Nat) (text : List Char) : Except ReadError Query := do
  check maxLength text
  readNormalized (Text.normalize text)

/-- The query of a text of at most `maxLength` characters, white space at its ends not counted. -/
def read (maxLength : Nat) (text : String) : Except ReadError Query :=
  readLetters maxLength text.toList

end Query
end RecordQuery
