import RecordQuery.Condition.Basic
import RecordQuery.Literal

/-! Reading of conditions. The text is cut at OR, each arm at AND, where a part with
BETWEEN takes the next part as its upper bound. There are no parentheses. -/
namespace RecordQuery

/-- The longest nonempty beginning, at most `n` characters, after which the rest can be read. -/
def readAfterLongest? (read : (beginning rest : List Char) → Option α) (s : List Char) :
    (n : Nat) → Option α
  | 0 => none
  | n + 1 => (read (s.take (n + 1)) (s.drop (n + 1))).or (readAfterLongest? read s n)

namespace Operator

def isSymbol (c : Char) : Bool := c = '<' || c = '>' || c = '=' || c = '!'

/-- The operators written with letters, in the order in which they are tried. -/
def keywords : List Text.Keyword := [.ilike, .like, .in, .between, .is]

/-- The right side of a comparison: one line, not empty. -/
def rightSide? (s : List Char) : Option (List Char) :=
  let right := Text.trim s
  if right.isEmpty || right.contains '\n' then none else some right

/-- The spelling of an operator and its right side. Symbols are taken as far as a right
side remains; letters form a whole word. -/
def split? (s : List Char) : Option (List Char × List Char) :=
  (readAfterLongest? (fun token rest => (rightSide? rest).map (token, ·)) s
    (s.takeWhile isSymbol).length).or <|
  keywords.findSome? fun keyword =>
    (Text.skipWholeKeyword? keyword s).bind fun rest =>
      (rightSide? rest).map (s.take keyword.letters.length, ·)

end Operator

namespace Condition

/-- The parts of a comparison. The operand is missing where an aggregate function does
not take its argument. -/
structure Parts where
  operand : Option Operand
  token : List Char
  right : List Char

def columnNamed (word : List Char) : Operand := .column (Text.lower (String.ofList word))

/-- An operator after a left side, and its right side. -/
def Parts.after? (operand : Option Operand) (rest : List Char) : Option Parts :=
  (Operator.split? (Text.trimStart rest)).map fun (token, right) => ⟨operand, token, right⟩

/-- An aggregate call or a word, an operator and a right side. A word is taken as long
as an operator follows it. -/
def Parts.read? (s : List Char) : Option Parts :=
  ((Aggregate.Call.readPrefix? s).bind fun (call, rest) =>
    Parts.after? (call.map .aggregate) rest).or <|
  readAfterLongest? (fun word rest => Parts.after? (some (columnNamed word)) rest) s
    (Text.takeWord s).length

/-- The whole text is NOT NULL. -/
def isNotNull (s : List Char) : Bool := Text.skipPhrase? [.not, .null] s == some []

def isNull (s : List Char) : Bool := s.map Char.toUpper == Text.Keyword.null.letters

/-- The bounds around the first AND, neither of them empty. -/
def readBounds? (right : List Char) : Option (Value × Value) :=
  ((Text.Separator.keyword .and).cut? right).bind fun (low, high) =>
    if (Text.trim low).isEmpty || (Text.trim high).isEmpty then none
    else some (Literal.read low, Literal.read high)

/-- The test with this operator and right side, within the comparison `whole`. Patterns of any size
are taken, so that LIKE has no fault. -/
def readTest (operator : Operator) (right whole : List Char) : Except Fault Test :=
  match operator with
  | .comparison comparison => .ok (.compare comparison (Literal.read right))
  | .oneOf => .ok (.oneOf (Literal.readList right))
  | .between =>
    match readBounds? right with
    | some (low, high) => .ok (.between low high)
    | none => .error (.missingBound (String.ofList whole))
  | .like => .ok (.like (String.ofList (Literal.unquote right)))
  | .ilike => .ok (.ilike (String.ofList (Literal.unquote right)))
  | .is =>
    if isNull right then .ok (.null false)
    else if isNotNull right then .ok (.null true)
    else .error (.unsupportedIsOperand (String.ofList right))

/-- The operand and test of one comparison. -/
def readParts (s : List Char) : Except Fault (Operand × Test) :=
  match Parts.read? s with
  | some ⟨some operand, token, right⟩ =>
    match Operator.ofLetters? token with
    | some operator => (readTest operator right s).map (operand, ·)
    | none => .error (.unknownOperator (String.ofList token))
  | _ => .error (.malformed (String.ofList s))

def readTrimmedComparison (s : List Char) : Condition :=
  match readParts s with
  | .ok (operand, t) => test operand t
  | .error fault => malformed (String.ofList s) fault

def readComparison (s : List Char) : Condition := readTrimmedComparison (Text.trim s)

/-- A part with the whole word BETWEEN and the part after it are one comparison. -/
def joinBounds : List (List Char) → List (List Char)
  | part :: next :: parts =>
    if Text.hasWholeKeyword .between part then
      (part ++ [' ', 'A', 'N', 'D', ' '] ++ next) :: joinBounds parts
    else part :: joinBounds (next :: parts)
  | parts => parts

/-- A single member stands for itself. -/
def combine (compose : List Condition → Condition) : List Condition → Condition
  | [condition] => condition
  | conditions => compose conditions

def readConjunction (s : List Char) : Condition :=
  combine all ((joinBounds ((Text.Separator.keyword .and).split s)).map readComparison)

def readLetters (s : List Char) : Condition :=
  combine any (((Text.Separator.keyword .or).split (Text.trim s)).map readConjunction)

def read (text : String) : Condition := readLetters text.toList

end Condition
end RecordQuery
