import RecordQuery.Text.Blank
import RecordQuery.Value.Basic

/-! Literals of a condition. What is no keyword and no number is text, with one
layer of quotes taken off. -/
namespace RecordQuery.Literal

/-- A text in a pair of equal quotes loses them. -/
def unquote : List Char → List Char
  | [] => []
  | c :: cs =>
    if (c = '\'' || c = '"') && cs.getLast? = some c then cs.dropLast else c :: cs

/-- Digits within the signed range make a whole number, other numerals the nearest
double-precision one. -/
def readNumber? (s : List Char) : Option Number :=
  ((readInt? s).bind fun i => if IsSigned64 i then Number.ofInt? i else none).or
    ((Binary64.ofText? s).map .float)

def readTrimmed (s : List Char) : Value :=
  if s = ['N', 'U', 'L', 'L'] ∨ s = ['n', 'u', 'l', 'l'] then .null
  else if s = ['t', 'r', 'u', 'e'] then .bool true
  else if s = ['f', 'a', 'l', 's', 'e'] then .bool false
  else match readNumber? s with
    | some n => .number n
    | none => .text (String.ofList (unquote s))

def read (s : List Char) : Value := readTrimmed (Text.trim s)

/-- The nonempty items between the commas. Every parenthesis in the text is dropped. -/
def readList (s : List Char) : List Value :=
  let items := (s.filter fun c => c ≠ '(' && c ≠ ')').splitOn ','
  ((items.map Text.trim).filter fun item => !item.isEmpty).map readTrimmed

end RecordQuery.Literal
