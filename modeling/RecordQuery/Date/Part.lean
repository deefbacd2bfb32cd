import RecordQuery.Date.Reading
import RecordQuery.Value.Basic

/-! Parts of dates in field values. A text is read as a date, a number as
milliseconds after the start of 1970; what is no date has no parts. -/
namespace RecordQuery

/-- A whole number as a value, null beyond 64 bits. -/
def Value.ofInt (i : Int) : Value :=
  match Number.ofInt? i with
  | some n => .number n
  | none => .null

theorem Value.ofInt_of_isWhole64 {i : Int} (fits : IsWhole64 i) : ofInt i = .number (.whole i fits) := by
  rw [ofInt, Number.ofInt?, dif_pos fits]

def Value.date? : Value → Option Date
  | .number n => Date.ofMilliseconds? n.truncate
  | .text s => Date.read? s
  | _ => none

inductive DatePart where
  | year | month | day
  deriving DecidableEq, Repr

namespace DatePart

def name : DatePart → String
  | year => "YEAR"
  | month => "MONTH"
  | day => "DAY"

/-- The part with this name. The case of the letters A to Z does not matter. -/
def ofLetters? (letters : List Char) : Option DatePart :=
  match letters.map Char.toUpper with
  | ['Y', 'E', 'A', 'R'] => some year
  | ['M', 'O', 'N', 'T', 'H'] => some month
  | ['D', 'A', 'Y'] => some day
  | _ => none

def ofDate (d : Date) : DatePart → Int
  | year => d.year
  | month => d.month
  | day => d.day

/-- The part of a field value, null when the field is missing or is no date. -/
def extract (part : DatePart) (value : Option Value) : Value :=
  match value.bind Value.date? with
  | some date => .ofInt (part.ofDate date)
  | none => .null

end DatePart
end RecordQuery
