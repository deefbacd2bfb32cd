import RecordQuery.Date.Basic
import RecordQuery.Number.Decimal
import RecordQuery.Text.Blank

/-! Reading of dates. The strict form is that of Internet timestamps, with fixed
widths and an offset from Universal Time; its date is the one written. The other
forms have numbers of free width, white space before each number, and no offset. -/
namespace RecordQuery.Date

/-- A number of `least` to `most` digits, as many as there are. -/
def readNumber? (least most : Nat) (s : List Char) : Option (Nat × List Char) :=
  let digits := (s.take most).takeWhile Char.isDigit
  if digits.length < least then none
  else some (Nat.ofDigitChars 10 digits 0, s.drop digits.length)

/-- One or more digits after a point. -/
def skipFraction? : List Char → Option (List Char)
  | '.' :: rest => if rest.head?.any Char.isDigit then some (rest.dropWhile Char.isDigit) else none
  | s => some s

/-- The hour, minute and second of a day. A minute may have a leap second. -/
def IsTime (hour minute second : Nat) : Prop := hour ≤ 23 ∧ minute ≤ 59 ∧ second ≤ 60

instance (hour minute second : Nat) : Decidable (IsTime hour minute second) :=
  inferInstanceAs (Decidable (_ ∧ _))

/-- A zulu mark, or a signed offset of less than a day at the end of the text. -/
def isOffset : List Char → Bool
  | ['Z'] | ['z'] => true
  | [sign, h, h', ':', m, m'] =>
    (sign = '+' || sign = '-' || sign = '\u2212') &&
      h.isDigit && h'.isDigit && m.isDigit && m'.isDigit &&
      Nat.ofDigitChars 10 [h, h'] 0 ≤ 23 && Nat.ofDigitChars 10 [m, m'] 0 ≤ 59
  | _ => false

/-- A date and a time of fixed widths, with a letter or a space between them, and an offset. -/
def readTimestamp? (s : List Char) : Option Date := do
  let (year, s) ← readNumber? 4 4 s
  let s ← Text.skipChar? '-' s
  let (month, s) ← readNumber? 2 2 s
  let s ← Text.skipChar? '-' s
  let (day, s) ← readNumber? 2 2 s
  let s ← (Text.skipChar? 'T' s).or ((Text.skipChar? 't' s).or (Text.skipChar? ' ' s))
  let (hour, s) ← readNumber? 2 2 s
  let s ← Text.skipChar? ':' s
  let (minute, s) ← readNumber? 2 2 s
  let s ← Text.skipChar? ':' s
  let (second, s) ← readNumber? 2 2 s
  let s ← skipFraction? s
  if IsTime hour minute second ∧ isOffset s = true then ofFields? year month day else none

/-- A year of up to four digits, or of any number of digits after a sign. -/
def readYear? (s : List Char) : Option (Int × List Char) :=
  match Text.trimStart s with
  | '-' :: rest => (readNumber? 1 rest.length rest).map fun (n, rest) => (-(n : Int), rest)
  | '+' :: rest => (readNumber? 1 rest.length rest).map fun (n, rest) => ((n : Int), rest)
  | rest => (readNumber? 1 4 rest).map fun (n, rest) => ((n : Int), rest)

/-- A number of one or two digits. -/
def readField? (s : List Char) : Option (Nat × List Char) := readNumber? 1 2 (Text.trimStart s)

/-- A date that starts a text, and what follows it. -/
def readDay? (s : List Char) : Option (Option Date × List Char) := do
  let (year, s) ← readYear? s
  let s ← Text.skipChar? '-' s
  let (month, s) ← readField? s
  let s ← Text.skipChar? '-' s
  let (day, s) ← readField? s
  return (ofFields? year month day, s)

/-- Hours, minutes and seconds that start a text, and what follows them. -/
def skipTime? (s : List Char) : Option (List Char) := do
  let (hour, s) ← readField? s
  let s ← Text.skipChar? ':' s
  let (minute, s) ← readField? s
  let s ← Text.skipChar? ':' s
  let (second, s) ← readField? s
  if IsTime hour minute second then some s else none

/-- A date, what `skipGap?` takes, a time, and what `skipEnd?` takes. -/
def readDayTime? (skipGap? skipEnd? : List Char → Option (List Char)) (s : List Char) :
    Option Date := do
  let (date, s) ← readDay? s
  let s ← skipTime? (← skipGap? s)
  let s ← skipEnd? s
  if s.isEmpty then date else none

def readDayOnly? (s : List Char) : Option Date := do
  let (date, s) ← readDay? s
  if s.isEmpty then date else none

/-- A date, with or without a time, and with white space around it. -/
def read? (text : String) : Option Date :=
  let s := Text.trim text.toList
  (readTimestamp? s).or <|
  (readDayTime? (some ∘ Text.trimStart) some s).or <|
  (readDayTime? (Text.skipChar? 'T') some s).or <|
  (readDayTime? (Text.skipChar? 'T') skipFraction? s).or <|
  readDayOnly? s

end RecordQuery.Date
