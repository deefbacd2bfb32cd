/-! Dates of the proleptic Gregorian calendar. Days are numbered from 1 January
1970, and every day number in range belongs to one date. -/
namespace RecordQuery

structure Date where
  year : Int
  month : Nat
  day : Nat
  deriving DecidableEq, Repr

namespace Date

def isLeapYear (year : Int) : Bool := year % 4 = 0 && (year % 100 ≠ 0 || year % 400 = 0)

def daysInMonth (year : Int) (month : Nat) : Nat :=
  match month with
  | 2 => if isLeapYear year then 29 else 28
  | 4 | 6 | 9 | 11 => 30
  | _ => 31

/-- The month and the day exist in the calendar. -/
def IsValid (d : Date) : Prop :=
  1 ≤ d.month ∧ d.month ≤ 12 ∧ 1 ≤ d.day ∧ d.day ≤ daysInMonth d.year d.month

instance (d : Date) : Decidable d.IsValid := inferInstanceAs (Decidable (_ ∧ _))

/-- The years that have dates. -/
def YearInRange (year : Int) : Prop := -262143 ≤ year ∧ year ≤ 262142

instance (year : Int) : Decidable (YearInRange year) := inferInstanceAs (Decidable (_ ∧ _))

def ofFields? (year : Int) (month day : Nat) : Option Date :=
  if YearInRange year ∧ IsValid ⟨year, month, day⟩ then some ⟨year, month, day⟩ else none

/-- The days from 1 January of year 1 to the start of a year. -/
def daysBeforeYear (year : Int) : Int :=
  365 * (year - 1) + (year - 1) / 4 - (year - 1) / 100 + (year - 1) / 400

/-- The days of the year before a month starts. -/
def daysBeforeMonth (year : Int) : Nat → Nat
  | 0 | 1 => 0
  | month + 2 => daysBeforeMonth year (month + 1) + daysInMonth year (month + 1)

/-- The days from 1 January of year 1 to 1 January 1970. -/
def epoch : Int := 719162

def dayNumber (d : Date) : Int :=
  daysBeforeYear d.year + daysBeforeMonth d.year d.month + d.day - 1 - epoch

/-- The year of a day counted from 1 January of year 1. The average length of a year
gives it up to one. -/
def yearOf (days : Int) : Int :=
  let guess := days * 400 / 146097 + 1
  if days < daysBeforeYear guess then guess - 1
  else if daysBeforeYear (guess + 1) ≤ days then guess + 1
  else guess

/-- The last month that starts no later than a day of the year. -/
def monthOf (year : Int) (dayOfYear : Nat) : Nat :=
  (List.range 12).countP fun m => daysBeforeMonth year (m + 1) ≤ dayOfYear

def ofDayNumber? (n : Int) : Option Date :=
  let days := n + epoch
  let year := yearOf days
  let dayOfYear := (days - daysBeforeYear year).toNat
  let month := monthOf year dayOfYear
  ofFields? year month (dayOfYear - daysBeforeMonth year month + 1)

/-- The date in Universal Time, a number of milliseconds after the start of 1970. -/
def ofMilliseconds? (milliseconds : Int) : Option Date := ofDayNumber? (milliseconds / 86400000)

def twoDigits (n : Nat) : List Char := [Nat.digitChar (n / 10 % 10), Nat.digitChar (n % 10)]

/-- Years before 0 and after 9999 have a sign, and every year at least four digits. -/
def text (d : Date) : String :=
  let sign := if d.year < 0 then ['-'] else if 9999 < d.year then ['+'] else []
  let digits := Nat.toDigits 10 d.year.natAbs
  String.ofList (sign ++ List.replicate (4 - digits.length) '0' ++ digits ++
    '-' :: twoDigits d.month ++ '-' :: twoDigits d.day)

end Date
end RecordQuery
