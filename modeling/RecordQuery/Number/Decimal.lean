import RecordQuery.Number.Binary64

/-! Decimal notation of numbers. Reading a decimal text gives the nearest
double-precision number. Writing one takes the fewest digits that read back to
it, and of those the nearest to its value. -/
namespace RecordQuery

/-- The sign of a numeral and what follows it. -/
def splitSign : List Char → Bool × List Char
  | '-' :: rest => (true, rest)
  | '+' :: rest => (false, rest)
  | rest => (false, rest)

/-- A nonempty row of digits. -/
def readDigits? (s : List Char) : Option Nat :=
  if !s.isEmpty && s.all Char.isDigit then some (Nat.ofDigitChars 10 s 0) else none

/-- Digits with an optional sign. -/
def readInt? (s : List Char) : Option Int :=
  let (negative, digits) := splitSign s
  (readDigits? digits).map fun n => if negative then -(n : Int) else n

/-- Digits with an optional plus sign. -/
def readNat? : List Char → Option Nat
  | '+' :: digits => readDigits? digits
  | digits => readDigits? digits

def powerOfTen (exponent : Nat) : Nat := Nat.pow 10 exponent

/-- `digits` times ten to the `exponent`. -/
structure Decimal where
  negative : Bool
  digits : Nat
  exponent : Int
  deriving DecidableEq, Repr

namespace Decimal

def readExponent? : List Char → Option Int
  | [] => some 0
  | c :: rest => if c = 'e' || c = 'E' then readInt? rest else none

/-- The digits before and after the point, and what follows them. -/
def splitPoint (s : List Char) : List Char × List Char × List Char :=
  match s.dropWhile Char.isDigit with
  | '.' :: rest => (s.takeWhile Char.isDigit, rest.takeWhile Char.isDigit, rest.dropWhile Char.isDigit)
  | rest => (s.takeWhile Char.isDigit, [], rest)

/-- Digits around an optional point, at least one, with an optional sign and exponent. -/
def read? (s : List Char) : Option Decimal :=
  let (negative, unsigned) := splitSign s
  let (whole, fraction, rest) := splitPoint unsigned
  (readDigits? (whole ++ fraction)).bind fun digits =>
    (readExponent? rest).map fun exponent => ⟨negative, digits, exponent - fraction.length⟩

/-- The nearest number. A value of 10^400 or more is beyond the largest one; below
2^-1077 it is nearest to zero, and the power of ten is then not computed. -/
def nearest (d : Decimal) : Option Binary64 :=
  if d.digits = 0 then some { Binary64.zero with negative := d.negative }
  else if 400 < d.exponent then none
  else if 3 * (-d.exponent).toNat > d.digits.log2 + 1 + (Binary64.unitExponent + 3) then
    some { Binary64.zero with negative := d.negative }
  else
    Binary64.ofRatio d.negative (d.digits * powerOfTen d.exponent.toNat)
      (powerOfTen (-d.exponent).toNat)

end Decimal

/-- The number of decimal digits. -/
def digitCount (n : Nat) : Nat := (Nat.toDigits 10 n).length

namespace Binary64

def ofText? (s : List Char) : Option Binary64 := (Decimal.read? s).bind Decimal.nearest

/-- The power of ten of the first digit of a number other than zero. -/
def leadingExponent (x : Binary64) : Int :=
  if unitsPerOne ≤ x.magnitude then digitCount (x.magnitude / unitsPerOne) - 1
  else -(digitCount ((unitsPerOne - 1) / x.magnitude))

/-- The two decimals of `count` digits around a number, the nearer one first; halfway
between them, the even one. -/
def neighbours (x : Binary64) (count : Nat) : List Decimal :=
  let exponent := x.leadingExponent - count + 1
  let n := x.magnitude * powerOfTen (-exponent).toNat
  let d := unitsPerOne * powerOfTen exponent.toNat
  let near := roundHalfEven n d
  let far := if near = n / d then near + 1 else n / d
  [⟨x.negative, near, exponent⟩, ⟨x.negative, far, exponent⟩]

def exact (x : Binary64) : Decimal :=
  ⟨x.negative, x.magnitude * Nat.pow 5 unitExponent, -unitExponent⟩

/-- The fewest digits that read back. Seventeen always do. -/
def shortest (x : Binary64) : Decimal :=
  ((List.range 17).findSome? fun count =>
    (x.neighbours (count + 1)).find? fun d => d.nearest = some x).getD x.exact

/-- Exponents of the first digit that are written positionally. -/
def isPositional (exponent : Int) : Bool := -5 ≤ exponent && exponent ≤ 15

def trimZeros (digits : List Char) : List Char := (digits.reverse.dropWhile (· == '0')).reverse

/-- A point among the digits, with zeros up to it and at least one digit on each side. -/
def positional (digits : List Char) (exponent : Int) : List Char :=
  if exponent < 0 then
    '0' :: '.' :: List.replicate (-exponent - 1).toNat '0' ++ digits
  else
    let places := exponent.toNat + 1
    let whole := digits.take places ++ List.replicate (places - digits.length) '0'
    let fraction := digits.drop places
    whole ++ '.' :: if fraction.isEmpty then ['0'] else fraction

/-- The first digit, the others after a point, and the exponent with its sign. -/
def scientific (digits : List Char) (exponent : Int) : List Char :=
  let fraction := digits.drop 1
  digits.take 1 ++ (if fraction.isEmpty then [] else '.' :: fraction) ++
    'e' :: (if exponent < 0 then '-' else '+') :: Nat.toDigits 10 exponent.natAbs

def text (x : Binary64) : List Char :=
  let unsigned :=
    if x.mantissa = 0 then ['0', '.', '0']
    else
      let d := x.shortest
      let digits := Nat.toDigits 10 d.digits
      let exponent := d.exponent + digits.length - 1
      if isPositional exponent then positional (trimZeros digits) exponent
      else scientific (trimZeros digits) exponent
  if x.negative then '-' :: unsigned else unsigned

end Binary64
end RecordQuery
