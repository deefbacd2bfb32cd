import RecordQuery.Number.Decimal

/-! Numbers of a record: whole numbers of 64 bits, signed or unsigned, and
double-precision numbers. The two kinds are different values, yet they are
compared by the double-precision number nearest to each. -/
namespace RecordQuery

/-- The range of signed numbers of 64 bits. -/
def IsSigned64 (i : Int) : Prop := -9223372036854775808 ≤ i ∧ i < 9223372036854775808

/-- From the least signed to the greatest unsigned number of 64 bits. -/
def IsWhole64 (i : Int) : Prop := -9223372036854775808 ≤ i ∧ i < 18446744073709551616

instance (i : Int) : Decidable (IsSigned64 i) := inferInstanceAs (Decidable (_ ∧ _))

instance (i : Int) : Decidable (IsWhole64 i) := inferInstanceAs (Decidable (_ ∧ _))

inductive Number where
  | whole (value : Int) (fits : IsWhole64 value)
  | float (value : Binary64)
  deriving DecidableEq

namespace Number

def zero : Number := .whole 0 (by decide)

def ofInt? (i : Int) : Option Number := if fits : IsWhole64 i then some (.whole i fits) else none

/-- A value that fits the signed range. -/
def signed? : Number → Option Int
  | whole i _ => if IsSigned64 i then some i else none
  | float _ => none

theorem natAbs_le_of_isWhole64 {i : Int} (fits : IsWhole64 i) : i.natAbs ≤ 1 <<< 64 := by
  unfold IsWhole64 at fits
  rw [Nat.one_shiftLeft]
  omega

/-- The nearest double-precision number. -/
def toBinary64 : Number → Binary64
  | whole i fits => (Binary64.ofInt? i).get (Binary64.ofInt?_isSome i (natAbs_le_of_isWhole64 fits))
  | float x => x

def order (a b : Number) : Ordering := a.toBinary64.order b.toBinary64

def sameValue (a b : Number) : Bool := a.toBinary64.sameValue b.toBinary64

/-- The whole part. A whole number beyond the signed range goes through the nearest
double-precision number. -/
def truncate (n : Number) : Int := n.signed?.getD n.toBinary64.truncate

def intText (i : Int) : List Char :=
  if i < 0 then '-' :: Nat.toDigits 10 i.natAbs else Nat.toDigits 10 i.natAbs

def text : Number → List Char
  | whole i _ => intText i
  | float x => x.text

end Number
end RecordQuery
