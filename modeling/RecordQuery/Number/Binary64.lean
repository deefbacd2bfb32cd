/-! Finite double-precision numbers. A number is its mantissa times a power of two,
counted in units of 2^-1074, so that every one of them is a whole number of
units. Each operation computes exactly and rounds once, to the nearest number
and to an even mantissa on a tie; beyond the largest number there is no result. -/
namespace RecordQuery

/-- The first number of 53 binary digits. -/
def leastNormal : Nat := 4503599627370496

/-- Zero keeps its sign. A mantissa has 53 binary digits, or fewer with the least
exponent, so that each number has one representation. -/
structure Binary64 where
  negative : Bool
  mantissa : Nat
  exponent : Nat
  mantissa_lt : mantissa < 2 * leastNormal
  normal : exponent = 0 ∨ leastNormal ≤ mantissa
  exponent_le : exponent ≤ 2045
  deriving DecidableEq

/-- The quotient to the nearest whole number, a half to the even one. -/
def roundHalfEven (n d : Nat) : Nat :=
  let quotient := n / d
  let twice := 2 * (n % d)
  if twice < d || (twice == d && quotient % 2 == 0) then quotient else quotient + 1

/-- The mantissa and exponent nearest to a quotient. -/
def nearestParts (n d : Nat) : Nat × Nat :=
  let exponent := (n / d).log2 - 52
  let mantissa := roundHalfEven n (d <<< exponent)
  if mantissa = 2 * leastNormal then (leastNormal, exponent + 1) else (mantissa, exponent)

theorem roundHalfEven_bounds (n d : Nat) :
    n / d ≤ roundHalfEven n d ∧ roundHalfEven n d ≤ n / d + 1 := by
  unfold roundHalfEven
  dsimp only
  split <;> omega

theorem shifted_quotient_bounds (n d : Nat) :
    n / (d <<< ((n / d).log2 - 52)) < 2 * leastNormal ∧
    ((n / d).log2 - 52 = 0 ∨ leastNormal ≤ n / (d <<< ((n / d).log2 - 52))) := by
  rw [Nat.shiftLeft_eq, ← Nat.div_div_eq_div_mul]
  generalize n / d = q
  have twice : 2 * leastNormal = 2 ^ 53 := rfl
  have least : leastNormal = 2 ^ 52 := rfl
  rw [twice, least]
  constructor
  · rw [Nat.div_lt_iff_lt_mul (Nat.two_pow_pos _), ← Nat.pow_add]
    exact Nat.lt_of_lt_of_le Nat.lt_log2_self (Nat.pow_le_pow_right (by decide) (by omega))
  · by_cases small : q.log2 ≤ 52
    · left; omega
    · right
      have nonzero : q ≠ 0 := by rintro rfl; simp at small
      rw [Nat.le_div_iff_mul_le (Nat.two_pow_pos _), ← Nat.pow_add]
      exact Nat.le_trans (Nat.pow_le_pow_right (by decide) (by omega)) (Nat.log2_self_le nonzero)

theorem nearestParts_mantissa_lt (n d : Nat) : (nearestParts n d).1 < 2 * leastNormal := by
  have bound := (shifted_quotient_bounds n d).1
  have rounded := (roundHalfEven_bounds n (d <<< ((n / d).log2 - 52))).2
  unfold nearestParts
  dsimp only
  split
  · show leastNormal < 2 * leastNormal
    decide
  · dsimp only; omega

theorem nearestParts_normal (n d : Nat) :
    (nearestParts n d).2 = 0 ∨ leastNormal ≤ (nearestParts n d).1 := by
  have bound := (shifted_quotient_bounds n d).2
  have rounded := (roundHalfEven_bounds n (d <<< ((n / d).log2 - 52))).1
  unfold nearestParts
  dsimp only
  split
  · exact .inr (Nat.le_refl _)
  · dsimp only; omega

theorem nearestParts_exponent_le (n d : Nat) : (nearestParts n d).2 ≤ (n / d).log2 - 52 + 1 := by
  unfold nearestParts
  dsimp only
  split <;> simp

namespace Binary64

def zero : Binary64 := ⟨false, 0, 0, by decide, .inl rfl, by decide⟩

def one : Binary64 := ⟨false, leastNormal, 1022, by decide, .inr (by decide), by decide⟩

instance : Inhabited Binary64 := ⟨zero⟩

/-- The smallest positive number is 1 over 2 to this power. -/
def unitExponent : Nat := 1074

/-- The units in a whole number one. -/
def unitsPerOne : Nat := 1 <<< unitExponent

/-- The absolute value in units. -/
def magnitude (x : Binary64) : Nat := x.mantissa <<< x.exponent

/-- The value in units. Both zeros have none. -/
def units (x : Binary64) : Int := if x.negative then -(x.magnitude : Int) else x.magnitude

/-- The number nearest to a quotient of units. -/
def ofUnits (negative : Bool) (n d : Nat) : Option Binary64 :=
  let parts := nearestParts n d
  if fits : parts.2 ≤ 2045 then
    some ⟨negative, parts.1, parts.2, nearestParts_mantissa_lt n d, nearestParts_normal n d, fits⟩
  else none

/-- The number nearest to a quotient. -/
def ofRatio (negative : Bool) (n d : Nat) : Option Binary64 := ofUnits negative (n * unitsPerOne) d

def ofInt? (i : Int) : Option Binary64 := ofRatio (i < 0) i.natAbs 1

theorem ofUnits_isSome (negative : Bool) (n d : Nat) (small : n / d < 1 <<< (unitExponent + 1022)) :
    (ofUnits negative n d).isSome = true := by
  have exponent := nearestParts_exponent_le n d
  have fits : (nearestParts n d).2 ≤ 2045 := by
    by_cases zero : n / d = 0
    · rw [zero, show Nat.log2 0 = 0 from rfl] at exponent; omega
    · rw [Nat.one_shiftLeft] at small
      have := (Nat.log2_lt zero).mpr small
      simp only [unitExponent] at this
      omega
  unfold ofUnits
  dsimp only
  rw [dif_pos fits]
  rfl

theorem ofInt?_isSome (i : Int) (small : i.natAbs ≤ 1 <<< 64) : (ofInt? i).isSome = true := by
  apply ofUnits_isSome
  rw [Nat.div_one]
  refine Nat.lt_of_le_of_lt (Nat.mul_le_mul_right unitsPerOne small) ?_
  simp only [unitsPerOne, Nat.one_shiftLeft]
  rw [← Nat.pow_add]
  exact Nat.pow_lt_pow_right (by decide) (by decide)

/-- The order of the values: the two zeros are equal. -/
def order (x y : Binary64) : Ordering := compare x.units y.units

def sameValue (x y : Binary64) : Bool := x.units == y.units

/-- The sum of two zeros is negative only if both are, and an exact zero is positive. -/
def add (x y : Binary64) : Option Binary64 :=
  let sum := x.units + y.units
  ofUnits (if sum = 0 then x.negative && y.negative else sum < 0) sum.natAbs 1

def multiply (x : Binary64) (factor : Nat) : Option Binary64 :=
  ofUnits x.negative (x.magnitude * factor) 1

def divide (x : Binary64) (divisor : Nat) : Option Binary64 :=
  ofUnits x.negative x.magnitude divisor

/-- The nearest whole number, a half away from zero. -/
def round (x : Binary64) : Option Binary64 :=
  ofRatio x.negative ((2 * x.magnitude + unitsPerOne) / (2 * unitsPerOne)) 1

/-- The whole part. -/
def truncate (x : Binary64) : Int :=
  let whole := x.magnitude / unitsPerOne
  if x.negative then -(whole : Int) else whole

end Binary64
end RecordQuery
