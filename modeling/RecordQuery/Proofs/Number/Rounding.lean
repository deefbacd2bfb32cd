import Mathlib.Algebra.Group.Nat.Defs
import RecordQuery.Number.Decimal

/-! Rounding of quotients and decimals. The result depends on the value alone, not on the
numerator and denominator or the power of ten it is given with, and a number is the rounding
of its own value. -/
namespace RecordQuery

theorem roundHalfEven_mul_right (n d : Nat) {c : Nat} (pos : 0 < c) :
    roundHalfEven (n * c) (d * c) = roundHalfEven n d := by
  have quotient : n * c / (d * c) = n / d := Nat.mul_div_mul_right n d pos
  have rest : 2 * (n * c % (d * c)) = 2 * (n % d) * c := by
    rw [Nat.mul_mod_mul_right, Nat.mul_assoc]
  have less : 2 * (n % d) * c < d * c ↔ 2 * (n % d) < d := Nat.mul_lt_mul_right pos
  have half : (2 * (n % d) * c == d * c) = (2 * (n % d) == d) := by
    rw [Bool.eq_iff_iff, beq_iff_eq, beq_iff_eq, Nat.mul_left_inj (by omega)]
  simp only [roundHalfEven, quotient, rest, less, half]

/-- A whole quotient is not rounded. -/
theorem roundHalfEven_mul_self (n : Nat) {d : Nat} (pos : 0 < d) : roundHalfEven (n * d) d = n := by
  have quotient : n * d / d = n := Nat.mul_div_cancel n pos
  have rest : n * d % d = 0 := Nat.mul_mod_left n d
  simp [roundHalfEven, quotient, rest, pos]

theorem roundHalfEven_eq_zero {n d : Nat} (small : 2 * n < d) : roundHalfEven n d = 0 := by
  have quotient : n / d = 0 := Nat.div_eq_of_lt (by omega)
  have rest : n % d = n := Nat.mod_eq_of_lt (by omega)
  simp [roundHalfEven, quotient, rest, small]

theorem nearestParts_mul_right (n d : Nat) {c : Nat} (pos : 0 < c) :
    nearestParts (n * c) (d * c) = nearestParts n d := by
  have shifted (e : Nat) : (d * c) <<< e = (d <<< e) * c := by
    rw [Nat.shiftLeft_eq, Nat.shiftLeft_eq, Nat.mul_right_comm]
  simp only [nearestParts, Nat.mul_div_mul_right n d pos, shifted, roundHalfEven_mul_right _ _ pos]

/-- Equal quotients are rounded to the same mantissa and exponent. -/
theorem nearestParts_congr {n d n' d' : Nat} (pos : 0 < d) (pos' : 0 < d')
    (same : n * d' = n' * d) : nearestParts n d = nearestParts n' d' := by
  rw [← nearestParts_mul_right n d pos', ← nearestParts_mul_right n' d' pos, same, Nat.mul_comm d d']

theorem log2_shiftLeft {n : Nat} (e : Nat) (nonzero : n ≠ 0) : (n <<< e).log2 = n.log2 + e := by
  have product : n * 2 ^ e ≠ 0 := Nat.mul_ne_zero nonzero (by have := Nat.two_pow_pos e; omega)
  rw [Nat.shiftLeft_eq, Nat.log2_eq_iff product, Nat.pow_add,
    show n.log2 + e + 1 = (n.log2 + 1) + e by omega, Nat.pow_add]
  constructor
  · exact Nat.mul_le_mul_right _ (Nat.log2_self_le nonzero)
  · exact Nat.mul_lt_mul_of_pos_right Nat.lt_log2_self (Nat.two_pow_pos e)

namespace Binary64

theorem ofUnits_congr {negative : Bool} {n d n' d' : Nat} (pos : 0 < d) (pos' : 0 < d')
    (same : n * d' = n' * d) : ofUnits negative n d = ofUnits negative n' d' := by
  simp only [ofUnits, nearestParts_congr pos pos' same]

theorem nearestParts_magnitude (x : Binary64) :
    nearestParts x.magnitude 1 = (x.mantissa, x.exponent) := by
  have least : leastNormal = 2 ^ 52 := rfl
  have exponent : (x.magnitude / 1).log2 - 52 = x.exponent := by
    rw [Nat.div_one, magnitude]
    rcases x.normal with zero | normal
    · rw [zero, Nat.shiftLeft_zero]
      by_cases nonzero : x.mantissa = 0
      · rw [nonzero]
        rfl
      · have bound : x.mantissa.log2 < 53 := (Nat.log2_lt nonzero).mpr x.mantissa_lt
        omega
    · have nonzero : x.mantissa ≠ 0 := by omega
      have lower : 52 ≤ x.mantissa.log2 := (Nat.le_log2 nonzero).mpr normal
      have upper : x.mantissa.log2 < 53 := (Nat.log2_lt nonzero).mpr x.mantissa_lt
      rw [log2_shiftLeft _ nonzero]
      omega
  have rounded : roundHalfEven x.magnitude (1 <<< x.exponent) = x.mantissa := by
    rw [magnitude, Nat.shiftLeft_eq, Nat.one_shiftLeft]
    exact roundHalfEven_mul_self _ (Nat.two_pow_pos _)
  have small := x.mantissa_lt
  rw [nearestParts, exponent, rounded]
  exact if_neg (by omega)

/-- A number is the one nearest to its own value. -/
theorem ofUnits_magnitude (x : Binary64) : ofUnits x.negative x.magnitude 1 = some x := by
  unfold ofUnits
  simp only [nearestParts_magnitude, x.exponent_le, ↓reduceDIte]

theorem ofUnits_eq_none {n d : Nat} (negative : Bool) (large : 1 <<< 2098 ≤ n / d) :
    ofUnits negative n d = none := by
  have exponent : 2046 ≤ (nearestParts n d).2 := by
    have pos := Nat.lt_of_lt_of_le (Nat.two_pow_pos 2098) (Nat.one_shiftLeft 2098 ▸ large)
    have log : 2098 ≤ (n / d).log2 := (Nat.le_log2 (by omega)).mpr (Nat.one_shiftLeft 2098 ▸ large)
    unfold nearestParts
    dsimp only
    split <;> dsimp only <;> omega
  unfold ofUnits
  dsimp only
  exact dif_neg (by omega)

/-- A value of less than half a unit is rounded to zero. -/
theorem mantissa_of_small {negative : Bool} {n d : Nat} {x : Binary64} (small : 2 * n < d)
    (rounded : ofUnits negative n d = some x) : x.mantissa = 0 := by
  have parts : (nearestParts n d).1 = 0 := by
    have zero : n / d = 0 := Nat.div_eq_of_lt (by omega)
    have log : Nat.log2 0 - 52 = 0 := rfl
    simp only [nearestParts, zero, log, Nat.shiftLeft_zero, roundHalfEven_eq_zero small]
    rfl
  unfold ofUnits at rounded
  dsimp only at rounded
  split at rounded
  · cases rounded
    exact parts
  · cases rounded

end Binary64

namespace Decimal

/-- The number nearest to the value, with the power of ten computed however large it is. -/
def rounded (d : Decimal) : Option Binary64 :=
  Binary64.ofRatio d.negative (d.digits * powerOfTen d.exponent.toNat)
    (powerOfTen (-d.exponent).toNat)

theorem powerOfTen_pos (e : Nat) : 0 < powerOfTen e := Nat.pow_pos (by decide)

theorem powerOfTen_add (e f : Nat) : powerOfTen (e + f) = powerOfTen e * powerOfTen f :=
  Nat.pow_add 10 e f

theorem powerOfTen_le {e f : Nat} (order : e ≤ f) : powerOfTen e ≤ powerOfTen f :=
  Nat.pow_le_pow_right (by decide) order

theorem powerOfTen_eq (e : Nat) : powerOfTen e = Nat.pow 5 e * 1 <<< e := by
  rw [Nat.one_shiftLeft]
  exact Nat.mul_pow 5 2 e

theorem two_pow_le_powerOfTen (e : Nat) : 2 ^ (3 * e) ≤ powerOfTen e := by
  rw [Nat.pow_mul]
  exact Nat.pow_le_pow_left (by decide) e

theorem shiftLeft_le_mul (least : Nat) {e f n : Nat} (order : least ≤ e + f) (bound : 2 ^ e ≤ n) :
    1 <<< least ≤ n * 1 <<< f := by
  rw [Nat.one_shiftLeft, Nat.one_shiftLeft]
  refine Nat.le_trans (Nat.pow_le_pow_right (by decide) order) ?_
  rw [Nat.pow_add]
  exact Nat.mul_le_mul_right _ bound

/-- A value of 10^400 or more is beyond the largest number. -/
theorem rounded_of_large {d : Decimal} (nonzero : d.digits ≠ 0) (large : 400 < d.exponent) :
    d.rounded = none := by
  apply Binary64.ofUnits_eq_none
  have down : (-d.exponent).toNat = 0 := by omega
  have up : 2 ^ (3 * 401) ≤ powerOfTen d.exponent.toNat :=
    Nat.le_trans (two_pow_le_powerOfTen 401) (powerOfTen_le (by omega))
  have value : 2 ^ (3 * 401) ≤ d.digits * powerOfTen d.exponent.toNat :=
    Nat.le_trans up (Nat.le_mul_of_pos_left _ (by omega))
  rw [down, show powerOfTen 0 = 1 from rfl, Nat.div_one]
  exact shiftLeft_le_mul 2098 (by decide) value

/-- A value below 2^-1077 is rounded to zero. -/
theorem mantissa_of_small {d : Decimal} {x : Binary64}
    (small : 3 * (-d.exponent).toNat > d.digits.log2 + 1 + (Binary64.unitExponent + 3))
    (rounded : d.rounded = some x) : x.mantissa = 0 := by
  refine Binary64.mantissa_of_small ?_ rounded
  have up : d.exponent.toNat = 0 := by omega
  have digits : d.digits < 2 ^ (d.digits.log2 + 1) := Nat.lt_log2_self
  rw [up, show powerOfTen 0 = 1 from rfl, Nat.mul_one, Binary64.unitsPerOne, Nat.one_shiftLeft]
  calc 2 * (d.digits * 2 ^ Binary64.unitExponent)
      < 2 * (2 ^ (d.digits.log2 + 1) * 2 ^ Binary64.unitExponent) :=
        Nat.mul_lt_mul_of_pos_left
          (Nat.mul_lt_mul_of_pos_right digits (Nat.two_pow_pos _)) (by decide)
    _ = 2 ^ (d.digits.log2 + 1 + Binary64.unitExponent + 1) := by
        rw [← Nat.pow_add, Nat.mul_comm, ← Nat.pow_succ]
    _ ≤ 2 ^ (3 * (-d.exponent).toNat) := Nat.pow_le_pow_right (by decide) (by omega)
    _ ≤ powerOfTen (-d.exponent).toNat := two_pow_le_powerOfTen _

/-- The powers of ten that are not computed make no difference. -/
theorem nearest_eq_some_iff {d : Decimal} {x : Binary64} (nonzero : x.mantissa ≠ 0) :
    d.nearest = some x ↔ d.rounded = some x := by
  unfold nearest
  split
  next zero =>
    constructor
    · rintro ⟨⟩
      exact absurd rfl nonzero
    · intro rounded
      refine absurd (Binary64.mantissa_of_small ?_ rounded) nonzero
      rw [zero, Nat.zero_mul, Nat.zero_mul]
      exact powerOfTen_pos _
  next digits =>
    split
    next large => simp [rounded_of_large digits large]
    next =>
      split
      next small =>
        constructor
        · rintro ⟨⟩
          exact absurd rfl nonzero
        · intro rounded
          exact absurd (mantissa_of_small small rounded) nonzero
      next => exact Iff.rfl

/-- Zeros at the end of the digits are taken back by the exponent. -/
theorem rounded_zeros (negative : Bool) (digits : Nat) (exponent : Int) (zeros : Nat) :
    (⟨negative, digits * powerOfTen zeros, exponent - zeros⟩ : Decimal).rounded =
      (⟨negative, digits, exponent⟩ : Decimal).rounded := by
  apply Binary64.ofUnits_congr (powerOfTen_pos _) (powerOfTen_pos _)
  have powers : powerOfTen zeros * powerOfTen (exponent - zeros).toNat * powerOfTen (-exponent).toNat =
      powerOfTen exponent.toNat * powerOfTen (-(exponent - zeros)).toNat := by
    rw [← powerOfTen_add, ← powerOfTen_add, ← powerOfTen_add]
    congr 1
    omega
  calc digits * powerOfTen zeros * powerOfTen (exponent - zeros).toNat * Binary64.unitsPerOne *
        powerOfTen (-exponent).toNat
      = digits * Binary64.unitsPerOne *
          (powerOfTen zeros * powerOfTen (exponent - zeros).toNat * powerOfTen (-exponent).toNat) := by
        simp only [Nat.mul_assoc, Nat.mul_left_comm, Nat.mul_comm]
    _ = _ := by
        rw [powers]
        simp only [Nat.mul_assoc, Nat.mul_left_comm, Nat.mul_comm]

end Decimal

namespace Binary64

theorem rounded_exact (x : Binary64) : x.exact.rounded = some x := by
  rw [← ofUnits_magnitude x]
  apply ofUnits_congr (Decimal.powerOfTen_pos _) Nat.one_pos
  have tens : powerOfTen unitExponent = Nat.pow 5 unitExponent * unitsPerOne := by
    rw [Decimal.powerOfTen_eq, unitsPerOne]
  have up : (-(unitExponent : Int)).toNat = 0 := by omega
  have down : (-(-(unitExponent : Int))).toNat = unitExponent := by omega
  simp only [exact, up, down, show powerOfTen 0 = 1 from rfl, Nat.mul_one, tens, Nat.mul_assoc]

/-- The shortest decimal reads back. -/
theorem nearest_shortest {x : Binary64} (nonzero : x.mantissa ≠ 0) : x.shortest.nearest = some x := by
  unfold shortest
  cases found : (List.range 17).findSome? fun count =>
      (x.neighbours (count + 1)).find? fun d => d.nearest = some x with
  | none => exact (Decimal.nearest_eq_some_iff nonzero).mpr (rounded_exact x)
  | some d =>
    obtain ⟨count, _, found⟩ := List.exists_of_findSome?_eq_some found
    simpa using List.find?_some found

end Binary64
end RecordQuery
