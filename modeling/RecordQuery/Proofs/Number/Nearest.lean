import RecordQuery.Number.Basic
import RecordQuery.Proofs.Number.Rounding
import Mathlib.Data.Int.Order.Basic
import Mathlib.Order.Compare

/-! Whole numbers in double precision. The nearest number of 53 binary digits keeps the order of
whole numbers, but not their difference: far from zero two of them may be rounded to one. -/
namespace RecordQuery

/-- Rounding goes at most half the denominator off. -/
theorem roundHalfEven_error (n : Nat) {d : Nat} (pos : 0 < d) :
    2 * (d * roundHalfEven n d) ≤ 2 * n + d ∧ 2 * n ≤ 2 * (d * roundHalfEven n d) + d := by
  have parts := Nat.div_add_mod n d
  have small := Nat.mod_lt n pos
  unfold roundHalfEven
  dsimp only
  split
  next down =>
    have rest : 2 * (n % d) ≤ d := by
      simp only [Bool.or_eq_true, decide_eq_true_eq, Bool.and_eq_true, beq_iff_eq] at down
      omega
    omega
  next up =>
    have rest : d ≤ 2 * (n % d) := by
      simp only [Bool.or_eq_true, decide_eq_true_eq, not_or] at up
      omega
    rw [Nat.mul_add, Nat.mul_one]
    omega

theorem roundHalfEven_mono {n m : Nat} (d : Nat) (order : n ≤ m) :
    roundHalfEven n d ≤ roundHalfEven m d := by
  have quotients : n / d ≤ m / d := Nat.div_le_div_right order
  rcases Nat.lt_or_eq_of_le quotients with less | same
  · have upper := (roundHalfEven_bounds n d).2
    have lower := (roundHalfEven_bounds m d).1
    omega
  · have rests : n % d ≤ m % d := by
      have parts := Nat.div_add_mod n d
      have parts' := Nat.div_add_mod m d
      rw [same] at parts
      omega
    unfold roundHalfEven
    simp only [same]
    grind

/-- The nearest of the numbers with at most 53 binary digits before their final zeros. -/
def nearestNat (n : Nat) : Nat := roundHalfEven n (2 ^ (n.log2 - 52)) * 2 ^ (n.log2 - 52)

theorem log2_mono {n m : Nat} (nonzero : n ≠ 0) (order : n ≤ m) : n.log2 ≤ m.log2 :=
  (Nat.le_log2 (by omega)).mpr (Nat.le_trans (Nat.log2_self_le nonzero) order)

theorem nearestNat_of_dvd {n : Nat} (fits : 2 ^ (n.log2 - 52) ∣ n) : nearestNat n = n := by
  obtain ⟨mantissa, product⟩ := fits
  unfold nearestNat
  generalize n.log2 - 52 = exponent at *
  rw [product, Nat.mul_comm (2 ^ exponent), roundHalfEven_mul_self _ (Nat.two_pow_pos _)]

/-- Up to 2^53 every number has few enough digits. -/
theorem nearestNat_of_le {n : Nat} (small : n ≤ 2 ^ 53) : nearestNat n = n := by
  apply nearestNat_of_dvd
  rcases Nat.lt_or_eq_of_le small with less | rfl
  · have digits : n.log2 - 52 = 0 := by
      by_cases zero : n = 0
      · rw [zero]
        rfl
      · have := (Nat.log2_lt zero).mpr less
        omega
    simp [digits]
  · rw [Nat.log2_two_pow]
    exact Nat.pow_dvd_pow 2 (by omega)

/-- Zeros at the end stay. -/
theorem nearestNat_mul_two_pow (n k : Nat) : nearestNat (n * 2 ^ k) = nearestNat n * 2 ^ k := by
  by_cases zero : n = 0
  · simp [zero, nearestNat_of_le]
  have digits : (n * 2 ^ k).log2 = n.log2 + k := by
    rw [← Nat.shiftLeft_eq, log2_shiftLeft k zero]
  by_cases few : n.log2 < 52
  · have exact : nearestNat n = n :=
      nearestNat_of_le (Nat.le_of_lt ((Nat.log2_lt zero).mp (by omega)))
    rw [exact]
    apply nearestNat_of_dvd
    rw [digits]
    exact Nat.dvd_mul_left_of_dvd (Nat.pow_dvd_pow 2 (by omega)) n
  · have exponent : n.log2 + k - 52 = (n.log2 - 52) + k := by omega
    rw [nearestNat, nearestNat, digits, exponent, Nat.pow_add,
      roundHalfEven_mul_right n _ (Nat.two_pow_pos k), Nat.mul_assoc]

theorem nearestNat_mono {n m : Nat} (order : n ≤ m) : nearestNat n ≤ nearestNat m := by
  by_cases zero : n = 0
  · simp [zero, nearestNat_of_le]
  have digits := log2_mono zero order
  by_cases same : n.log2 - 52 = m.log2 - 52
  · rw [nearestNat, nearestNat, same]
    exact Nat.mul_le_mul_right _ (roundHalfEven_mono _ order)
  · -- A power of two lies between them, and neither exponent rounds it.
    have below : n ≤ 2 ^ m.log2 :=
      Nat.le_trans (Nat.le_of_lt Nat.lt_log2_self) (Nat.pow_le_pow_right (by decide) (by omega))
    have above : 2 ^ m.log2 ≤ m := Nat.log2_self_le (by omega)
    have exact {e : Nat} (few : e ≤ m.log2) : roundHalfEven (2 ^ m.log2) (2 ^ e) * 2 ^ e = 2 ^ m.log2 := by
      rw [← Nat.sub_add_cancel few, Nat.pow_add, roundHalfEven_mul_self _ (Nat.two_pow_pos e)]
    calc nearestNat n
        ≤ roundHalfEven (2 ^ m.log2) (2 ^ (n.log2 - 52)) * 2 ^ (n.log2 - 52) :=
          Nat.mul_le_mul_right _ (roundHalfEven_mono _ below)
      _ = 2 ^ m.log2 := exact (by omega)
      _ = roundHalfEven (2 ^ m.log2) (2 ^ (m.log2 - 52)) * 2 ^ (m.log2 - 52) := (exact (by omega)).symm
      _ ≤ nearestNat m := Nat.mul_le_mul_right _ (roundHalfEven_mono _ above)

/-- Two numbers that are rounded to one have 54 digits or more, and are no farther apart than the
last of the first 53 digits counts. -/
theorem of_nearestNat_eq {n m : Nat} (less : n < m) (same : nearestNat n = nearestNat m) :
    2 ^ 53 ≤ n ∧ (m - n) * 2 ^ 52 ≤ m := by
  have large : 2 ^ 53 ≤ n := by
    by_contra small
    have exact := nearestNat_of_le (show n ≤ 2 ^ 53 by omega)
    have next := nearestNat_of_le (show n + 1 ≤ 2 ^ 53 by omega)
    have order := nearestNat_mono (show n + 1 ≤ m by omega)
    omega
  refine ⟨large, ?_⟩
  have digits : 52 ≤ m.log2 := (Nat.le_log2 (by omega)).mpr (by omega)
  have last : 2 ^ (m.log2 - 52) * 2 ^ 52 ≤ m := by
    rw [← Nat.pow_add, Nat.sub_add_cancel digits]
    exact Nat.log2_self_le (by omega)
  have order : n.log2 ≤ m.log2 := log2_mono (by omega) (Nat.le_of_lt less)
  have steps : 2 ^ (n.log2 - 52) ≤ 2 ^ (m.log2 - 52) := Nat.pow_le_pow_right (by decide) (by omega)
  have error := (roundHalfEven_error n (Nat.two_pow_pos (n.log2 - 52))).1
  have error' := (roundHalfEven_error m (Nat.two_pow_pos (m.log2 - 52))).2
  rw [Nat.mul_comm (2 ^ _)] at error error'
  have apart : m - n ≤ 2 ^ (m.log2 - 52) := by
    unfold nearestNat at same
    omega
  exact Nat.le_trans (Nat.mul_le_mul_right _ apart) last

/-- The nearest whole number, with its sign. -/
def nearestInt (i : Int) : Int := if i < 0 then -(nearestNat i.natAbs : Int) else nearestNat i.natAbs

theorem nearestInt_of_le {i : Int} (small : i.natAbs ≤ 2 ^ 53) : nearestInt i = i := by
  rw [nearestInt, nearestNat_of_le small]
  omega

theorem nearestInt_mono {i j : Int} (order : i ≤ j) : nearestInt i ≤ nearestInt j := by
  unfold nearestInt
  rcases lt_or_ge i 0 with below | above
  · rcases lt_or_ge j 0 with below' | above'
    · have rounded := nearestNat_mono (show j.natAbs ≤ i.natAbs by omega)
      simp only [below, below', if_pos]
      omega
    · rw [if_pos below, if_neg (by omega)]
      omega
  · have rounded := nearestNat_mono (show i.natAbs ≤ j.natAbs by omega)
    rw [if_neg (by omega), if_neg (by omega)]
    omega

/-- Two whole numbers that double precision does not tell apart. -/
def Blurred (i j : Int) : Prop := i ≠ j ∧ nearestInt i = nearestInt j

instance (i j : Int) : Decidable (Blurred i j) := inferInstanceAs (Decidable (_ ∧ _))

theorem nearestInt_eq_iff {i j : Int} (apart : ¬ Blurred i j) : nearestInt i = nearestInt j ↔ i = j :=
  ⟨fun same => by_contra fun different => apart ⟨different, same⟩, congrArg nearestInt⟩

/-- What is not blurred keeps its order. -/
theorem compare_nearestInt {i j : Int} (apart : ¬ Blurred i j) :
    compare (nearestInt i) (nearestInt j) = compare i j := by
  have same := nearestInt_eq_iff apart
  rcases lt_trichotomy i j with less | rfl | greater
  · have order := nearestInt_mono (Int.le_of_lt less)
    rw [compare_lt_iff_lt.mpr less, compare_lt_iff_lt.mpr (by omega)]
  · rw [compare_eq_iff_eq.mpr rfl, compare_eq_iff_eq.mpr rfl]
  · have order := nearestInt_mono (Int.le_of_lt greater)
    rw [compare_gt_iff_gt.mpr greater, compare_gt_iff_gt.mpr (by omega)]

/-- Only numbers of 54 binary digits or more are blurred, and only with their neighbourhood. -/
theorem Blurred.far {i j : Int} (blurred : Blurred i j) :
    2 ^ 53 ≤ i.natAbs ∧ 2 ^ 53 ≤ j.natAbs ∧ (i - j).natAbs * 2 ^ 52 ≤ max i.natAbs j.natAbs := by
  obtain ⟨different, same⟩ := blurred
  have one := nearestInt_of_le (show (-1 : Int).natAbs ≤ 2 ^ 53 by decide)
  have zero := nearestInt_of_le (show (0 : Int).natAbs ≤ 2 ^ 53 by decide)
  have sides {a b : Int} (below : a < 0) (above : 0 ≤ b) : nearestInt a ≠ nearestInt b := by
    have order := nearestInt_mono (show a ≤ -1 by omega)
    have order' := nearestInt_mono above
    omega
  have together : i < 0 ↔ j < 0 := by
    constructor
    · intro below
      by_contra above
      exact sides below (by omega) same
    · intro below
      by_contra above
      exact sides below (by omega) same.symm
  have sizes : nearestNat i.natAbs = nearestNat j.natAbs := by
    unfold nearestInt at same
    by_cases below : i < 0
    · rw [if_pos below, if_pos (together.mp below)] at same
      omega
    · rw [if_neg below, if_neg (mt together.mpr below)] at same
      omega
  rcases Nat.lt_or_ge i.natAbs j.natAbs with less | greater
  · have far := of_nearestNat_eq less sizes
    have apart : (i - j).natAbs = j.natAbs - i.natAbs := by omega
    rw [apart]
    omega
  · have far := of_nearestNat_eq (show j.natAbs < i.natAbs by omega) sizes.symm
    have apart : (i - j).natAbs = i.natAbs - j.natAbs := by omega
    rw [apart]
    omega

namespace Binary64

/-- A whole number of units is rounded to the nearest one. -/
theorem magnitude_of_ofUnits {negative : Bool} {n : Nat} {x : Binary64}
    (nearest : ofUnits negative n 1 = some x) : x.magnitude = nearestNat n ∧ x.negative = negative := by
  have parts : (nearestParts n 1).1 <<< (nearestParts n 1).2 = nearestNat n := by
    simp only [nearestParts, nearestNat, Nat.div_one, Nat.shiftLeft_eq, Nat.one_mul]
    generalize n.log2 - 52 = exponent
    split
    next full =>
      show leastNormal * 2 ^ (exponent + 1) = roundHalfEven n (2 ^ exponent) * 2 ^ exponent
      rw [full, Nat.pow_succ]
      ac_rfl
    next => rfl
  unfold ofUnits at nearest
  dsimp only at nearest
  split at nearest
  · cases nearest
    exact ⟨parts, rfl⟩
  · cases nearest

theorem units_of_ofInt? {i : Int} {x : Binary64} (nearest : ofInt? i = some x) :
    x.units = nearestInt i * unitsPerOne := by
  obtain ⟨magnitude, negative⟩ := magnitude_of_ofUnits nearest
  rw [unitsPerOne, Nat.one_shiftLeft, nearestNat_mul_two_pow] at magnitude
  rw [units, magnitude, negative, unitsPerOne, Nat.one_shiftLeft, nearestInt, Int.natCast_mul]
  generalize ((2 ^ unitExponent : Nat) : Int) = one
  simp only [decide_eq_true_eq]
  split
  · exact (Int.neg_mul ..).symm
  · rfl

theorem unitsPerOne_pos : (0 : Int) < unitsPerOne := by
  rw [unitsPerOne, Nat.one_shiftLeft]
  exact Int.natCast_pos.mpr (Nat.two_pow_pos _)

end Binary64

theorem Number.units_whole (i : Int) (fits : IsWhole64 i) :
    (Number.whole i fits).toBinary64.units = nearestInt i * Binary64.unitsPerOne := by
  rw [toBinary64]
  exact Binary64.units_of_ofInt? (Option.some_get _).symm

end RecordQuery
