import Mathlib.Data.Nat.Dist
import RecordQuery.Proofs.Number.Nearest

/-! Rounding to the closest number. Within the exponent of a value the rounded mantissa is the closest
one, and on a tie an even one. Finer numbers all lie below the least mantissa of that exponent, and so
farther off. -/
namespace RecordQuery

theorem roundHalfEven_dist_le (n j : Nat) {d : Nat} (pos : 0 < d) :
    Nat.dist (roundHalfEven n d * d) n ≤ Nat.dist (j * d) n := by
  have error := roundHalfEven_error n pos
  rw [Nat.mul_comm d] at error
  unfold Nat.dist
  rcases Nat.lt_trichotomy j (roundHalfEven n d) with less | rfl | greater
  · have step := Nat.mul_le_mul_right d (Nat.succ_le_of_lt less)
    rw [Nat.succ_mul] at step
    omega
  · exact Nat.le_refl _
  · have step := Nat.mul_le_mul_right d (Nat.succ_le_of_lt greater)
    rw [Nat.succ_mul] at step
    omega

/-- Halfway between two multiples the even one is taken. -/
theorem roundHalfEven_even {n d : Nat} (half : 2 * (n % d) = d) : roundHalfEven n d % 2 = 0 := by
  unfold roundHalfEven
  simp only [half, Nat.lt_irrefl, decide_false, Bool.false_or, beq_self_eq_true, Bool.true_and, beq_iff_eq]
  split <;> omega

/-- Another multiple is as close only from halfway. -/
theorem roundHalfEven_tie {n j d : Nat} (pos : 0 < d)
    (tie : Nat.dist (j * d) n = Nat.dist (roundHalfEven n d * d) n) : j = roundHalfEven n d ∨ roundHalfEven n d % 2 = 0 := by
  by_cases same : j = roundHalfEven n d
  · exact .inl same
  refine .inr (roundHalfEven_even ?_)
  have error := roundHalfEven_error n pos
  rw [Nat.mul_comm d] at error
  have apart : j * d + d ≤ roundHalfEven n d * d ∨ roundHalfEven n d * d + d ≤ j * d := by
    rw [← Nat.succ_mul, ← Nat.succ_mul]
    rcases Nat.lt_or_gt_of_ne same with less | greater
    · exact .inl (Nat.mul_le_mul_right d less)
    · exact .inr (Nat.mul_le_mul_right d greater)
  have half : 2 * n = 2 * (roundHalfEven n d * d) + d ∨ 2 * n + d = 2 * (roundHalfEven n d * d) := by
    unfold Nat.dist at tie
    omega
  have parts := Nat.div_add_mod' n d
  have small := Nat.mod_lt n pos
  have bounds := roundHalfEven_bounds n d
  have quotient : roundHalfEven n d = n / d ∨ roundHalfEven n d = n / d + 1 := by omega
  rcases quotient with down | up
  · rw [down] at half
    omega
  · rw [up, Nat.add_one_mul (n / d)] at half
    omega

/-- Numbers of at most 53 digits with a smaller exponent are below the least mantissa. -/
theorem nearestNat_dist_lt {n m e : Nat} (small : m < 2 ^ 53) (finer : e < n.log2 - 52) :
    Nat.dist (nearestNat n) n < Nat.dist (m * 2 ^ e) n := by
  have least : 2 ^ 52 * 2 ^ (n.log2 - 52) ≤ n := by
    rw [← Nat.pow_add, Nat.add_sub_cancel' (by omega)]
    refine Nat.log2_self_le ?_
    rintro rfl
    simp at finer
  have below : m * 2 ^ e < 2 ^ 52 * 2 ^ (n.log2 - 52) := by
    calc m * 2 ^ e < 2 ^ 53 * 2 ^ e := Nat.mul_lt_mul_of_pos_right small (Nat.two_pow_pos e)
      _ = 2 ^ 52 * 2 ^ (e + 1) := by rw [Nat.pow_succ]; omega
      _ ≤ 2 ^ 52 * 2 ^ (n.log2 - 52) := Nat.mul_le_mul_left _ (Nat.pow_le_pow_right (by decide) finer)
  have closest := roundHalfEven_dist_le n (2 ^ 52) (Nat.two_pow_pos (n.log2 - 52))
  refine Nat.lt_of_le_of_lt closest ?_
  unfold Nat.dist
  omega

theorem nearestNat_dist_le (n : Nat) {m : Nat} (small : m < 2 ^ 53) (e : Nat) :
    Nat.dist (nearestNat n) n ≤ Nat.dist (m * 2 ^ e) n := by
  rcases Nat.lt_or_ge e (n.log2 - 52) with finer | coarse
  · exact Nat.le_of_lt (nearestNat_dist_lt small finer)
  · rw [← Nat.pow_sub_mul_pow 2 coarse, ← Nat.mul_assoc]
    exact roundHalfEven_dist_le n _ (Nat.two_pow_pos _)

theorem nearestNat_tie {n m e : Nat} (small : m < 2 ^ 53) (tie : Nat.dist (m * 2 ^ e) n = Nat.dist (nearestNat n) n) :
    m * 2 ^ e = nearestNat n ∨ roundHalfEven n (2 ^ (n.log2 - 52)) % 2 = 0 := by
  rcases Nat.lt_or_ge e (n.log2 - 52) with finer | coarse
  · exact absurd tie (Nat.ne_of_gt (nearestNat_dist_lt small finer))
  · rw [← Nat.pow_sub_mul_pow 2 coarse, ← Nat.mul_assoc] at tie ⊢
    exact (roundHalfEven_tie (Nat.two_pow_pos _) tie).imp_left fun same => congrArg (· * _) same

namespace Binary64

/-- No number is closer to so many units, and another one at the same distance leaves an even mantissa. -/
structure IsClosest (x : Binary64) (units : Int) : Prop where
  closest : ∀ y : Binary64, (x.units - units).natAbs ≤ (y.units - units).natAbs
  even : ∀ y : Binary64, (y.units - units).natAbs = (x.units - units).natAbs →
    y.units = x.units ∨ x.mantissa % 2 = 0

theorem dist_le (y : Binary64) (negative : Bool) (n : Nat) :
    Nat.dist y.magnitude n ≤ (y.units - if negative then -(n : Int) else n).natAbs := by
  unfold Nat.dist units
  split <;> split <;> omega

theorem mantissa_of_ofUnits {negative : Bool} {n : Nat} {x : Binary64} (nearest : ofUnits negative n 1 = some x)
    (even : roundHalfEven n (2 ^ (n.log2 - 52)) % 2 = 0) : x.mantissa % 2 = 0 := by
  have parts : (nearestParts n 1).1 % 2 = 0 := by
    simp only [nearestParts, Nat.div_one, Nat.shiftLeft_eq, Nat.one_mul]
    split
    · show leastNormal % 2 = 0
      decide
    · exact even
  unfold ofUnits at nearest
  dsimp only at nearest
  split at nearest
  · cases nearest
    exact parts
  · cases nearest

/-- Rounding to units gives the closest number. -/
theorem isClosest_of_ofUnits {negative : Bool} {n : Nat} {x : Binary64} (nearest : ofUnits negative n 1 = some x) :
    x.IsClosest (if negative then -(n : Int) else n) := by
  obtain ⟨magnitude, sign⟩ := magnitude_of_ofUnits nearest
  have own : (x.units - if negative then -(n : Int) else n).natAbs = Nat.dist (nearestNat n) n := by
    rw [units, magnitude, sign]
    unfold Nat.dist
    split <;> omega
  have shifted (y : Binary64) : y.magnitude = y.mantissa * 2 ^ y.exponent := Nat.shiftLeft_eq ..
  have bound (y : Binary64) : Nat.dist (nearestNat n) n ≤ Nat.dist y.magnitude n := by
    rw [shifted]
    exact nearestNat_dist_le n y.mantissa_lt y.exponent
  constructor
  · intro y
    rw [own]
    exact Nat.le_trans (bound y) (y.dist_le negative n)
  · intro y tie
    rw [own] at tie
    have same : Nat.dist y.magnitude n = Nat.dist (nearestNat n) n :=
      Nat.le_antisymm (tie ▸ y.dist_le negative n) (bound y)
    rw [shifted] at same
    rcases nearestNat_tie y.mantissa_lt same with equal | even
    · -- A number of the other sign is as close only if both are zero.
      left
      have zero : n = 0 → nearestNat n = 0 := by rintro rfl; exact nearestNat_of_le (by decide)
      rw [← shifted] at equal
      rw [units, equal] at tie ⊢
      rw [units, magnitude, sign]
      unfold Nat.dist at tie
      by_cases first : y.negative <;> by_cases second : negative <;>
        simp only [first, second, if_true, if_false, Bool.false_eq_true] at tie ⊢ <;> omega
    · exact .inr (mantissa_of_ofUnits nearest even)

theorem isClosest_of_ofInt? {i : Int} {x : Binary64} (nearest : ofInt? i = some x) :
    x.IsClosest (i * unitsPerOne) := by
  have closest := isClosest_of_ofUnits nearest
  have value : (if decide (i < 0) then -((i.natAbs * unitsPerOne : Nat) : Int) else (i.natAbs * unitsPerOne : Nat)) =
      i * unitsPerOne := by
    rw [Int.natCast_mul, ← Int.neg_mul]
    generalize (unitsPerOne : Int) = one
    simp only [decide_eq_true_eq]
    split
    next below => rw [show -(i.natAbs : Int) = i by omega]
    next above => rw [show (i.natAbs : Int) = i by omega]
  rwa [value] at closest

/-- Whole numbers of 128 bits have a closest number. -/
theorem exists_isClosest_ofInt? {i : Int} (small : i.natAbs ≤ 2 ^ 128) :
    ∃ x, ofInt? i = some x ∧ x.IsClosest (i * unitsPerOne) := by
  have found : (ofInt? i).isSome = true := by
    apply ofUnits_isSome
    rw [Nat.div_one]
    refine Nat.lt_of_le_of_lt (Nat.mul_le_mul_right unitsPerOne small) ?_
    rw [unitsPerOne, Nat.one_shiftLeft, Nat.one_shiftLeft, ← Nat.pow_add]
    exact Nat.pow_lt_pow_right (by decide) (by decide)
  obtain ⟨x, nearest⟩ := Option.isSome_iff_exists.mp found
  exact ⟨x, nearest, isClosest_of_ofInt? nearest⟩

end Binary64
end RecordQuery
