import RecordQuery.Proofs.Number.Nearest

/-! Whole numbers that double precision holds as they are. Those of at most 53 binary digits are
not rounded, so that two of them are ordered as equal only if they are the same. -/
namespace RecordQuery.Number

/-- A whole number that double precision holds as it is. -/
def IsExact : Number → Prop
  | whole i _ => i.natAbs ≤ 2 ^ 53
  | float _ => False

instance : (n : Number) → Decidable n.IsExact
  | whole _ _ => inferInstanceAs (Decidable (_ ≤ _))
  | float _ => inferInstanceAs (Decidable False)

theorem isExact_zero : zero.IsExact := Nat.zero_le _

/-- What double precision holds is told apart by its order. -/
theorem IsExact.eq_of_units_eq {a b : Number} (exact : a.IsExact) (exact' : b.IsExact)
    (same : a.toBinary64.units = b.toBinary64.units) : a = b := by
  cases a with
  | float _ => exact exact.elim
  | whole i fits =>
    cases b with
    | float _ => exact exact'.elim
    | whole j fits' =>
      rw [units_whole, units_whole, nearestInt_of_le exact, nearestInt_of_le exact'] at same
      obtain rfl := Int.eq_of_mul_eq_mul_right (Int.ne_of_gt Binary64.unitsPerOne_pos) same
      rfl

end RecordQuery.Number
