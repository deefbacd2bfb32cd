import Mathlib.Algebra.Order.BigOperators.Group.List
import Mathlib.Algebra.Ring.Int.Defs
import RecordQuery.Proofs.Aggregate.RowOrder
import RecordQuery.Proofs.Number.Closest

/-! Sums of signed whole numbers. The tally holds the exact total, which 128 bits are enough for, and
only its result is narrowed: a total beyond 64 bits is given in double precision, and later rows may
bring it back to a whole number. -/
namespace RecordQuery.Aggregate

/-- The range of signed numbers of 128 bits. -/
def IsSigned128 (i : Int) : Prop := -2 ^ 127 ≤ i ∧ i < 2 ^ 127

instance (i : Int) : Decidable (IsSigned128 i) := inferInstanceAs (Decidable (_ ∧ _))

namespace Sum

/-- The sum of the whole numbers among values. -/
def total (values : List (Option Value)) : Int := (values.map wholePart).sum

theorem total_perm {values values' : List (Option Value)} (perm : values.Perm values') :
    total values = total values' :=
  (perm.map wholePart).sum_eq

theorem isSigned64_wholePart (value : Option Value) : IsSigned64 (wholePart value) := by
  unfold wholePart
  cases found : (value.bind Value.number?).bind Number.signed? with
  | none => decide
  | some i =>
    obtain ⟨n, _, signed⟩ := Option.bind_eq_some_iff.mp found
    cases n with
    | float _ => cases signed
    | whole j _ =>
      obtain ⟨range, same⟩ := Option.ite_none_right_eq_some.mp signed
      cases same
      exact range

/-- Fewer than 2^64 numbers of 64 bits have a sum of 128 bits. -/
theorem isSigned128_total {values : List (Option Value)} (few : values.length < 2 ^ 64) :
    IsSigned128 (total values) := by
  have parts : ∀ i ∈ values.map wholePart, -2 ^ 63 ≤ i ∧ i ≤ 2 ^ 63 := by
    intro i member
    obtain ⟨value, _, rfl⟩ := List.mem_map.mp member
    have range := isSigned64_wholePart value
    exact ⟨range.1, Int.le_of_lt range.2⟩
  have lower := List.card_nsmul_le_sum _ _ fun i member => (parts i member).1
  have upper := List.sum_le_card_nsmul _ _ fun i member => (parts i member).2
  rw [List.length_map, Int.nsmul_eq_mul] at lower upper
  unfold total
  constructor <;> omega

/-- Each value adds its whole part, and so a run adds their total. -/
theorem foldl_add_signed {values : List (Option Value)} (signed : ∀ value ∈ values, IsSignedValue value)
    (start : Int) : values.foldl add (exact start) = exact (start + total values) := by
  induction values generalizing start with
  | nil => simp [total]
  | cons value values ih =>
    rw [List.forall_mem_cons] at signed
    rw [List.foldl_cons, add_signed start signed.1, ih signed.2, Int.add_assoc]
    simp [total]

theorem result_of_isSigned64 {total : Int} (range : IsSigned64 total) :
    ∃ fits, (exact total).result = .number (.whole total fits) := by
  have fits : IsWhole64 total := by
    unfold IsSigned64 at range
    exact ⟨range.1, by omega⟩
  refine ⟨fits, ?_⟩
  rw [result, if_pos range, Value.ofInt_of_isWhole64 fits]

/-- Beyond 64 bits the result is the closest number in double precision. -/
theorem result_of_not_isSigned64 {total : Int} (beyond : ¬ IsSigned64 total) (range : IsSigned128 total) :
    ∃ x, (exact total).result = .number (.float x) ∧ x.IsClosest (total * Binary64.unitsPerOne) := by
  have small : total.natAbs ≤ 2 ^ 128 := by
    unfold IsSigned128 at range
    omega
  obtain ⟨x, nearest, closest⟩ := Binary64.exists_isClosest_ofInt? small
  refine ⟨x, ?_, closest⟩
  rw [result, if_neg beyond, nearest, floatValue]

end Sum

namespace Tally

theorem foldl_add_sum (sum : Sum) (values : List (Option Value)) :
    values.foldl add (.sum sum) = .sum (values.foldl Sum.add sum) :=
  List.foldl_hom Tally.sum fun _ _ => rfl

theorem ofValues_sum {values : List (Option Value)} (policy : MissingPolicy)
    (signed : ∀ value ∈ values, IsSignedValue value) :
    ofValues .sum policy values = .sum (.exact (Sum.total values)) := by
  rw [ofValues, start, Sum.empty, foldl_add_sum, Sum.foldl_add_signed signed, Int.zero_add]

/-- After any rows the tally holds their exact total within 128 bits. Its result is the total as long as
that has 64 bits, whatever it was before, and else the closest number in double precision. The order of
the rows makes no difference. -/
theorem ofValues_sum_exact {values : List (Option Value)} (policy : MissingPolicy)
    (few : values.length < 2 ^ 64) (signed : ∀ value ∈ values, IsSignedValue value) :
    (∀ seen, seen <+: values →
      ofValues .sum policy seen = .sum (.exact (Sum.total seen)) ∧ IsSigned128 (Sum.total seen) ∧
      (IsSigned64 (Sum.total seen) → ∃ fits,
        (ofValues .sum policy seen).result = .number (.whole (Sum.total seen) fits)) ∧
      (¬ IsSigned64 (Sum.total seen) → ∃ x,
        (ofValues .sum policy seen).result = .number (.float x) ∧
          x.IsClosest (Sum.total seen * Binary64.unitsPerOne))) ∧
    ∀ values', values.Perm values' → ofValues .sum policy values' = ofValues .sum policy values := by
  constructor
  · intro seen earlier
    have held := ofValues_sum policy fun value member => signed value (earlier.subset member)
    have range : IsSigned128 (Sum.total seen) :=
      Sum.isSigned128_total (Nat.lt_of_le_of_lt earlier.length_le few)
    rw [held]
    exact ⟨rfl, range, Sum.result_of_isSigned64, fun beyond => Sum.result_of_not_isSigned64 beyond range⟩
  · intro values' perm
    rw [ofValues_sum policy fun value member => signed value (perm.mem_iff.mpr member),
      ofValues_sum policy signed, Sum.total_perm perm]

/-- The greatest number twice is beyond 64 bits, a text adds nothing, and the least number brings the
total back. -/
theorem ofValues_sum_exact_return :
    let greatest : Option Value := some (.number (.whole 9223372036854775807 (by decide)))
    let least : Option Value := some (.number (.whole (-9223372036854775808) (by decide)))
    let seen := [greatest, none, greatest, some (.text "7")]
    (∀ value ∈ seen ++ [least], IsSignedValue value) ∧
    (∃ x, (ofValues .sum .zero seen).result = .number (.float x) ∧
      x.IsClosest (18446744073709551614 * Binary64.unitsPerOne)) ∧
    (∃ fits, (ofValues .sum .zero (seen ++ [least])).result = .number (.whole 9223372036854775806 fits)) ∧
    ofValues .sum .zero (seen ++ [least]).reverse = ofValues .sum .zero (seen ++ [least]) := by
  intro greatest least seen
  have signed : ∀ value ∈ seen ++ [least], IsSignedValue value := by decide
  obtain ⟨runs, orders⟩ := @ofValues_sum_exact (seen ++ [least]) .zero (by decide) signed
  obtain ⟨_, _, _, beyond⟩ := runs seen (List.prefix_append ..)
  obtain ⟨_, _, within, _⟩ := runs (seen ++ [least]) (List.prefix_refl _)
  exact ⟨signed, beyond (by decide), within (by decide), orders _ (List.reverse_perm _).symm⟩

end Tally
end RecordQuery.Aggregate
