import RecordQuery.Proofs.Aggregate.Results
import RecordQuery.Proofs.Number.Whole

/-! Results of calls do not depend on the order of the rows, as long as the numbers met are
whole and exact in double precision. Two rows may then change places in any tally that has
not been rounded, and no tally of such rows is. -/
namespace RecordQuery.Aggregate

/-- What a row gives to a call is no number, or one that double precision holds as it is. -/
def IsExactValue (value : Option Value) : Prop := ∀ n ∈ value.bind Value.number?, n.IsExact

/-- Every number that the rows have under the field of the call is exact. -/
def Call.IsExactOver (call : Call) (rows : Relation) : Prop :=
  ∀ field ∈ call.field, ∀ r ∈ rows, IsExactValue (r.lookup field)

/-- What a row gives to a call is no number, or a whole one of the signed range. -/
def IsSignedValue (value : Option Value) : Prop := ∀ n ∈ value.bind Value.number?, n.signed?.isSome

instance (value : Option Value) : Decidable (IsExactValue value) :=
  inferInstanceAs (Decidable (∀ n ∈ _, _))

instance (value : Option Value) : Decidable (IsSignedValue value) :=
  inferInstanceAs (Decidable (∀ n ∈ _, _))

theorem IsExactValue.signed {value : Option Value} (exact : IsExactValue value) : IsSignedValue value := by
  intro n found
  have held := exact n found
  cases n with
  | float _ => exact held.elim
  | whole i _ =>
    rw [Number.IsExact] at held
    exact Option.isSome_iff_exists.mpr ⟨i, if_pos ⟨by omega, by omega⟩⟩

instance (call : Call) (rows : Relation) : Decidable (call.IsExactOver rows) :=
  inferInstanceAs (Decidable (∀ field ∈ _, ∀ r ∈ _, _))

theorem Call.IsExactOver.mono {call : Call} {rows rows' : Relation} (exact : call.IsExactOver rows)
    (subset : rows' ⊆ rows) : call.IsExactOver rows' :=
  fun field named r member => exact field named r (subset member)

theorem Call.IsExactOver.values {call : Call} {rows : Relation} (exact : call.IsExactOver rows) :
    ∀ value ∈ call.values rows, IsExactValue value := by
  intro value given
  obtain ⟨r, member, rfl⟩ := List.mem_map.mp given
  cases named : call.field with
  | none => simp [IsExactValue]
  | some field => exact exact field named r member

namespace Sum

def IsExact : Sum → Prop
  | exact _ => True
  | rounded _ => False

/-- The whole number that a value adds. -/
def wholePart (value : Option Value) : Int :=
  ((value.bind Value.number?).bind Number.signed?).getD 0

/-- Whole numbers of the signed range are added exactly. -/
theorem add_signed (total : Int) {value : Option Value} (signed : IsSignedValue value) :
    (Sum.exact total).add value = .exact (total + wholePart value) := by
  unfold add wholePart
  cases found : value.bind Value.number? with
  | none => simp
  | some n =>
    obtain ⟨i, whole⟩ := Option.isSome_iff_exists.mp (signed n found)
    simp [whole]

theorem isExact_add {sum : Sum} {value : Option Value} (unrounded : sum.IsExact)
    (exact : IsExactValue value) : (sum.add value).IsExact := by
  cases sum with
  | exact total => simp [add_signed total exact.signed, IsExact]
  | rounded _ => exact unrounded.elim

theorem add_right_comm {sum : Sum} {value other : Option Value} (unrounded : sum.IsExact)
    (exact : IsExactValue value) (exact' : IsExactValue other) :
    (sum.add value).add other = (sum.add other).add value := by
  cases sum with
  | exact total => rw [add_signed _ exact.signed, add_signed _ exact'.signed, add_signed _ exact'.signed,
      add_signed _ exact.signed, Int.add_right_comm]
  | rounded _ => exact unrounded.elim

end Sum

namespace Extreme

theorem better_least {candidate current : Number} : least.better candidate current = true ↔
    candidate.toBinary64.units < current.toBinary64.units :=
  Ordering.isLT_iff_eq_lt.trans Int.compare_eq_lt

theorem better_greatest {candidate current : Number} : greatest.better candidate current = true ↔
    current.toBinary64.units < candidate.toBinary64.units :=
  Ordering.isGT_iff_eq_gt.trans Int.compare_eq_gt

/-- The first of equal candidates is kept, yet exact ones are equal only if they are the same. -/
theorem choose_right_comm (extreme : Extreme) (current : Option Number) {candidate other : Number}
    (exact : candidate.IsExact) (exact' : other.IsExact) :
    extreme.choose (some (extreme.choose current candidate)) other =
      extreme.choose (some (extreme.choose current other)) candidate := by
  have same := exact.eq_of_units_eq exact'
  cases extreme <;> cases current <;>
    simp only [choose, better_least, better_greatest] <;> grind

end Extreme

/-- What is no number stands for zero or for nothing. -/
theorem isExact_candidate {policy : MissingPolicy} {value : Option Value}
    (exact : IsExactValue value) {candidate : Number}
    (found : MissingPolicy.candidate? policy value = some candidate) : candidate.IsExact := by
  unfold MissingPolicy.candidate? at found
  split at found
  next met =>
    cases found
    exact exact _ met
  next =>
    cases found
    exact Number.isExact_zero
  next => cases found

namespace Tally

/-- The sum that the tally keeps, if it keeps one, has not been rounded. -/
def IsExact : Tally → Prop
  | sum total | mean total _ => total.IsExact
  | count _ | extreme .. => True

theorem isExact_start (function : Function) (policy : MissingPolicy) :
    (start function policy).IsExact := by
  cases function <;> trivial

theorem isExact_add {tally : Tally} {value : Option Value} (unrounded : tally.IsExact)
    (exact : IsExactValue value) : (tally.add value).IsExact := by
  cases tally with
  | count _ => trivial
  | sum total => exact Sum.isExact_add unrounded exact
  | mean total _ => exact Sum.isExact_add unrounded exact
  | extreme e policy current =>
    rw [add]
    split <;> trivial

/-- Two rows may change places. -/
theorem add_right_comm {tally : Tally} {value other : Option Value} (unrounded : tally.IsExact)
    (exact : IsExactValue value) (exact' : IsExactValue other) :
    (tally.add value).add other = (tally.add other).add value := by
  cases tally with
  | count _ => rfl
  | sum total => exact congrArg sum (Sum.add_right_comm unrounded exact exact')
  | mean total rows => exact congrArg (mean · _) (Sum.add_right_comm unrounded exact exact')
  | extreme e policy current =>
    cases found : MissingPolicy.candidate? policy value with
    | none => cases found' : MissingPolicy.candidate? policy other <;> simp [add, found, found']
    | some candidate =>
      cases found' : MissingPolicy.candidate? policy other with
      | none => simp [add, found, found']
      | some later =>
        simp only [add, found, found']
        rw [e.choose_right_comm current (isExact_candidate exact found) (isExact_candidate exact' found')]

/-- Any number of rows may change places. -/
theorem foldl_add_perm {values values' : List (Option Value)} (perm : values.Perm values')
    (exact : ∀ value ∈ values, IsExactValue value) {tally : Tally} (unrounded : tally.IsExact) :
    values.foldl add tally = values'.foldl add tally := by
  induction perm generalizing tally with
  | nil => rfl
  | cons value _ ih =>
    rw [List.forall_mem_cons] at exact
    exact ih exact.2 (isExact_add unrounded exact.1)
  | swap value other values =>
    rw [List.forall_mem_cons, List.forall_mem_cons] at exact
    simp only [List.foldl_cons, add_right_comm unrounded exact.1 exact.2.1]
  | trans perm _ ih ih' =>
    exact (ih exact unrounded).trans (ih' (fun value found => exact value (perm.mem_iff.mpr found)) unrounded)

end Tally

theorem Call.over_perm {call : Call} {rows rows' : Relation} (policy : MissingPolicy)
    (perm : rows.Perm rows') (exact : call.IsExactOver rows) :
    call.over policy rows = call.over policy rows' := by
  have same : (call.values rows).Perm (call.values rows') := perm.map _
  rw [Call.over, Call.over, Tally.ofValues, Tally.ofValues,
    Tally.foldl_add_perm same exact.values (Tally.isExact_start ..)]

theorem results_perm {calls : List (Call × String)} {rows rows' : Relation} (policy : MissingPolicy)
    (perm : rows.Perm rows') (exact : ∀ call ∈ calls, call.1.IsExactOver rows) :
    results policy rows calls = results policy rows' calls := by
  rw [results_eq, results_eq]
  congr 1
  apply List.map_congr_left
  intro call member
  rw [call.1.over_perm policy perm (exact call member)]

end RecordQuery.Aggregate
