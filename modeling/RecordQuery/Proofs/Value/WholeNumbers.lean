import RecordQuery.Proofs.Aggregate.Extremes
import RecordQuery.Proofs.Condition.ReadBack
import RecordQuery.SortKey

/-! Whole numbers as values. Conditions, the order of rows and the extremes all compare the
nearest double-precision numbers, so that whole numbers are told apart in all of these where no
two of them are blurred, and nowhere else. -/
namespace RecordQuery

theorem compare_mul_right {one : Int} (pos : 0 < one) (i j : Int) :
    compare (i * one) (j * one) = compare i j := by
  rcases lt_trichotomy i j with less | rfl | greater
  · rw [compare_lt_iff_lt.mpr less, compare_lt_iff_lt.mpr (Int.mul_lt_mul_of_pos_right less pos)]
  · rw [compare_eq_iff_eq.mpr rfl, compare_eq_iff_eq.mpr rfl]
  · rw [compare_gt_iff_gt.mpr greater, compare_gt_iff_gt.mpr (Int.mul_lt_mul_of_pos_right greater pos)]

/-- A number that is nearest to a whole one. -/
def Number.IsNearest (n : Number) (i : Int) : Prop := n.toBinary64.units = nearestInt i * Binary64.unitsPerOne

namespace Number.IsNearest

variable {n m : Number} {i j : Int}

theorem whole (i : Int) (fits : IsWhole64 i) : (Number.whole i fits).IsNearest i := units_whole i fits

theorem order_eq (nearest : n.IsNearest i) (nearest' : m.IsNearest j) :
    n.order m = compare (nearestInt i) (nearestInt j) := by
  rw [Number.order, Binary64.order, nearest, nearest', compare_mul_right Binary64.unitsPerOne_pos]

theorem sameValue_iff (nearest : n.IsNearest i) (nearest' : m.IsNearest j) :
    n.sameValue m = true ↔ nearestInt i = nearestInt j := by
  rw [Number.sameValue, Binary64.sameValue, beq_iff_eq, nearest, nearest',
    Int.mul_eq_mul_right_iff (Int.ne_of_gt Binary64.unitsPerOne_pos)]

end Number.IsNearest

namespace Literal

theorem ofText?_toDigits {n : Nat} (nonzero : n ≠ 0) :
    Binary64.ofText? (Nat.toDigits 10 n) = Binary64.ofInt? n := by
  have read := Decimal.read?_digits false Nat.toDigits_ne_nil (allDigits_toDigits n) (Text.stops_nil _)
    (by simp) rfl
  have digits : Binary64.signed false (Nat.toDigits 10 n ++ []) = Nat.toDigits 10 n := List.append_nil _
  rw [digits, Nat.ofDigitChars_ten_toDigits] at read
  simp [Binary64.ofText?, read, Decimal.nearest, nonzero, Binary64.ofInt?, powerOfTen, show ¬ (n : Int) < 0 by omega]

/-- Digits within the signed range are read exactly, others as the nearest number. -/
theorem exists_read_intText {i : Int} (fits : IsWhole64 i) :
    ∃ n : Number, read (Number.intText i) = .number n ∧ n.IsNearest i := by
  by_cases signed : IsSigned64 i
  · exact ⟨.whole i fits, read_write (.whole signed fits), .whole i fits⟩
  · have digits : Number.intText i = Nat.toDigits 10 i.natAbs := by
      unfold IsSigned64 IsWhole64 at *
      exact if_neg (by omega)
    have same : (i.natAbs : Int) = i := by
      unfold IsSigned64 IsWhole64 at *
      omega
    obtain ⟨x, nearest⟩ := Option.isSome_iff_exists.mp (Binary64.ofInt?_isSome i (Number.natAbs_le_of_isWhole64 fits))
    have number : readNumber? (Number.whole i fits).text = some (.float x) := by
      have rounded : Binary64.ofText? (Number.intText i) = some x := by
        rw [digits, ofText?_toDigits, same, nearest]
        unfold IsSigned64 at signed
        omega
      simp [readNumber?, Number.text, readInt?_intText, signed, rounded]
    refine ⟨.float x, ?_, Binary64.units_of_ofInt? nearest⟩
    rw [read, show Number.intText i = (Number.whole i fits).text from rfl,
      (isPiece_number (.inl rfl) _).trim, readTrimmed_number number]

end Literal

/-- A whole number that a record holds as one. -/
abbrev WholeNumber := { i : Int // IsWhole64 i }

namespace WholeNumber

def value (n : WholeNumber) : Value := .number (.whole n.1 n.2)

theorem value_inj {n m : WholeNumber} : n.value = m.value ↔ n = m := by
  simp [value, Subtype.ext_iff]

theorem equals_iff (n m : WholeNumber) :
    n.value.equals m.value = true ↔ nearestInt n = nearestInt m :=
  Number.IsNearest.sameValue_iff (.whole n.1 n.2) (.whole m.1 m.2)

theorem order?_value (n m : WholeNumber) :
    n.value.order? m.value = some (compare (nearestInt n) (nearestInt m)) :=
  congrArg some (Number.IsNearest.order_eq (.whole n.1 n.2) (.whole m.1 m.2))

theorem sortOrder_value (n m : WholeNumber) :
    Value.sortOrder (some n.value) (some m.value) true = compare (nearestInt n) (nearestInt m) := by
  simp only [Value.sortOrder, value, SortKey.ofValue, SortKey.order, if_pos]
  exact Number.IsNearest.order_eq (.whole n.1 n.2) (.whole m.1 m.2)

/-- Whole numbers are their own candidates. -/
theorem candidates_value (policy : MissingPolicy) (numbers : List WholeNumber) :
    Aggregate.candidates policy (numbers.map fun n => some n.value) =
      numbers.map fun n => Number.whole n.1 n.2 := by
  have own (n : WholeNumber) : Aggregate.MissingPolicy.candidate? policy (some n.value) =
      some (.whole n.1 n.2) := rfl
  simp [Aggregate.candidates, List.filterMap_map, own]

/-- An extreme of whole numbers is one of them, and none is better. -/
theorem exists_result_extreme (extreme : Aggregate.Extreme) (policy : MissingPolicy)
    {numbers : List WholeNumber} (nonempty : numbers ≠ []) :
    ∃ best ∈ numbers,
      (Aggregate.Tally.ofValues extreme.function policy (numbers.map fun n => some n.value)).result =
        best.value ∧
      ∀ n ∈ numbers, extreme.better (.whole n.1 n.2) (.whole best.1 best.2) = false := by
  have some : Aggregate.candidates policy (numbers.map fun n => some n.value) ≠ [] := by
    simpa [candidates_value] using nonempty
  obtain ⟨_, result, first⟩ := Aggregate.Tally.exists_result_extreme extreme some
  rw [candidates_value] at first
  obtain ⟨best, member, rfl⟩ := List.mem_map.mp first.mem
  exact ⟨best, member, result, fun n inside => first.best _ (List.mem_map_of_mem inside)⟩

/-- The rows whose column is a given whole number, in writing. -/
def equalsNumber (column : String) (n : WholeNumber) : String :=
  column ++ " = " ++ String.ofList (Number.intText n)

theorem holds_equalsNumber {column : String} (isName : Text.isName column.toList = true) {n m : WholeNumber}
    {r : Record} (found : r.lookupOrNull (Text.lower column) = m.value) :
    (Condition.read (equalsNumber column n)).holds r = true ↔ nearestInt m = nearestInt n := by
  obtain ⟨number, read, nearest⟩ := Literal.exists_read_intText n.2
  have text : (equalsNumber column n).toList =
      column.toList ++ ' ' :: ((Operator.comparison .equal).text.toList ++ ' ' :: Number.intText n) := by
    simp [equalsNumber, Operator.text]
  have piece (keyword : Text.Keyword) (member : keyword = .and ∨ keyword = .or) :
      Text.IsPiece keyword (Number.intText n) := Literal.isPiece_number member (.whole n.1 n.2)
  rw [Condition.read, text, Condition.read_column isName .equal piece, read]
  simp only [Condition.columnNamed, String.ofList_toList, Condition.holds, Condition.passes, Condition.verdict,
    Test.holds, Comparison.holds, found]
  exact Number.IsNearest.sameValue_iff (.whole m.1 m.2) nearest

/-- Whole numbers no two of which are blurred are compared exactly: in conditions, in the order
of rows, as extremes and by a condition on a column. -/
theorem compared_exactly {numbers : List WholeNumber}
    (sharp : ∀ n ∈ numbers, ∀ m ∈ numbers, ¬ Blurred n m) :
    (∀ n ∈ numbers, ∀ m ∈ numbers,
      (n.value.equals m.value = true ↔ n = m) ∧
      n.value.order? m.value = some (compare n.1 m.1) ∧
      Value.sortOrder (some n.value) (some m.value) true = compare n.1 m.1) ∧
    (∀ policy, numbers ≠ [] →
      (∃ least ∈ numbers, (∀ n ∈ numbers, least.1 ≤ n.1) ∧
        (Aggregate.Tally.ofValues .minimum policy (numbers.map fun n => some n.value)).result = least.value) ∧
      ∃ greatest ∈ numbers, (∀ n ∈ numbers, n.1 ≤ greatest.1) ∧
        (Aggregate.Tally.ofValues .maximum policy (numbers.map fun n => some n.value)).result = greatest.value) ∧
    ∀ column, Text.isName column.toList = true → ∀ n ∈ numbers, ∀ rows : Relation,
      (∀ r ∈ rows, ∃ m ∈ numbers, r.lookupOrNull (Text.lower column) = m.value) →
      rows.filter (fun r => (Condition.read (equalsNumber column n)).holds r) =
        rows.filter fun r => r.lookupOrNull (Text.lower column) = n.value := by
  have order (n m : WholeNumber) : (Number.whole n.1 n.2).order (.whole m.1 m.2) = _ :=
    Number.IsNearest.order_eq (.whole n.1 n.2) (.whole m.1 m.2)
  have apart {n m : WholeNumber} (member : n ∈ numbers) (member' : m ∈ numbers) :
      nearestInt n = nearestInt m ↔ n = m := by
    rw [nearestInt_eq_iff (sharp n member m member'), Subtype.val_inj]
  refine ⟨fun n member m member' => ?_, fun policy nonempty => ⟨?_, ?_⟩, fun column isName n member rows held => ?_⟩
  · rw [equals_iff, order?_value, sortOrder_value, compare_nearestInt (sharp n member m member')]
    exact ⟨apart member member', rfl, rfl⟩
  · obtain ⟨least, member, result, best⟩ := exists_result_extreme .least policy nonempty
    refine ⟨least, member, fun n inside => ?_, result⟩
    have kept := best n inside
    simpa [Aggregate.Extreme.better, order n least, compare_nearestInt (sharp n inside least member),
      Bool.eq_false_iff, Ordering.isLT_iff_eq_lt, compare_lt_iff_lt] using kept
  · obtain ⟨greatest, member, result, best⟩ := exists_result_extreme .greatest policy nonempty
    refine ⟨greatest, member, fun n inside => ?_, result⟩
    have kept := best n inside
    simpa [Aggregate.Extreme.better, order n greatest, compare_nearestInt (sharp n inside greatest member),
      Bool.eq_false_iff, Ordering.isGT_iff_eq_gt, compare_gt_iff_gt] using kept
  · refine List.filter_congr fun r inside => ?_
    obtain ⟨m, member', found⟩ := held r inside
    rw [Bool.eq_iff_iff, holds_equalsNumber isName found, apart member' member, decide_eq_true_iff, found, value_inj]

/-- The least signed number, zero, the greatest unsigned one, and a power of two with the next
number that is held. -/
theorem compared_exactly_ids :
    let ids : List WholeNumber := [⟨-9223372036854775808, by decide⟩, ⟨9007199254740994, by decide⟩,
      ⟨0, by decide⟩, ⟨9007199254740992, by decide⟩, ⟨18446744073709551615, by decide⟩]
    let n : WholeNumber := ⟨9007199254740994, by decide⟩
    let rows : Relation := [⟨[("id", .number (.whole 9007199254740992 (by decide)))]⟩, ⟨[("id", n.value)]⟩]
    (∀ n ∈ ids, ∀ m ∈ ids, ¬ Blurred n m) ∧ ids ≠ [] ∧
      (∃ least ∈ ids, (∀ n ∈ ids, least.1 ≤ n.1) ∧
        (Aggregate.Tally.ofValues .minimum .skip (ids.map fun n => some n.value)).result = least.value) ∧
      Text.isName "id".toList = true ∧ n ∈ ids ∧ Text.lower "id" = "id" ∧
      (∀ r ∈ rows, ∃ m ∈ ids, r.lookupOrNull "id" = m.value) ∧
      equalsNumber "id" n = "id = 9007199254740994" ∧
      rows.filter (fun r => (Condition.read (equalsNumber "id" n)).holds r) = [⟨[("id", n.value)]⟩] := by
  intro ids n rows
  have sharp : ∀ n ∈ ids, ∀ m ∈ ids, ¬ Blurred n m := by decide +kernel
  have held : ∀ r ∈ rows, ∃ m ∈ ids, r.lookupOrNull "id" = m.value := by decide +kernel
  have nonempty : ids ≠ [] := List.cons_ne_nil _ _
  have member : n ∈ ids := by decide +kernel
  have isName : Text.isName "id".toList = true := by decide
  have lower : Text.lower "id" = "id" := Text.lower_eq_self (by decide)
  have kept : rows.filter (fun r => r.lookupOrNull "id" = n.value) = [⟨[("id", n.value)]⟩] := by decide +kernel
  obtain ⟨_, extremes, filtered⟩ := compared_exactly sharp
  refine ⟨sharp, nonempty, (extremes .skip nonempty).1, isName, member, lower, held, by decide +kernel, ?_⟩
  rw [filtered "id" isName n member rows (by rwa [lower]), lower, kept]

/-- Two ids that are compared as equal, so that a condition on the one keeps the other, too. -/
theorem not_compared_exactly_ids :
    let n : WholeNumber := ⟨9007199254740992, by decide⟩
    let m : WholeNumber := ⟨9007199254740993, by decide⟩
    n ≠ m ∧ n.value.equals m.value = true ∧ n.value.order? m.value = some .eq ∧
      Value.sortOrder (some n.value) (some m.value) true = .eq ∧
      (Aggregate.Tally.ofValues .maximum .skip [some n.value, some m.value]).result = n.value ∧
      (Condition.read "id = 9007199254740993").holds ⟨[("id", n.value)]⟩ = true := by
  decide +kernel

end WholeNumber
end RecordQuery
