import RecordQuery.Proofs.Order.Sorting

/-! The order of rows and the comparisons of conditions. ORDER BY places values of all kinds in one
total preorder, a missing one included. Conditions order numbers and texts only and equate only
values of one kind; wherever they decide, the order of rows agrees. -/
namespace RecordQuery.Value

theorem compare_empty {t : String} (nonempty : t ≠ "") : compare "" t = .lt := by
  obtain ⟨c, cs, letters⟩ := List.exists_cons_of_ne_nil (mt String.toList_eq_nil_iff.mp nonempty)
  have less : "" < t := by
    rw [String.lt_iff, letters]
    exact List.nil_lt_cons c cs
  exact if_pos less

/-- The empty text counts as a number, and stands before all others as it does among texts. -/
theorem sortOrder_text (s t : String) : sortOrder (some (text s)) (some (text t)) true = compare s t := by
  have key (s : String) : SortKey.ofValue (some (text s)) = if s = "" then .number .zero else .text s := by
    simp [SortKey.ofValue, String.isEmpty_iff]
  simp only [sortOrder, key, if_true]
  by_cases first : s = "" <;> by_cases second : t = ""
  · rw [if_pos first, if_pos second, first, second]
    rfl
  · rw [if_pos first, if_neg second, first, compare_empty second]
    rfl
  · rw [if_neg first, if_pos second, second, Std.OrientedOrd.eq_swap, compare_empty first]
    rfl
  · rw [if_neg first, if_neg second]
    rfl

theorem sortOrder_of_order? {v w : Value} {order : Ordering} (decided : v.order? w = some order) :
    sortOrder (some v) (some w) true = order := by
  cases v <;> cases w <;> try cases decided
  case number.number.refl => rfl
  case text.text.refl s t => exact sortOrder_text s t

theorem sortOrder_of_key_eq {a b : Option Value} (same : SortKey.ofValue a = SortKey.ofValue b)
    (ascending : Bool) : sortOrder a b ascending = .eq := by
  have itself : sortOrder b b ascending = .eq := @Std.ReflCmp.compare_self _ (sortOrder · · ascending) _ b
  rwa [sortOrder, same]

/-- Equal values have one key, but for the two zeros and for numbers that are equal only when
rounded. -/
theorem sortOrder_of_equals {v w : Value} (equal : v.equals w = true) (ascending : Bool) :
    sortOrder (some v) (some w) ascending = .eq := by
  cases v <;> cases w <;> try cases equal
  case null.null.refl => exact sortOrder_of_key_eq rfl ascending
  case bool.bool a b =>
    obtain rfl : a = b := by simpa [equals] using equal
    exact sortOrder_of_key_eq rfl ascending
  case text.text s t =>
    obtain rfl : s = t := by simpa [equals] using equal
    exact sortOrder_of_key_eq rfl ascending
  case number.number n m =>
    have units : n.toBinary64.units = m.toBinary64.units := by
      simpa [equals, Number.sameValue, Binary64.sameValue] using equal
    have tie : sortOrder (some (number n)) (some (number m)) true = .eq := Int.compare_eq_eq.mpr units
    cases ascending with
    | true => exact tie
    | false => exact congrArg Ordering.swap tie

/-- In either direction the order of rows is a total preorder on the values of all kinds and the
missing one, and it agrees with conditions wherever these order two values or equate them. -/
theorem sortOrder_preorder_and_agrees :
    (∀ ascending a, sortOrder a a ascending = .eq) ∧
    (∀ ascending a b, sortOrder b a ascending = (sortOrder a b ascending).swap) ∧
    (∀ ascending a b c, (sortOrder a b ascending).isLE → (sortOrder b c ascending).isLE →
      (sortOrder a c ascending).isLE) ∧
    (∀ v w order, order? v w = some order → sortOrder (some v) (some w) true = order) ∧
    ∀ v w, equals v w = true → ∀ ascending, sortOrder (some v) (some w) ascending = .eq := by
  refine ⟨fun ascending a => ?_, fun ascending a b => ?_, fun ascending a b c => ?_, ?_, ?_⟩
  · exact @Std.ReflCmp.compare_self _ (sortOrder · · ascending) _ a
  · exact @Std.OrientedCmp.eq_swap _ (sortOrder · · ascending) _ b a
  · exact @Std.TransCmp.isLE_trans _ (sortOrder · · ascending) _ a b c
  · exact fun v w order => sortOrder_of_order?
  · exact fun v w => sortOrder_of_equals

/-- Four kinds that tie or stand in order, a number and a list between them, an empty text, and a
whole number that equals a double-precision one. -/
theorem sortOrder_preorder_and_agrees_kinds :
    let three : Value := .number (.whole 3 (by decide))
    let one : Value := .number (.whole 1 (by decide))
    let list : Value := .list [three, .null]
    (sortOrder (some list) (some three) false).isLE ∧ (sortOrder (some three) none false).isLE ∧
      (sortOrder (some list) none false).isLE ∧
      order? (.text "") (.text "b") = some .lt ∧ sortOrder (some (.text "")) (some (.text "b")) true = .lt ∧
      equals one (.number (.float .one)) = true ∧
      ∀ ascending, sortOrder (some one) (some (.number (.float .one))) ascending = .eq := by
  intro three one list
  obtain ⟨_, _, trans, agrees, ties⟩ := sortOrder_preorder_and_agrees
  have first : (sortOrder (some list) (some three) false).isLE := by decide +kernel
  have second : (sortOrder (some three) none false).isLE := by decide +kernel
  have order : order? (.text "") (.text "b") = some .lt := by decide +kernel
  have equal : equals one (.number (.float .one)) = true := by decide +kernel
  exact ⟨first, second, trans false _ _ _ first second, order, agrees _ _ _ order, equal, ties _ _ equal⟩

end RecordQuery.Value
