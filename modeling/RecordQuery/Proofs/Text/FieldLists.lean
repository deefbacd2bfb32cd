import RecordQuery.Proofs.Text.Squeeze
import RecordQuery.Proofs.Text.Undivided

/-! Lists of fields in front of other text. Behind a list whose last field is empty there is a
comma and a space. Trimming takes the space away, and the normal form puts it back. -/
namespace RecordQuery.Text

theorem squeeze_append_congr {t t' : List Char} (same : squeeze t = squeeze t') (s : List Char) :
    squeeze (s ++ t) = squeeze (s ++ t') := by
  induction s with
  | nil => exact same
  | cons c s ih => rw [List.cons_append, List.cons_append, squeeze, squeeze, ih]

/-- Blanks in front of a space add nothing to it. -/
theorem squeeze_append_blanks {back : List Char} (blank : ∀ c ∈ back, isBlank c = true) (s t : List Char) :
    squeeze (s ++ (back ++ ' ' :: t)) = squeeze (s ++ ' ' :: t) := by
  apply squeeze_append_congr
  induction back with
  | nil => rfl
  | cons c back ih =>
    have gap : startsGap (squeeze (' ' :: t)) = true := by
      rw [startsGap_squeeze]
      rfl
    rw [List.forall_mem_cons] at blank
    rw [List.cons_append, squeeze_blank blank.1, ih blank.2, gap, if_pos rfl]

theorem squeeze_append_of_finish {s : List Char} (finish : Stops (fun c => isBlank c || c == ',') s.reverse)
    (t : List Char) : squeeze (s ++ t) = squeeze s ++ squeeze t := by
  rcases List.eq_nil_or_concat s with rfl | ⟨front, c, rfl⟩
  · rfl
  · rw [List.concat_eq_append, List.reverse_append] at finish
    have last := (stops_cons ..).mp finish
    rw [Bool.or_eq_false_iff, beq_eq_false_iff_ne] at last
    rw [List.concat_eq_append, List.append_assoc, List.singleton_append, squeeze_append front last.1 last.2,
      squeeze_append front last.1 last.2, List.append_assoc]
    rfl

/-- A keyword that a text lacks is not in the trimmed text either. -/
theorem hasWholeKeyword_trim {keyword : Keyword} {s : List Char} (start : Stops isBlank s)
    (lacks : hasWholeKeyword keyword s = false) : hasWholeKeyword keyword (trim s) = false := by
  obtain ⟨back, parts, blank⟩ := exists_eq_trim_append start
  rw [parts] at lacks
  cases back with
  | nil => rwa [List.append_nil] at lacks
  | cons c back =>
    rw [hasWholeKeyword_append keyword _ (isWord_of_isBlank (blank c List.mem_cons_self)), Bool.or_eq_false_iff] at lacks
    exact lacks.1

namespace IsNormal

variable {s : List Char}

theorem squeeze_eq (normal : IsNormal s) : squeeze s = s := by
  obtain ⟨fields, nonempty, all, rfl⟩ := normal
  rw [← rejoin_collapse, collapse_of_isSpaced (isSpaced_intercalate nonempty all).1, rejoin,
    split_comma_intercalate nonempty all]

/-- Nothing is trimmed off, or the space behind the last comma is. -/
theorem trim_cases (normal : IsNormal s) :
    trim s = s ∧ Stops (fun c => isBlank c || c == ',') s.reverse ∨
      ∃ front, trim s = front ++ [','] ∧ s = front ++ [','] ++ [' '] := by
  obtain ⟨fields, nonempty, all, rfl⟩ := normal
  have start := (isSpaced_intercalate nonempty all).2
  obtain ⟨front, last, rfl⟩ := (List.eq_nil_or_concat fields).resolve_left nonempty
  rw [List.concat_eq_append] at all start ⊢
  have field := all last (by simp)
  have finish : Stops (fun c => isBlank c || c == ',') last.reverse := by
    intro c member
    have other : c ≠ ',' := by
      rintro rfl
      exact field.noComma (List.mem_reverse.mp (List.mem_of_mem_head? member))
    simp [field.finish c member, other]
  by_cases alone : front = []
  · rw [alone, List.nil_append, List.intercalate_singleton]
    exact .inl ⟨trim_eq_self field.start field.finish, finish⟩
  have parts : [',', ' '].intercalate (front ++ [last]) = [',', ' '].intercalate front ++ [','] ++ [' '] ++ last := by
    rw [intercalate_append alone (by simp), List.intercalate_singleton]
    simp
  rw [parts] at start ⊢
  by_cases empty : last = []
  · rw [empty, List.append_nil] at start ⊢
    refine .inr ⟨_, trim_append_blanks (trim_eq_self (stops_of_append start) ?_) (by simp) (by decide), rfl⟩
    rw [List.reverse_append]
    exact (stops_cons ..).mpr (by decide)
  · exact .inl ⟨trim_eq_self start (stops_reverse_append empty field.finish _), stops_reverse_append empty finish _⟩

/-- The normal form of a list is the list. -/
theorem squeeze_trim (normal : IsNormal s) : squeeze (trim s) = s := by
  rcases normal.trim_cases with ⟨same, _⟩ | ⟨front, trimmed, parts⟩
  · rw [same, normal.squeeze_eq]
  · have comma : squeeze [','] = squeeze ([','] ++ [' ']) := rfl
    rw [trimmed, squeeze_append_congr comma, ← List.append_assoc, ← parts, normal.squeeze_eq]

/-- With a space behind it the trimmed list is squeezed. -/
theorem squeeze_trim_space (normal : IsNormal s) : squeeze (trim s ++ [' ']) = trim s ++ [' '] := by
  rcases normal.trim_cases with ⟨same, finish⟩ | ⟨front, trimmed, parts⟩
  · rw [same, squeeze_append_of_finish finish, normal.squeeze_eq]
    rfl
  · rw [trimmed, ← parts, normal.squeeze_eq]

end IsNormal

/-- The fields are the same with or without the space behind the last comma. -/
theorem split_comma_trim {fields : List (List Char)} (nonempty : fields ≠ []) (all : ∀ field ∈ fields, IsField field) :
    Separator.comma.split (trim ([',', ' '].intercalate fields)) = fields := by
  obtain ⟨spaced, start⟩ := isSpaced_intercalate nonempty all
  obtain ⟨back, parts, _⟩ := exists_eq_trim_append start
  rw [parts] at spaced
  have whole := IsNormal.squeeze_trim ⟨fields, nonempty, all, rfl⟩
  rw [← rejoin_collapse, collapse_of_isSpaced spaced.left] at whole
  have trimmed := isField_of_split spaced.left (stops_trim _) (stops_reverse_trim _)
  have again := congrArg Separator.comma.split whole
  rwa [rejoin, split_comma_intercalate (Separator.split_ne_nil .comma _) trimmed,
    split_comma_intercalate nonempty all] at again

end RecordQuery.Text
