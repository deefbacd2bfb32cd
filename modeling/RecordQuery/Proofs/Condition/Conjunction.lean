import RecordQuery.Proofs.Condition.ReadBack
import RecordQuery.Proofs.Text.Undivided

/-! Conditions joined by AND. Where the first one does not hold the word BETWEEN, the AND behind
it divides the text, and the joined condition holds where both do. -/
namespace RecordQuery.Condition

/-- The operator of a single comparison. -/
def operator? : Condition → Option Operator
  | test _ t => some t.operator
  | _ => none

theorem holds_combine_all (r : Record) (parts : List Condition) :
    (combine all parts).holds r = parts.all (holds r) := by
  unfold combine
  split <;> simp [holds]

/-- A part without BETWEEN stays a comparison of its own. -/
theorem joinBounds_cons {part : List Char} (noBetween : Text.hasWholeKeyword .between part = false)
    (parts : List (List Char)) : joinBounds (part :: parts) = part :: joinBounds parts := by
  cases parts <;> simp [joinBounds, noBetween]

theorem toList_and (p q : String) : (p ++ " AND " ++ q).toList = p.toList ++ (Text.Keyword.and.glue ++ q.toList) := by
  simp [Text.Keyword.glue, Text.Keyword.letters]

/-- A text without OR is one arm. -/
theorem readLetters_of_noOr {s : List Char} (trimmed : Text.trim s = s)
    (noOr : Text.Quiet (Text.Separator.keyword .or) s []) : readLetters s = readConjunction s := by
  simp [readLetters, combine, trimmed, Text.Separator.split_quiet noOr]

/-- The AND behind a comparison divides the text. -/
theorem holds_readConjunction_glue {s t : List Char} (trimmed : Text.trim s = s)
    (start : Text.Stops Text.isBlank t) (noAnd : Text.Quiet (Text.Separator.keyword .and) s [' '])
    (noBetween : Text.hasWholeKeyword .between s = false) (r : Record) :
    (readConjunction (s ++ (Text.Keyword.and.glue ++ t))).holds r =
      ((readTrimmedComparison s).holds r && (readConjunction t).holds r) := by
  have split := Text.Separator.split_append_glue (Text.stops_of_trim_eq trimmed).2 start noAnd
  simp [readConjunction, holds_combine_all, split, joinBounds_cons noBetween, readComparison, trimmed]

/-- Where no OR divides the joined text, no AND the first condition, and the first condition has no
word BETWEEN, two conditions joined by AND hold where both do. -/
theorem holds_read_and {p q : String} (trimmed : Text.trim p.toList = p.toList)
    (trimmed' : Text.trim q.toList = q.toList) (nonempty : p ≠ "") (nonempty' : q ≠ "")
    (noOr : Text.Undivided .or (p ++ " AND " ++ q)) (noAnd : Text.Undivided .and (p ++ " "))
    (noBetween : Text.hasWholeKeyword .between p.toList = false) (r : Record) :
    (read (p ++ " AND " ++ q)).holds r = ((read p).holds r && (read q).holds r) := by
  have finish := (Text.stops_of_trim_eq trimmed).2
  rw [Text.undivided_iff, toList_and] at noOr
  rw [Text.undivided_iff, String.toList_append] at noAnd
  obtain ⟨orBefore, orGlue⟩ := (Text.quiet_append ..).mp noOr
  obtain ⟨andBefore, _⟩ := (Text.quiet_append ..).mp noAnd
  have whole := Text.trim_append trimmed trimmed' (by simpa using nonempty) (by simpa using nonempty')
    Text.Keyword.and.glue
  have joined : read (p ++ " AND " ++ q) = readConjunction (p.toList ++ (Text.Keyword.and.glue ++ q.toList)) := by
    rw [read, toList_and, readLetters_of_noOr whole noOr]
  have first : read p = readTrimmedComparison p.toList := readLetters_of_quiet trimmed
    (Text.Separator.quiet_alone finish orBefore) (Text.Separator.quiet_alone finish andBefore)
  have second : read q = readConjunction q.toList :=
    readLetters_of_noOr trimmed' ((Text.quiet_append ..).mp orGlue).2
  rw [joined, first, second,
    holds_readConjunction_glue trimmed (Text.stops_of_trim_eq trimmed').1 andBefore noBetween]

/-- An AND inside quotes is no separator where no blank follows it, and the bounds of the second
condition stay together. -/
theorem holds_read_and_bounds :
    let p := "note = 'this and,that'"
    let q := "Qty BETWEEN 1 AND 5"
    Text.trim p.toList = p.toList ∧ Text.trim q.toList = q.toList ∧ p ≠ "" ∧ q ≠ "" ∧
      Text.Undivided .or (p ++ " AND " ++ q) ∧ Text.Undivided .and (p ++ " ") ∧
      Text.hasWholeKeyword .between p.toList = false ∧
      ∀ r, (read (p ++ " AND " ++ q)).holds r = ((read p).holds r && (read q).holds r) := by
  intro p q
  have trimmed : Text.trim p.toList = p.toList := by decide +kernel
  have trimmed' : Text.trim q.toList = q.toList := by decide +kernel
  have noOr : Text.Undivided .or (p ++ " AND " ++ q) := by decide +kernel
  have noAnd : Text.Undivided .and (p ++ " ") := by decide +kernel
  have noBetween : Text.hasWholeKeyword .between p.toList = false := by decide +kernel
  exact ⟨trimmed, trimmed', by decide, by decide, noOr, noAnd, noBetween,
    holds_read_and trimmed trimmed' (by decide) (by decide) noOr noAnd noBetween⟩

/-- With the word BETWEEN in quotes the second condition becomes part of the quoted text. -/
theorem not_holds_read_and_in_between :
    let p := "note = 'in between'"
    let q := "region = 'West'"
    let r : Record := ⟨[("note", .text "in between"), ("region", .text "West")]⟩
    Text.trim p.toList = p.toList ∧ Text.trim q.toList = q.toList ∧ p ≠ "" ∧ q ≠ "" ∧
      Text.Undivided .or (p ++ " AND " ++ q) ∧ Text.Undivided .and (p ++ " ") ∧
      (read p).operator? = some (.comparison .equal) ∧
      (read (p ++ " AND " ++ q)).holds r ≠ ((read p).holds r && (read q).holds r) := by
  decide +kernel

end RecordQuery.Condition
