import RecordQuery.Proofs.Condition.Conjunction
import RecordQuery.Proofs.Text.Divided

/-! Conditions joined by OR, of any shape. The joined condition holds where one of them does. -/
namespace RecordQuery.Condition

theorem holds_combine_any (r : Record) (parts : List Condition) :
    (combine any parts).holds r = parts.any (holds r) := by
  unfold combine
  split <;> simp [holds]

theorem toList_or (p q : String) : (p ++ " OR " ++ q).toList = p.toList ++ (Text.Keyword.or.glue ++ q.toList) := by
  simp [Text.Keyword.glue, Text.Keyword.letters]

/-- A condition holds where one of the arms between its ORs does. -/
theorem holds_readLetters {s : List Char} (trimmed : Text.trim s = s) (r : Record) :
    (readLetters s).holds r =
      ((Text.Separator.keyword .or).split s).any fun arm => (readConjunction arm).holds r := by
  rw [readLetters, holds_combine_any, trimmed, List.any_map]
  rfl

/-- Two conditions joined by OR hold where one of them does, where the first one does not end in a
blank and OR. -/
theorem holds_read_or {p q : String} (trimmed : Text.trim p.toList = p.toList)
    (trimmed' : Text.trim q.toList = q.toList) (nonempty : p ≠ "") (nonempty' : q ≠ "")
    (apart : Text.endsIn .or p.toList = false) (r : Record) :
    (read (p ++ " OR " ++ q)).holds r = ((read p).holds r || (read q).holds r) := by
  have whole := Text.trim_append trimmed trimmed' (by simpa using nonempty) (by simpa using nonempty')
    Text.Keyword.or.glue
  have arms := Text.Separator.split_append_glue_of_endsIn (Text.stops_of_trim_eq trimmed).2
    (Text.stops_of_trim_eq trimmed').1 apart
  rw [read, toList_or, holds_readLetters whole, arms, List.any_append, ← holds_readLetters trimmed,
    ← holds_readLetters trimmed']
  rfl

/-- The first condition waits for an upper bound, and the second one starts with AND and has an OR
in quotes. -/
theorem holds_read_or_bounds :
    let p := "n BETWEEN 1"
    let q := "AND 5 AND note = 'this OR that'"
    Text.trim p.toList = p.toList ∧ Text.trim q.toList = q.toList ∧ p ≠ "" ∧ q ≠ "" ∧
      Text.endsIn .or p.toList = false ∧
      ∀ r, (read (p ++ " OR " ++ q)).holds r = ((read p).holds r || (read q).holds r) := by
  intro p q
  have trimmed : Text.trim p.toList = p.toList := by decide +kernel
  have trimmed' : Text.trim q.toList = q.toList := by decide +kernel
  have apart : Text.endsIn .or p.toList = false := by decide +kernel
  exact ⟨trimmed, trimmed', by decide, by decide, apart,
    holds_read_or trimmed trimmed' (by decide) (by decide) apart⟩

end RecordQuery.Condition
