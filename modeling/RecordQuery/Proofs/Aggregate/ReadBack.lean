import RecordQuery.Proofs.Query.Names
import RecordQuery.Proofs.Text.Pieces

/-! The text of an aggregate call is read as that call. -/
namespace RecordQuery.Aggregate

theorem Function.isWord_name (function : Function) : ∀ c ∈ function.name.toList, Text.isWord c = true := by
  cases function <;> decide

theorem Function.ofLetters?_name (function : Function) : ofLetters? function.name.toList = some function := by
  cases function <;> decide

namespace Call

/-- What stands between the parentheses. -/
def argument (call : Call) : List Char := (call.field.getD "*").toList

theorem toList_text (call : Call) :
    call.text.toList = call.function.name.toList ++ '(' :: (call.argument ++ [')']) := by
  simp [text, argument]

theorem WellNamed.shape {call : Call} (named : call.WellNamed) :
    call.argument = ['*'] ∨ Text.isName call.argument = true := by
  unfold WellNamed at named
  unfold argument
  split at named
  next field same =>
    rw [same]
    exact .inr named.name
  next same =>
    rw [same]
    exact .inl rfl

section

variable {argument : List Char} (shape : argument = ['*'] ∨ Text.isName argument = true)

include shape

theorem argument_ne_nil : argument ≠ [] := by
  rcases shape with rfl | name
  · decide
  · exact (Text.isName_iff.mp name).1

/-- An argument is a word or an asterisk. -/
theorem word_argument : ∀ c ∈ argument, Text.isWord c = true ∨ c = '*' := by
  rcases shape with rfl | name
  · exact fun c member => .inr (List.mem_singleton.mp member)
  · exact fun c member => .inl ((Text.isName_iff.mp name).2 c member)

theorem solid_argument : ∀ c ∈ argument, Text.isBlank c = false := by
  intro c member
  rcases word_argument shape c member with word | rfl
  · exact Text.isBlank_of_isWord word
  · decide

theorem splitArgument?_append (rest : List Char) :
    splitArgument? (argument ++ ')' :: rest) = some (argument, ')' :: rest) := by
  rcases shape with rfl | name
  · rfl
  · have stop : Text.Stops Text.isWord (')' :: rest) := (Text.stops_cons ..).mpr (by decide)
    obtain ⟨nonempty, word⟩ := Text.isName_iff.mp name
    have taken : Text.takeWord (argument ++ ')' :: rest) = argument := Text.takeWhile_run word stop
    have left : Text.dropWord (argument ++ ')' :: rest) = ')' :: rest := Text.dropWhile_run word stop
    unfold splitArgument?
    split
    next star =>
      obtain ⟨c, cs, rfl⟩ := List.exists_cons_of_ne_nil nonempty
      rw [List.cons_append] at star
      cases star
      exact absurd (word '*' List.mem_cons_self) (by decide)
    next =>
      rw [taken, left, List.isEmpty_eq_false_iff.mpr nonempty]
      rfl

/-- A function is read with its argument, whatever follows. -/
theorem readPrefix?_append (function : Function) (rest : List Char) :
    readPrefix? (function.name.toList ++ '(' :: (argument ++ ')' :: rest)) =
      some (ofArgument? function argument, rest) := by
  have stop : Text.Stops Text.isWord ('(' :: (argument ++ ')' :: rest)) := (Text.stops_cons ..).mpr (by decide)
  have taken : Text.takeWord (function.name.toList ++ '(' :: (argument ++ ')' :: rest)) = function.name.toList :=
    Text.takeWhile_run function.isWord_name stop
  have left : Text.dropWord (function.name.toList ++ '(' :: (argument ++ ')' :: rest)) =
      '(' :: (argument ++ ')' :: rest) := Text.dropWhile_run function.isWord_name stop
  have start : Text.Stops Text.isBlank argument := Text.stops_of_forall (solid_argument shape)
  have inner : Text.trimStart (argument ++ ')' :: rest) = argument ++ ')' :: rest :=
    Text.dropWhile_stops (Text.stops_append (argument_ne_nil shape) start _)
  rw [readPrefix?, taken, left, Function.ofLetters?_name, Option.bind_some, Text.trimStart_solid (by decide)]
  show (splitArgument? (Text.trimStart (argument ++ ')' :: rest))).bind _ = _
  rw [inner, splitArgument?_append shape]
  simp only [Option.bind_some, Text.trimStart_solid (show Text.isBlank ')' = false by decide)]

theorem read?_append (function : Function) :
    read? (function.name.toList ++ '(' :: (argument ++ [')'])) = ofArgument? function argument := by
  have solid : ∀ c ∈ function.name.toList ++ '(' :: (argument ++ [')']), Text.isBlank c = false := by
    simp only [List.mem_append, List.mem_cons, List.not_mem_nil, or_false]
    rintro c (member | rfl | member | rfl)
    · exact Text.isBlank_of_isWord (function.isWord_name c member)
    · decide
    · exact solid_argument shape c member
    · decide
  rw [read?, Text.trim_of_solid solid, readPrefix?_append shape]

end

theorem ofArgument?_argument {call : Call} (named : call.WellNamed) :
    ofArgument? call.function call.argument = some call := by
  obtain ⟨function, field⟩ := call
  unfold WellNamed at named
  cases field with
  | none =>
    have count : function = .count := named
    subst count
    rfl
  | some field =>
    have lower : Text.IsLowerName field := named
    have star : field.toList ≠ ['*'] := by
      intro same
      have name := lower.name
      rw [same] at name
      exact absurd name (by decide)
    show ofArgument? function field.toList = _
    rw [ofArgument?, if_neg star, String.ofList_toList, ofField, lower.lower]

theorem WellNamed.mem_text {call : Call} (named : call.WellNamed) :
    ∀ c ∈ call.text.toList, Text.isWord c = true ∨ c ∈ ['(', ')', '*'] := by
  intro c member
  rw [toList_text] at member
  simp only [List.mem_append, List.mem_cons, List.not_mem_nil, or_false] at member
  rcases member with member | rfl | member | rfl
  · exact .inl (call.function.isWord_name c member)
  · exact .inr (by decide)
  · exact (word_argument named.shape c member).imp_right fun star => by simp [star]
  · exact .inr (by decide)

/-- The text of a call has no blanks. -/
theorem WellNamed.solid_text {call : Call} (named : call.WellNamed) :
    call.text.toList ≠ [] ∧ ∀ c ∈ call.text.toList, Text.isBlank c = false := by
  refine ⟨by simp [toList_text], fun c member => ?_⟩
  rcases named.mem_text c member with word | mark
  · exact Text.isBlank_of_isWord word
  · have marks : ∀ c ∈ ['(', ')', '*'], Text.isBlank c = false := by decide
    exact marks c mark

/-- A keyword is in neither part of a call. -/
theorem hasWholeKeyword_text {call : Call} {keyword : Text.Keyword}
    (name : Text.hasWholeKeyword keyword call.function.name.toList = false)
    (argument : Text.hasWholeKeyword keyword call.argument = false) :
    Text.hasWholeKeyword keyword call.text.toList = false := by
  rw [call.toList_text, Text.hasWholeKeyword_append keyword _ (by decide),
    Text.hasWholeKeyword_append keyword _ (by decide), name, argument, Text.hasWholeKeyword_nil]
  rfl

/-- A call is read from its text, whatever follows. -/
theorem readPrefix?_text {call : Call} (named : call.WellNamed) (rest : List Char) :
    readPrefix? (call.text.toList ++ rest) = some (some call, rest) := by
  have text : call.text.toList ++ rest = call.function.name.toList ++ '(' :: (call.argument ++ ')' :: rest) := by
    simp [toList_text]
  rw [text, readPrefix?_append named.shape, ofArgument?_argument named]

theorem read?_text {call : Call} (named : call.WellNamed) : read? call.text.toList = some call := by
  rw [toList_text, read?_append named.shape, ofArgument?_argument named]

/-- A word without a parenthesis behind it is no call. -/
theorem readPrefix?_eq_none {name rest : List Char} (word : ∀ c ∈ name, Text.isWord c = true)
    (stop : Text.Stops Text.isWord rest) (noParen : (Text.trimStart rest).head? ≠ some '(') :
    readPrefix? (name ++ rest) = none := by
  have left : Text.dropWord (name ++ rest) = rest := Text.dropWhile_run word stop
  rw [readPrefix?, left, Option.bind_eq_none_iff]
  intro function _
  split
  next inner same => simp [same] at noParen
  next => rfl

end Call
end RecordQuery.Aggregate
