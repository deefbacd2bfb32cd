import RecordQuery.Proofs.Condition.Conjunction

/-! Comparisons whose column is followed by another word than an operator. Of such a text nothing
is read, unless the end of the column's name is itself an operator that takes the rest. -/
namespace RecordQuery

theorem readAfterLongest?_origin {read : (beginning rest : List Char) → Option α} {s : List Char} {n : Nat} {a : α}
    (found : readAfterLongest? read s n = some a) :
    ∃ m, m < n ∧ read (s.take (m + 1)) (s.drop (m + 1)) = some a := by
  induction n with
  | zero => cases found
  | succ n ih =>
    rcases Option.or_eq_some_iff.mp found with here | ⟨_, shorter⟩
    · exact ⟨n, Nat.lt_succ_self n, here⟩
    · obtain ⟨m, less, read⟩ := ih shorter
      exact ⟨m, Nat.lt_succ_of_lt less, read⟩

namespace Operator

/-- The right sides that an operator takes. -/
def takes : Operator → List Char → Bool
  | between, right => (Condition.readBounds? right).isSome
  | is, right => Condition.isNull right || Condition.isNotNull right
  | _, _ => true

theorem eq_trim_of_rightSide? {s right : List Char} (side : rightSide? s = some right) : right = Text.trim s := by
  unfold rightSide? at side
  dsimp only at side
  split at side
  · cases side
  · exact (Option.some.inj side).symm

/-- What starts with a word is an operator only if that word is. -/
theorem split?_origin {s token right : List Char} (start : Text.Stops isSymbol s)
    (found : split? s = some (token, right)) :
    token = Text.takeWord s ∧ rightSide? (Text.dropWord s) = some right := by
  have symbols : s.takeWhile isSymbol = [] := by
    cases s with
    | nil => rfl
    | cons c s => simp [(Text.stops_cons ..).mp start]
  rw [split?, symbols, List.length_nil, readAfterLongest?, Option.none_or] at found
  obtain ⟨keyword, _, read⟩ := List.exists_of_findSome?_eq_some found
  obtain ⟨rest, skip, read⟩ := Option.bind_eq_some_iff.mp read
  obtain ⟨right, side, same⟩ := Option.map_eq_some_iff.mp read
  cases same
  obtain ⟨letters, rfl⟩ := Text.takeWord_of_skipWholeKeyword? skip
  exact ⟨letters, side⟩

end Operator

namespace Condition

/-- The end of a word, behind at least one character, is an operator that takes a right side. -/
def hidesOperator (right : List Char) : (word : List Char) → Bool
  | [] => false
  | _ :: rest => (Operator.ofLetters? rest).any (·.takes right) || hidesOperator right rest

theorem takes_of_drop {right word : List Char} (plain : hidesOperator right word = false) (n : Nat) :
    (Operator.ofLetters? (word.drop (n + 1))).any (·.takes right) = false := by
  induction word generalizing n with
  | nil => rfl
  | cons c word ih =>
    obtain ⟨here, later⟩ := Bool.or_eq_false_iff.mp plain
    cases n with
    | zero => exact here
    | succ n => exact ih later n

theorem exists_readTest_error {operator : Operator} {right : List Char} (refused : operator.takes right = false)
    (whole : List Char) : ∃ fault, readTest operator right whole = .error fault := by
  cases operator with
  | between =>
    have none : readBounds? right = none := by simpa [Operator.takes] using refused
    exact ⟨_, by rw [readTest, none]⟩
  | is =>
    obtain ⟨null, notNull⟩ := Bool.or_eq_false_iff.mp refused
    exact ⟨.unsupportedIsOperand (String.ofList right), by simp [readTest, null, notNull]⟩
  | _ => cases refused

/-- Parts without an operator that takes the right side make no comparison. -/
theorem exists_readParts_error {s : List Char} (refused : ∀ parts ∈ Parts.read? s,
      (Operator.ofLetters? parts.token).any (·.takes parts.right) = false) :
    ∃ fault, readParts s = .error fault := by
  unfold readParts
  split
  next operand token right found =>
    have refused := refused _ found
    cases known : Operator.ofLetters? token with
    | none => exact ⟨_, rfl⟩
    | some operator =>
      obtain ⟨fault, error⟩ := exists_readTest_error (by simpa [known] using refused) s
      exact ⟨fault, by simp [error, Except.map]⟩
  next => exact ⟨_, rfl⟩

theorem isSymbol_of_isWord {c : Char} (word : Text.isWord c = true) : Operator.isSymbol c = false := by
  rw [Bool.eq_false_iff]
  intro symbol
  simp only [Operator.isSymbol, Bool.or_eq_true, decide_eq_true_eq] at symbol
  rcases symbol with ((rfl | rfl) | rfl) | rfl <;> exact absurd word (by decide)

section

variable {name rest : List Char} (word : ∀ c ∈ name, Text.isWord c = true) (next : Text.takeWord rest ≠ [])

include word next

/-- A word that another one follows is no call. -/
theorem readPrefix?_word_word : Aggregate.Call.readPrefix? (name ++ ' ' :: rest) = none := by
  refine Aggregate.Call.readPrefix?_eq_none word (Text.stops_isWord_space rest) ?_
  obtain ⟨c, s, rfl, first⟩ := Text.exists_isWord next
  rw [Text.trimStart_space_word next]
  rintro ⟨⟩
  exact absurd first (by decide)

/-- The operator is the word behind the blank, or it is the end of the word before it and the
right side all that is behind the blank. -/
theorem Parts.read?_origin (trimmed : Text.trim rest = rest) {parts : Parts}
    (found : Parts.read? (name ++ ' ' :: rest) = some parts) :
    parts.token = Text.takeWord rest ∨ ∃ n, parts.token = name.drop (n + 1) ∧ parts.right = rest := by
  have taken : Text.takeWord (name ++ ' ' :: rest) = name :=
    Text.takeWhile_run word (Text.stops_isWord_space rest)
  rw [Parts.read?, readPrefix?_word_word word next, Option.bind_none, Option.none_or, taken] at found
  obtain ⟨n, less, read⟩ := readAfterLongest?_origin found
  rw [Parts.after?, List.drop_append_of_le_length (by omega)] at read
  obtain ⟨⟨token, right⟩, split, rfl⟩ := Option.map_eq_some_iff.mp read
  cases ending : name.drop (n + 1) with
  | nil =>
    rw [ending, List.nil_append, Text.trimStart_space_word next] at split
    obtain ⟨c, s, rfl, first⟩ := Text.exists_isWord next
    exact .inl (Operator.split?_origin ((Text.stops_cons ..).mpr (isSymbol_of_isWord first)) split).1
  | cons c s =>
    have inside : ∀ d ∈ c :: s, Text.isWord d = true := fun d member =>
      word d (List.mem_of_mem_drop (ending ▸ member))
    have first := inside c List.mem_cons_self
    rw [ending, List.cons_append, Text.trimStart_solid (Text.isBlank_of_isWord first)] at split
    obtain ⟨letters, side⟩ := Operator.split?_origin ((Text.stops_cons ..).mpr (isSymbol_of_isWord first)) split
    have taken : Text.takeWord (c :: s ++ ' ' :: rest) = c :: s :=
      Text.takeWhile_run inside (Text.stops_isWord_space rest)
    have dropped : Text.dropWord (c :: s ++ ' ' :: rest) = ' ' :: rest :=
      Text.dropWhile_run inside (Text.stops_isWord_space rest)
    rw [← List.cons_append, taken] at letters
    rw [← List.cons_append, dropped] at side
    exact .inr ⟨n, letters.trans ending.symm, (Operator.eq_trim_of_rightSide? side).trans (by simpa using trimmed)⟩

/-- Behind a word that hides no operator a word that is none makes no comparison. -/
theorem exists_readTrimmedComparison_malformed (trimmed : Text.trim rest = rest)
    (other : Operator.ofLetters? (Text.takeWord rest) = none) (plain : hidesOperator rest name = false) :
    ∃ fault, readTrimmedComparison (name ++ ' ' :: rest) =
      .malformed (String.ofList (name ++ ' ' :: rest)) fault := by
  have refused : ∀ parts ∈ Parts.read? (name ++ ' ' :: rest),
      (Operator.ofLetters? parts.token).any (·.takes parts.right) = false := by
    intro parts found
    rcases Parts.read?_origin word next trimmed found with same | ⟨n, ending, right⟩
    · simp [same, other]
    · rw [ending, right]
      exact takes_of_drop plain n
  obtain ⟨fault, error⟩ := exists_readParts_error refused
  exact ⟨fault, by rw [readTrimmedComparison, error]⟩

end

/-- A text of one comparison: OR does not divide it, and AND does not either, or once behind a
part with the word BETWEEN. -/
inductive IsAtomText : String → Prop
  | undivided {s : String} : Text.Undivided .or s → Text.Undivided .and s → IsAtomText s
  | bounds {low high : String} : Text.trim low.toList = low.toList → Text.trim high.toList = high.toList →
      low ≠ "" → high ≠ "" → Text.Undivided .or (low ++ " AND " ++ high) → Text.Undivided .and (low ++ " ") →
      Text.hasWholeKeyword .between low.toList = true → Text.Undivided .and high →
      IsAtomText (low ++ " AND " ++ high)

theorem IsAtomText.read_eq {s : String} (atom : IsAtomText s) (start : Text.Stops Text.isBlank s.toList) :
    read s = readTrimmedComparison (Text.trim s.toList) := by
  cases atom with
  | undivided noOr noAnd =>
    have same : read s = readLetters (Text.trim s.toList) := by simp [read, readLetters, Text.trim_trim]
    rw [same, readLetters_of_quiet (Text.trim_trim _) (noOr.quiet_trim start) (noAnd.quiet_trim start)]
  | @bounds low high trimmed trimmed' nonempty nonempty' noOr noAnd between noAnd' =>
    have whole := Text.trim_append trimmed trimmed' (by simpa using nonempty) (by simpa using nonempty')
      Text.Keyword.and.glue
    rw [Text.undivided_iff, toList_and] at noOr
    rw [Text.undivided_iff, String.toList_append] at noAnd
    have split := Text.Separator.split_append_glue (Text.stops_of_trim_eq trimmed).2
      (Text.stops_of_trim_eq trimmed').1 ((Text.quiet_append ..).mp noAnd).1
    rw [Text.Separator.split_quiet (Text.undivided_iff.mp noAnd')] at split
    rw [read, toList_and, readLetters_of_noOr whole noOr, readConjunction, split]
    simp [joinBounds, between, combine, readComparison, Text.Keyword.glue, Text.Keyword.letters]

/-- A word behind the column that is no operator makes the whole comparison malformed, whatever
the column is called, as long as the end of its name hides no operator. Every row passes. -/
theorem read_malformed_of_otherWord {column rest : String} (isName : Text.isName column.toList = true)
    (next : Text.takeWord rest.toList ≠ []) (other : Operator.ofLetters? (Text.takeWord rest.toList) = none)
    (atom : IsAtomText (column ++ " " ++ rest))
    (plain : hidesOperator (Text.trim rest.toList) column.toList = false) :
    (∃ fault, read (column ++ " " ++ rest) =
        .malformed (String.ofList (Text.trim (column ++ " " ++ rest).toList)) fault) ∧
      ∀ r, (read (column ++ " " ++ rest)).holds r = true := by
  obtain ⟨nonempty, word⟩ := Text.isName_iff.mp isName
  have solid : ∀ c ∈ column.toList, Text.isBlank c = false := fun c member => Text.isBlank_of_isWord (word c member)
  obtain ⟨c, s, letters, first⟩ := Text.exists_isWord next
  have start : Text.Stops Text.isBlank rest.toList := by
    rw [letters]
    exact (Text.stops_cons ..).mpr (Text.isBlank_of_isWord first)
  have sameWord := Text.takeWord_trim start
  have trimmed : Text.trim column.toList = column.toList :=
    Text.trim_eq_self (Text.stops_of_forall solid) (Text.stops_reverse_of_forall solid)
  have whole : Text.trim (column ++ " " ++ rest).toList = column.toList ++ ' ' :: Text.trim rest.toList := by
    simpa using Text.trim_append_right trimmed nonempty start (by simp [letters]) [' ']
  have read := atom.read_eq (by simpa using Text.stops_append nonempty (Text.stops_of_forall solid) _)
  rw [whole] at read
  obtain ⟨fault, malformed⟩ := exists_readTrimmedComparison_malformed word (sameWord ▸ next) (Text.trim_trim _)
    (sameWord ▸ other) plain
  rw [read, malformed, whole]
  exact ⟨⟨fault, rfl⟩, fun r => rfl⟩

/-- The bounds behind NOT BETWEEN are part of one malformed comparison. -/
theorem read_malformed_of_notBetween :
    let column := "region"
    let rest := "not between 1 AND 5"
    Text.isName column.toList = true ∧ Text.takeWord rest.toList ≠ [] ∧
      Operator.ofLetters? (Text.takeWord rest.toList) = none ∧ IsAtomText (column ++ " " ++ rest) ∧
      hidesOperator (Text.trim rest.toList) column.toList = false ∧
      (∃ fault, read (column ++ " " ++ rest) =
        .malformed (String.ofList (Text.trim (column ++ " " ++ rest).toList)) fault) ∧
      ∀ r, (read (column ++ " " ++ rest)).holds r = true := by
  intro column rest
  have isName : Text.isName column.toList = true := by decide
  have next : Text.takeWord rest.toList ≠ [] := by decide +kernel
  have other : Operator.ofLetters? (Text.takeWord rest.toList) = none := by decide +kernel
  have atom : IsAtomText (column ++ " " ++ rest) := by
    have bounds : column ++ " " ++ rest = "region not between 1" ++ " AND " ++ "5" := by decide +kernel
    rw [bounds]
    exact .bounds (by decide +kernel) (by decide +kernel) (by decide) (by decide) (by decide +kernel)
      (by decide +kernel) (by decide +kernel) (by decide +kernel)
  have plain : hidesOperator (Text.trim rest.toList) column.toList = false := by decide +kernel
  exact ⟨isName, next, other, atom, plain, read_malformed_of_otherWord isName next other atom plain⟩

/-- The end of this column is read as the operator IN, so that rows are lost. -/
theorem not_read_malformed_basin :
    let column := "basin"
    let rest := "NOT IN ('x')"
    Text.isName column.toList = true ∧ Text.takeWord rest.toList ≠ [] ∧
      Operator.ofLetters? (Text.takeWord rest.toList) = none ∧ '\n' ∉ rest.toList ∧
      Text.Undivided .or (column ++ " " ++ rest) ∧ Text.Undivided .and (column ++ " " ++ rest) ∧
      (read (column ++ " " ++ rest)).operator? = some .oneOf ∧
      (read (column ++ " " ++ rest)).holds ⟨[("basin", .text "y")]⟩ = false := by
  decide +kernel

end Condition
end RecordQuery
