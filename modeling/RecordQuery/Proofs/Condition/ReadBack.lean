import RecordQuery.Proofs.Condition.Writing

/-! Reading of written conditions. A condition that is a comparison, a conjunction of
comparisons, or a disjunction of such arms is read back from its text. -/
namespace RecordQuery

theorem readAfterLongest?_of_some {read : (beginning rest : List Char) → Option α} {s : List Char} {n : Nat}
    {a : α} (found : read (s.take (n + 1)) (s.drop (n + 1)) = some a) :
    readAfterLongest? read s (n + 1) = some a := by
  rw [readAfterLongest?, found, Option.some_or]

/-- A reading that succeeds behind a nonempty beginning. -/
theorem readAfterLongest?_append {read : (beginning rest : List Char) → Option α}
    {beginning rest : List Char} {a : α} (nonempty : beginning ≠ []) (found : read beginning rest = some a) :
    readAfterLongest? read (beginning ++ rest) beginning.length = some a := by
  obtain ⟨c, s, rfl⟩ := List.exists_cons_of_ne_nil nonempty
  refine readAfterLongest?_of_some ?_
  rw [← List.length_cons (a := c), List.take_left, List.drop_left]
  exact found

theorem findSome?_of_only {f : α → Option β} {as : List α} {a : α} {b : β} (member : a ∈ as)
    (found : f a = some b) (others : ∀ other ∈ as, other ≠ a → f other = none) :
    as.findSome? f = some b := by
  induction as with
  | nil => cases member
  | cons first as ih =>
    by_cases same : first = a
    · rw [same, List.findSome?_cons, found]
    · rw [List.findSome?_cons, others first List.mem_cons_self same]
      exact ih (List.mem_of_ne_of_mem (Ne.symm same) member)
        fun other member => others other (List.mem_cons_of_mem _ member)

namespace Operator

theorem rightSide?_space {right : List Char} (piece : Text.IsPiece .or right) :
    rightSide? (' ' :: right) = some right := by
  rw [rightSide?, Text.trim_space, piece.trim]
  simp [piece.nonempty, piece.oneLine]

theorem skipWholeKeyword?_letters (keyword : Text.Keyword) (right : List Char) :
    Text.skipWholeKeyword? keyword (keyword.letters ++ ' ' :: right) = some (' ' :: right) := by
  rw [Text.skipWholeKeyword?, Text.skipKeyword?_letters]
  rfl

theorem keywords_apart : ∀ keyword ∈ keywords, ∀ other ∈ keywords, other ≠ keyword →
    (Text.skipWholeKeyword? other keyword.letters).isSome = false := by
  decide +kernel

/-- A word is read as the operator that it is. -/
theorem split?_letters {keyword : Text.Keyword} (member : keyword ∈ keywords) {right : List Char}
    (piece : Text.IsPiece .or right) :
    split? (keyword.letters ++ ' ' :: right) = some (keyword.letters, right) := by
  have symbols : (keyword.letters ++ ' ' :: right).takeWhile isSymbol = [] := by
    cases keyword <;> rfl
  have stop : Text.Stops Text.isWord (' ' :: right) := Text.stops_isWord_space _
  have others : ∀ other ∈ keywords, other ≠ keyword →
      Text.skipWholeKeyword? other (keyword.letters ++ ' ' :: right) = none := by
    intro other member' apart
    have absent := keywords_apart keyword member other member' apart
    rwa [← Text.isSome_skipWholeKeyword?_append other _ stop, Option.isSome_eq_false_iff,
      Option.isNone_iff_eq_none] at absent
  rw [split?, symbols, List.length_nil, readAfterLongest?, Option.none_or]
  refine findSome?_of_only member ?_ ?_
  · rw [skipWholeKeyword?_letters, Option.bind_some, rightSide?_space piece, Option.map_some, List.take_left]
  · intro other member' apart
    rw [others other member' apart, Option.bind_none]

/-- No operator starts with a parenthesis. -/
theorem split?_paren (s : List Char) : split? ('(' :: s) = none := rfl

theorem isSymbol_text (comparison : Comparison) :
    ∀ c ∈ (Operator.comparison comparison).text.toList, isSymbol c = true := by
  cases comparison <;> decide

/-- An operator is read with its right side. -/
theorem split?_text (operator : Operator) {right : List Char} (piece : Text.IsPiece .or right) :
    split? (operator.text.toList ++ ' ' :: right) = some (operator.text.toList, right) := by
  cases operator with
  | comparison comparison =>
    have symbols : ((Operator.comparison comparison).text.toList ++ ' ' :: right).takeWhile isSymbol =
        (Operator.comparison comparison).text.toList :=
      Text.takeWhile_run (isSymbol_text comparison) ((Text.stops_cons ..).mpr (by decide))
    have nonempty := ((Operator.comparison comparison).isPiece_text (.inr rfl)).nonempty
    rw [split?, symbols, readAfterLongest?_append nonempty (a := ((Operator.comparison comparison).text.toList, right)),
      Option.some_or]
    rw [rightSide?_space piece, Option.map_some]
  | like => exact split?_letters (show Text.Keyword.like ∈ keywords by decide) piece
  | ilike => exact split?_letters (show Text.Keyword.ilike ∈ keywords by decide) piece
  | oneOf => exact split?_letters (show Text.Keyword.in ∈ keywords by decide) piece
  | between => exact split?_letters (show Text.Keyword.between ∈ keywords by decide) piece
  | is => exact split?_letters (show Text.Keyword.is ∈ keywords by decide) piece

theorem ofLetters?_text (operator : Operator) : ofLetters? operator.text.toList = some operator := by
  cases operator with
  | comparison comparison => cases comparison <;> decide
  | _ => decide

end Operator

namespace Condition

theorem after?_write (operand : Option Operand) (operator : Operator) {right : List Char}
    (piece : Text.IsPiece .or right) :
    Parts.after? operand (' ' :: (operator.text.toList ++ ' ' :: right)) =
      some ⟨operand, operator.text.toList, right⟩ := by
  have start := ((operator.isPiece_text (.inr rfl)).space piece).start
  rw [Parts.after?, Text.trimStart_space start, operator.split?_text piece]
  rfl

/-- A name before an operator is a column in lower case, and no call: no parenthesis stands behind it. -/
theorem read?_name {name rest : List Char} {parts : Parts} (isName : Text.isName name = true)
    (stop : Text.Stops Text.isWord rest) (found : Parts.after? (some (columnNamed name)) rest = some parts) :
    Parts.read? (name ++ rest) = some parts := by
  obtain ⟨nonempty, word⟩ := Text.isName_iff.mp isName
  have noParen : (Text.trimStart rest).head? ≠ some '(' := by
    intro paren
    obtain ⟨inner, same⟩ := List.head?_eq_some_iff.mp paren
    rw [Parts.after?, same, Operator.split?_paren] at found
    cases found
  have taken : Text.takeWord (name ++ rest) = name := Text.takeWhile_run word stop
  rw [Parts.read?, Aggregate.Call.readPrefix?_eq_none word stop noParen, Option.bind_none, Option.none_or, taken]
  exact readAfterLongest?_append nonempty found

theorem read?_column {name : List Char} (isName : Text.isName name = true) (operator : Operator)
    {right : List Char} (piece : Text.IsPiece .or right) :
    Parts.read? (name ++ ' ' :: (operator.text.toList ++ ' ' :: right)) =
      some ⟨some (columnNamed name), operator.text.toList, right⟩ :=
  read?_name isName (Text.stops_isWord_space _) (after?_write _ operator piece)

theorem read?_writeTest {operand : Operand} (writable : operand.IsWritable) (operator : Operator)
    {right : List Char} (piece : Text.IsPiece .or right) :
    Parts.read? (writeTest operand operator right) =
      some ⟨some operand, operator.text.toList, right⟩ := by
  have called {call : Aggregate.Call} (named : call.WellNamed) :
      Parts.read? (writeTest (.aggregate call) operator right) =
        some ⟨some (.aggregate call), operator.text.toList, right⟩ := by
    rw [writeTest, Operand.write, Parts.read?, Aggregate.Call.readPrefix?_text named, Option.bind_some]
    dsimp only
    rw [Option.map_some, after?_write _ _ piece, Option.some_or]
  cases writable with
  | @column name column =>
    rw [writeTest, Operand.write, read?_column column.name operator piece, columnNamed,
      String.ofList_toList, column.lower]
  | countRows => exact called rfl
  | @aggregate function field column =>
    have named : Aggregate.Call.WellNamed ⟨function, some field⟩ := column.toIsLowerName
    exact called named

theorem cut?_glue (keyword : Text.Keyword) {s : List Char} (start : Text.Stops Text.isBlank s) :
    (Text.Separator.keyword keyword).cut? (keyword.glue ++ s) = some ([], s) := by
  have glued : keyword.glue ++ s = ' ' :: (keyword.letters ++ ' ' :: s) := by simp [Text.Keyword.glue]
  have found := Text.Separator.keyword_glue keyword start
  rw [List.cons_append] at found
  rw [glued, Text.Separator.cut?, found]
  simp

theorem readBounds?_write {low high : Value} (literal : IsLiteral low) (literal' : IsLiteral high) :
    readBounds? (Literal.write low ++ (Text.Keyword.and.glue ++ Literal.write high)) = some (low, high) := by
  have first : Text.IsPiece .and (Literal.write low) := Literal.isPiece_write (.inl rfl) literal
  have second : Text.IsPiece .and (Literal.write high) := Literal.isPiece_write (.inl rfl) literal'
  have quiet := first.quiet (Text.Keyword.and.glue ++ Literal.write high) (Text.stops_isWord_space _)
  rw [readBounds?, Text.Separator.cut?_of_quiet quiet, cut?_glue .and second.start]
  simp [first.trim, second.trim, first.nonempty, second.nonempty, Literal.read_write literal,
    Literal.read_write literal']

/-- Each operator reads its right side as it was written. -/
theorem readTest_write {t : Test} (writable : t.IsWritable) (whole : List Char) :
    readTest t.operator t.write whole = .ok t := by
  cases writable with
  | compare literal => rw [Test.operator, Test.write, readTest, Literal.read_write literal]
  | oneOf all => rw [Test.operator, Test.write, readTest, Literal.readList_writeList all]
  | between low high =>
    rw [Test.operator, Test.write, readTest, readBounds?_write low high]
  | like quotable => rw [Test.operator, Test.write, readTest, Literal.unquote_quote, String.ofList_toList]
  | ilike quotable => rw [Test.operator, Test.write, readTest, Literal.unquote_quote, String.ofList_toList]
  | null negated =>
    cases negated with
    | false => rfl
    | true => rfl

/-- Comparisons joined by AND hold no OR. -/
theorem isPiece_write_of_isArm {arm : Condition} (isArm : arm.IsArm) : Text.IsPiece .or arm.write := by
  have atom {condition : Condition} (isAtom : condition.IsAtom) : Text.IsPiece .or condition.write := by
    rw [← intercalate_segments]
    exact .intercalate_glue isPiece_and condition.segments_ne_nil (isPiece_segments isAtom (.inr rfl))
  cases isArm with
  | atom isAtom => exact atom isAtom
  | @all parts two isAtom =>
    rw [write, writeMembers_eq]
    refine .intercalate_glue isPiece_and ?_ fun part member => ?_
    · rintro empty
      rw [List.map_eq_nil_iff.mp empty] at two
      cases two
    · obtain ⟨condition, found, rfl⟩ := List.mem_map.mp member
      exact atom (isAtom condition found)

theorem readTrimmedComparison_of_parts {s : List Char} {operand : Operand} {t : Test} (writable : t.IsWritable)
    (parts : Parts.read? s = some ⟨some operand, t.operator.text.toList, t.write⟩) :
    readTrimmedComparison s = test operand t := by
  have read : readParts s = .ok (operand, t) := by
    rw [readParts, parts]
    dsimp only
    rw [Operator.ofLetters?_text]
    dsimp only
    rw [readTest_write writable]
    rfl
  rw [readTrimmedComparison, read]

theorem readComparison_write {atom : Condition} (isAtom : atom.IsAtom) :
    readComparison atom.write = atom := by
  have trimmed := (isPiece_write_of_isArm (.atom isAtom)).trim
  obtain @⟨operand, t, writable, writable'⟩ := isAtom
  have right := writable'.isPiece_write (.inr rfl) fun _ => rfl
  rw [readComparison, trimmed]
  exact readTrimmedComparison_of_parts writable' (read?_writeTest writable t.operator right)

/-- A text that is not parted is one comparison. -/
theorem readLetters_of_quiet {s : List Char} (trimmed : Text.trim s = s)
    (noOr : Text.Quiet (Text.Separator.keyword .or) s []) (noAnd : Text.Quiet (Text.Separator.keyword .and) s []) :
    readLetters s = readTrimmedComparison s := by
  simp [readLetters, readConjunction, readComparison, combine, joinBounds, trimmed,
    Text.Separator.split_quiet noOr, Text.Separator.split_quiet noAnd]

theorem finish_space (s : List Char) {rest : List Char} (nonempty : rest ≠ [])
    (finish : Text.Stops Text.isBlank rest.reverse) : Text.Stops Text.isBlank (s ++ ' ' :: rest).reverse := by
  simpa using Text.stops_reverse_append nonempty finish (s ++ [' '])

section

variable {name : List Char} (isName : Text.isName name = true)

include isName

/-- A name at the start is no separator. -/
theorem quiet_name {keyword : Text.Keyword} {rest later : List Char}
    (quiet : Text.Quiet (Text.Separator.keyword keyword) (' ' :: rest) later) :
    Text.Quiet (Text.Separator.keyword keyword) (name ++ ' ' :: rest) later :=
  (Text.quiet_append ..).mpr
    ⟨Text.Separator.quiet_of_noBlank keyword (Text.solid_of_isName isName) _, quiet⟩

theorem trim_name {rest : List Char} (nonempty : rest ≠ []) (finish : Text.Stops Text.isBlank rest.reverse) :
    Text.trim (name ++ ' ' :: rest) = name ++ ' ' :: rest :=
  Text.trim_eq_self (Text.stops_append (Text.isName_iff.mp isName).1
    (Text.stops_of_forall (Text.solid_of_isName isName)) _) (finish_space name nonempty finish)

/-- A comparison of a column, with its name in any letter case. -/
theorem read_column {right : List Char} (comparison : Comparison)
    (piece : ∀ keyword, keyword = .and ∨ keyword = .or → Text.IsPiece keyword right) :
    readLetters (name ++ ' ' :: ((Operator.comparison comparison).text.toList ++ ' ' :: right)) =
      .test (columnNamed name) (.compare comparison (Literal.read right)) := by
  have tail {keyword : Text.Keyword} (member : keyword = .and ∨ keyword = .or) :=
    ((Operator.comparison comparison).isPiece_text member).space (piece keyword member)
  have quiet {keyword : Text.Keyword} (member : keyword = .and ∨ keyword = .or) :=
    quiet_name isName ((tail member).quiet_space (Text.stops_nil _))
  have trimmed := trim_name isName (tail (.inl rfl)).nonempty (tail (.inl rfl)).finish
  rw [readLetters_of_quiet trimmed (quiet (.inr rfl)) (quiet (.inl rfl)), readTrimmedComparison, readParts,
    read?_column isName (.comparison comparison) (piece .or (.inr rfl))]
  simp [Operator.ofLetters?_text, readTest, Except.map]

end

/-- Joining the segments of all comparisons joins the comparisons. -/
theorem intercalate_flatMap_segments (conditions : List Condition) :
    Text.Keyword.and.glue.intercalate (conditions.flatMap segments) =
      Text.Keyword.and.glue.intercalate (conditions.map write) := by
  induction conditions with
  | nil => rfl
  | cons condition conditions ih =>
    rw [List.flatMap_cons, List.map_cons]
    cases conditions with
    | nil => simp [intercalate_segments]
    | cons next conditions =>
      have later : (next :: conditions).flatMap segments ≠ [] := by
        rw [List.flatMap_cons]
        exact List.append_ne_nil_of_left_ne_nil next.segments_ne_nil _
      rw [Text.intercalate_append condition.segments_ne_nil later, ih, intercalate_segments,
        List.intercalate_cons_of_ne_nil (by simp), List.append_assoc]

theorem joinBounds_flatMap_segments {atoms : List Condition} (all : ∀ atom ∈ atoms, atom.IsAtom) :
    joinBounds (atoms.flatMap segments) = atoms.map write := by
  induction atoms with
  | nil => rfl
  | cons atom atoms ih =>
    rw [List.flatMap_cons, joinBounds_segments (all atom List.mem_cons_self), List.map_cons,
      ih fun other member => all other (List.mem_cons_of_mem _ member)]

/-- Pieces joined by a keyword are what it splits their text into. -/
theorem split_intercalate_glue {keyword : Text.Keyword} {parts : List (List Char)} (nonempty : parts ≠ [])
    (all : ∀ part ∈ parts, Text.IsPiece keyword part) :
    (Text.Separator.keyword keyword).split (keyword.glue.intercalate parts) = parts := by
  refine Text.Separator.split_intercalate nonempty ?_ ?_
  · rintro part member rest (rfl | ⟨rest, rfl⟩)
    · exact (all part member).quiet _ (Text.stops_nil _)
    · exact (all part member).quiet _ (Text.stops_isWord_space _)
  · intro part member rest _
    have found := Text.Separator.keyword_glue keyword
      (Text.stops_append (all part member).nonempty (all part member).start rest)
    simpa using found

/-- Joined pieces have the solid ends of the first and the last one. -/
theorem trim_intercalate_glue {keyword : Text.Keyword} (other : Text.Keyword) {parts : List (List Char)}
    (nonempty : parts ≠ []) (all : ∀ part ∈ parts, Text.IsPiece keyword part) :
    Text.trim (other.glue.intercalate parts) = other.glue.intercalate parts := by
  apply Text.trim_eq_self
  · obtain ⟨part, parts, rfl⟩ := List.exists_cons_of_ne_nil nonempty
    obtain ⟨rest, joined, _⟩ := Text.exists_intercalate_cons other.glue part parts
    have piece := all part List.mem_cons_self
    rw [joined]
    exact Text.stops_append piece.nonempty piece.start rest
  · obtain ⟨parts, part, rfl⟩ := (List.eq_nil_or_concat parts).resolve_left nonempty
    have piece := all part (by simp)
    have last : Text.Stops Text.isBlank (other.glue.intercalate [part]).reverse := by
      rw [List.intercalate_singleton]
      exact piece.finish
    rw [List.concat_eq_append]
    by_cases empty : parts = []
    · rw [empty]
      exact last
    · rw [Text.intercalate_append empty (by simp), List.reverse_append, List.reverse_append, List.append_assoc]
      refine Text.stops_append ?_ last _
      rw [List.intercalate_singleton]
      simpa using piece.nonempty

theorem readConjunction_write {atoms : List Condition} (nonempty : atoms ≠ [])
    (all : ∀ atom ∈ atoms, atom.IsAtom) :
    readConjunction (Text.Keyword.and.glue.intercalate (atoms.map write)) = combine .all atoms := by
  have pieces : ∀ part ∈ atoms.flatMap segments, Text.IsPiece .and part := by
    intro part member
    obtain ⟨atom, found, inside⟩ := List.mem_flatMap.mp member
    exact isPiece_segments (all atom found) (.inl rfl) part inside
  have some : atoms.flatMap segments ≠ [] := by
    obtain ⟨atom, atoms, rfl⟩ := List.exists_cons_of_ne_nil nonempty
    rw [List.flatMap_cons]
    exact List.append_ne_nil_of_left_ne_nil atom.segments_ne_nil _
  rw [readConjunction, ← intercalate_flatMap_segments, split_intercalate_glue some pieces,
    joinBounds_flatMap_segments all, List.map_map]
  congr 1
  exact (List.map_congr_left fun atom member => readComparison_write (all atom member)).trans (List.map_id _)

theorem combine_of_two {compose : List Condition → Condition} {conditions : List Condition}
    (two : 2 ≤ conditions.length) : combine compose conditions = compose conditions := by
  unfold combine
  split
  · simp at two
  · rfl

theorem readConjunction_arm {arm : Condition} (isArm : arm.IsArm) : readConjunction arm.write = arm := by
  cases isArm with
  | atom isAtom =>
    have single : ∀ atom ∈ [arm], atom.IsAtom := by simpa using isAtom
    have read := readConjunction_write (by simp) single
    rwa [List.map_singleton, List.intercalate_singleton] at read
  | all two isAtom =>
    rw [write, writeMembers_eq, readConjunction_write _ isAtom, combine_of_two two]
    rintro rfl
    cases two

theorem readLetters_write {arms : List Condition} (nonempty : arms ≠ []) (all : ∀ arm ∈ arms, arm.IsArm) :
    readLetters (Text.Keyword.or.glue.intercalate (arms.map write)) = combine .any arms := by
  have some : arms.map write ≠ [] := by simpa using nonempty
  have pieces : ∀ part ∈ arms.map write, Text.IsPiece .or part := by
    intro part member
    obtain ⟨arm, found, rfl⟩ := List.mem_map.mp member
    exact isPiece_write_of_isArm (all arm found)
  rw [readLetters, trim_intercalate_glue .or some pieces, split_intercalate_glue some pieces, List.map_map]
  congr 1
  exact (List.map_congr_left fun arm member => readConjunction_arm (all arm member)).trans (List.map_id _)

/-- A condition is read back from its text. -/
theorem read_written_condition {condition : Condition} (writable : condition.IsWritable) :
    read (String.ofList condition.write) = condition := by
  rw [read, String.toList_ofList]
  cases writable with
  | arm isArm =>
    have single : ∀ arm ∈ [condition], arm.IsArm := by simpa using isArm
    have read := readLetters_write (by simp) single
    rwa [List.map_singleton, List.intercalate_singleton] at read
  | any two isArm =>
    rw [write, writeMembers_eq, readLetters_write _ isArm, combine_of_two two]
    rintro rfl
    cases two

/-- A range and a call in one arm, a list with a text of two words in the other. -/
theorem read_written_bounds_and_list :
    read (String.ofList (write
      (any [all [test (.column "price") (.between (.number (.whole 1 (by decide))) .null),
          test (.aggregate ⟨.count, none⟩) (.compare .greater (.bool true))],
        test (.column "region") (.oneOf [.text "north west", .null])]))) =
      any [all [test (.column "price") (.between (.number (.whole 1 (by decide))) .null),
          test (.aggregate ⟨.count, none⟩) (.compare .greater (.bool true))],
        test (.column "region") (.oneOf [.text "north west", .null])] := by
  have price : IsColumnName "price" := ⟨⟨by decide, Text.lower_eq_self (by decide)⟩, by decide⟩
  have region : IsColumnName "region" := ⟨⟨by decide, Text.lower_eq_self (by decide)⟩, by decide⟩
  have quotable : IsQuotable "north west" :=
    ⟨by decide, by decide +kernel, by decide +kernel, by decide +kernel⟩
  have listed : ∀ literal ∈ [.text "north west", .null], IsListLiteral literal := by
    intro literal member
    simp only [List.mem_cons, List.not_mem_nil, or_false] at member
    rcases member with rfl | rfl
    · refine ⟨.text quotable, ?_⟩
      rintro s same
      obtain rfl := Value.text.inj same
      decide
    · refine ⟨.null, ?_⟩
      rintro s same
      cases same
  refine read_written_condition (.any (by decide) ?_)
  intro arm member
  simp only [List.mem_cons, List.not_mem_nil, or_false] at member
  rcases member with rfl | rfl
  · refine .all (by decide) ?_
    intro part inside
    simp only [List.mem_cons, List.not_mem_nil, or_false] at inside
    rcases inside with rfl | rfl
    · exact .test (.column price) (.between (.whole (by decide) _) .null)
    · exact .test .countRows (.compare (.bool true))
  · exact .atom (.test (.column region) (.oneOf listed))

end Condition
end RecordQuery
