import RecordQuery.Proofs.Text.Search

/-! Pieces of a condition's text. Wherever a piece stands, no AND or OR is found in it, and
it may be put behind another piece. -/
namespace RecordQuery.Text

/-- A keyword between single blanks. -/
def Keyword.glue (keyword : Keyword) : List Char := ' ' :: (keyword.letters ++ [' '])

theorem trim_eq_self {s : List Char} (start : Stops isBlank s) (finish : Stops isBlank s.reverse) :
    trim s = s := by
  rw [trim, trimStart, dropWhile_stops start, trimEnd, dropWhile_stops finish, List.reverse_reverse]

theorem trim_of_solid {s : List Char} (solid : ∀ c ∈ s, isBlank c = false) : trim s = s :=
  trim_eq_self (stops_of_forall solid) (stops_reverse_of_forall solid)

@[simp] theorem trim_space (s : List Char) : trim (' ' :: s) = trim s := by
  rw [trim, trimStart, List.dropWhile_cons_of_pos (by decide)]
  rfl

/-- Beyond a solid character a text is trimmed on its own. -/
theorem trim_append_of_solid {s : List Char} (nonempty : s ≠ []) (start : Stops isBlank s)
    (finish : Stops isBlank s.reverse) (t : List Char) : trim (s ++ t) = s ++ trimEnd t := by
  rw [trim, trimStart, dropWhile_stops (stops_append nonempty start t), trimEnd, reverse_dropWhile_append finish]
  rfl

theorem trimStart_append (s : List Char) {c : Char} (solid : isBlank c = false) (rest : List Char) :
    trimStart (s ++ c :: rest) = trimStart s ++ c :: rest := by
  induction s with
  | nil => simp [trimStart, solid]
  | cons d s ih =>
    unfold trimStart at ih ⊢
    rw [List.cons_append, List.dropWhile_cons, List.dropWhile_cons]
    split
    · exact ih
    · rfl

/-- What a text with a solid end is trimmed by does not depend on what follows. -/
theorem trimStart_append_of_finish {s : List Char} (nonempty : s ≠ []) (finish : Stops isBlank s.reverse)
    (rest : List Char) : trimStart (s ++ rest) = trimStart s ++ rest := by
  obtain ⟨front, c, rfl⟩ := (List.eq_nil_or_concat s).resolve_left nonempty
  have solid : isBlank c = false := by simpa [List.concat_eq_append] using finish
  have last (t : List Char) : trimStart (front ++ c :: t) = trimStart front ++ c :: t :=
    trimStart_append front solid t
  simpa [List.concat_eq_append, last []] using last rest

theorem blankRun_append (s : List Char) {c : Char} (solid : isBlank c = false) (rest : List Char) :
    blankRun (s ++ c :: rest) = blankRun s := by
  induction s with
  | nil => simp [blankRun, solid]
  | cons d s ih =>
    unfold blankRun at ih ⊢
    rw [List.cons_append, List.takeWhile_cons, List.takeWhile_cons]
    split
    · rw [List.length_cons, List.length_cons, ih]
    · rfl

namespace Separator

/-- A keyword between blanks does not reach over a character that is neither blank nor
part of a word. -/
theorem keyword_append (keyword : Keyword) (d : Char) (s : List Char) {c : Char}
    (solid : isBlank c = false) (other : isWord c = false) (rest : List Char) :
    Separator.keyword keyword (d :: s ++ c :: rest) = Separator.keyword keyword (d :: s) := by
  have stop : Stops isWord (c :: rest) := (stops_cons isWord c rest).mpr other
  have skip : skipBlanks? (d :: s ++ c :: rest) = (skipBlanks? (d :: s)).map (· ++ c :: rest) := by
    rw [List.cons_append, skipBlanks?, skipBlanks?, trimStart_append s solid]
    split <;> rfl
  have run : blankRun (d :: s ++ c :: rest) = blankRun (d :: s) := blankRun_append (d :: s) solid rest
  rw [Separator.keyword, Separator.keyword, skip, run]
  cases skipBlanks? (d :: s) with
  | none => rfl
  | some start =>
    rw [Option.map_some, Option.bind_some, Option.bind_some, skipKeyword?_append_stops keyword start stop]
    cases skipKeyword? keyword start with
    | none => rfl
    | some later =>
      rw [Option.map_some, Option.bind_some, Option.bind_some, blankRun_append later solid]

theorem quiet_of_cut? (keyword : Keyword) {s : List Char}
    (uncut : (Separator.keyword keyword).cut? s = none) {c : Char} (solid : isBlank c = false)
    (other : isWord c = false) (rest : List Char) : Quiet (Separator.keyword keyword) s (c :: rest) := by
  induction s with
  | nil => trivial
  | cons d s ih =>
    unfold Separator.cut? at uncut
    split at uncut
    · cases uncut
    next here =>
      refine ⟨?_, ih (Option.map_eq_none_iff.mp uncut)⟩
      rw [← List.cons_append, keyword_append keyword d s solid other]
      exact here

end Separator

/-- A text with solid ends, on one line, that neither holds the keyword between blanks nor
starts with it. -/
structure IsPiece (keyword : Keyword) (s : List Char) : Prop where
  nonempty : s ≠ []
  start : Stops isBlank s
  finish : Stops isBlank s.reverse
  oneLine : '\n' ∉ s
  quiet : ∀ rest, Stops isWord rest → Quiet (Separator.keyword keyword) s rest
  absent : (skipWholeKeyword? keyword s).isSome = false

namespace IsPiece

variable {keyword : Keyword} {s t : List Char}

theorem trim (piece : IsPiece keyword s) : trim s = s := trim_eq_self piece.start piece.finish

/-- The blank in front of a piece starts no separator. -/
theorem quiet_space (piece : IsPiece keyword s) {rest : List Char} (stop : Stops isWord rest) :
    Quiet (Separator.keyword keyword) (' ' :: s) rest := by
  refine ⟨Separator.keyword_space (stops_append piece.nonempty piece.start rest) ?_,
    piece.quiet rest stop⟩
  rw [isSome_skipWholeKeyword?_append keyword s stop]
  exact piece.absent

/-- A piece behind another one, with solid characters and a blank between them. -/
theorem join (first : IsPiece keyword s) (second : IsPiece keyword t) {glue : List Char}
    (stop : ∀ rest, Stops isWord (glue ++ ' ' :: rest)) (solid : ∀ c ∈ glue, isBlank c = false) :
    IsPiece keyword (s ++ (glue ++ ' ' :: t)) where
  nonempty := by simp
  start := stops_append first.nonempty first.start _
  finish := by
    rw [List.append_cons, ← List.append_assoc]
    exact stops_reverse_append second.nonempty second.finish _
  oneLine := by
    have line : '\n' ∉ glue := fun member => absurd (solid _ member) (by decide)
    have one := first.oneLine
    have two := second.oneLine
    simp [one, two, line]
  quiet := by
    intro rest later
    rw [quiet_append, quiet_append]
    refine ⟨?_, Separator.quiet_of_noBlank keyword solid _, second.quiet_space later⟩
    rw [List.append_assoc, List.cons_append]
    exact first.quiet _ (stop _)
  absent := by
    rw [isSome_skipWholeKeyword?_append keyword s (stop t)]
    exact first.absent

theorem space (first : IsPiece keyword s) (second : IsPiece keyword t) :
    IsPiece keyword (s ++ ' ' :: t) := by
  have stop (rest : List Char) : Stops isWord ([] ++ ' ' :: rest) := stops_isWord_space _
  exact first.join second stop (by simp)

theorem comma (first : IsPiece keyword s) (second : IsPiece keyword t) :
    IsPiece keyword (s ++ ([','] ++ ' ' :: t)) :=
  first.join second (fun _ => (stops_cons ..).mpr (by decide)) (by decide)

theorem intercalate_comma {parts : List (List Char)} (nonempty : parts ≠ [])
    (all : ∀ part ∈ parts, IsPiece keyword part) : IsPiece keyword ([',', ' '].intercalate parts) :=
  intercalate_induction (fun _ _ first second => first.comma second) nonempty all

/-- Pieces joined by another keyword. -/
theorem intercalate_glue {other : Keyword} (apart : IsPiece keyword other.letters)
    {parts : List (List Char)} (nonempty : parts ≠ []) (all : ∀ part ∈ parts, IsPiece keyword part) :
    IsPiece keyword (other.glue.intercalate parts) := by
  refine intercalate_induction (fun s t first second => ?_) nonempty all
  have joined := first.space (apart.space second)
  simpa [Keyword.glue] using joined

/-- A text in marks that are neither blank nor part of a word. -/
theorem enclosed {first last : Char} (solid : isBlank first = false) (other : isWord first = false)
    (solid' : isBlank last = false) (oneLine : '\n' ∉ s)
    (quiet : ∀ rest, Quiet (Separator.keyword keyword) s (last :: rest)) :
    IsPiece keyword (first :: (s ++ [last])) where
  nonempty := by simp
  start := (stops_cons ..).mpr solid
  finish := by
    rw [List.reverse_cons, List.reverse_append]
    exact (stops_cons ..).mpr solid'
  oneLine := by
    have line {c : Char} (solid : isBlank c = false) : '\n' ≠ c := by
      rintro rfl
      exact absurd solid (by decide)
    simp [oneLine, line solid, line solid']
  quiet := by
    intro rest _
    refine ⟨Separator.keyword_of_not_isBlank keyword solid _, ?_⟩
    rw [quiet_append]
    exact ⟨quiet rest, Separator.keyword_of_not_isBlank keyword solid' _, trivial⟩
  absent := by
    rw [skipWholeKeyword?_of_not_isWord keyword other]
    rfl

/-- Text without blanks. -/
theorem of_solid (nonempty : s ≠ []) (solid : ∀ c ∈ s, isBlank c = false)
    (absent : (skipWholeKeyword? keyword s).isSome = false) : IsPiece keyword s where
  nonempty := nonempty
  start := stops_of_forall solid
  finish := stops_reverse_of_forall solid
  oneLine := fun member => absurd (solid _ member) (by decide)
  quiet := fun rest _ => Separator.quiet_of_noBlank keyword solid rest
  absent := absent

end IsPiece

theorem skipWholeKeyword?_of_hasWholeKeyword {keyword : Keyword} {s : List Char}
    (lacks : hasWholeKeyword keyword s = false) : (skipWholeKeyword? keyword s).isSome = false := by
  cases s with
  | nil => cases keyword <;> rfl
  | cons c s =>
    rw [hasWholeKeyword, findWord?_cons, Option.isSome_or, Bool.or_eq_false_iff] at lacks
    exact lacks.1

/-- A text none of whose characters is the first letter of a keyword. -/
theorem hasWholeKeyword_of_letter {keyword : Keyword} {k : Char} {ks s : List Char}
    (letters : keyword.letters = k :: ks) (others : ∀ c ∈ s, sameLetter k c = false) :
    hasWholeKeyword keyword s = false := by
  have none (afterWord : Bool) : findWord? (skipWholeKeyword? keyword) afterWord s = none := by
    induction s generalizing afterWord with
    | nil => rfl
    | cons c s ih =>
      have here : skipWholeKeyword? keyword (c :: s) = none := by
        rw [skipWholeKeyword?, skipKeyword?, letters, skipLetters?, others c List.mem_cons_self]
        rfl
      rw [findWord?_cons, here, ite_self, Option.none_or]
      exact ih (fun d member => others d (List.mem_cons_of_mem _ member)) _
  rw [hasWholeKeyword, none]
  rfl

end RecordQuery.Text
