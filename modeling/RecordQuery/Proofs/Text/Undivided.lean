import RecordQuery.Proofs.Text.NormalForm
import RecordQuery.Proofs.Text.Pieces

/-! Texts that a keyword between blanks does not divide. Of what follows such a text it only
matters whether it starts with a blank. -/
namespace RecordQuery.Text

theorem stops_of_trim_eq {s : List Char} (trimmed : trim s = s) :
    Stops isBlank s ∧ Stops isBlank s.reverse := by
  rw [← trimmed]
  exact ⟨stops_trim s, stops_reverse_trim s⟩

theorem exists_isWord {s : List Char} (word : takeWord s ≠ []) : ∃ c t, s = c :: t ∧ isWord c = true := by
  cases s with
  | nil => exact absurd rfl word
  | cons c t =>
    cases first : isWord c with
    | true => exact ⟨c, t, rfl, first⟩
    | false => exact absurd (List.takeWhile_cons_of_neg (by simp [first])) word

theorem trimStart_space_word {s : List Char} (word : takeWord s ≠ []) : trimStart (' ' :: s) = s := by
  obtain ⟨c, t, rfl, first⟩ := exists_isWord word
  exact trimStart_space ((stops_cons ..).mpr (isBlank_of_isWord first))

/-- Blanks at the end are trimmed off. -/
theorem exists_eq_trim_append {s : List Char} (start : Stops isBlank s) :
    ∃ back, s = trim s ++ back ∧ ∀ c ∈ back, isBlank c = true := by
  refine ⟨(s.reverse.takeWhile isBlank).reverse, ?_, fun c member => ?_⟩
  · rw [trim, trimStart, dropWhile_stops start, trimEnd, ← List.reverse_append, List.takeWhile_append_dropWhile,
      List.reverse_reverse]
  · exact List.all_eq_true.mp List.all_takeWhile c (List.mem_reverse.mp member)

theorem trim_append_blanks {s back : List Char} (trimmed : trim s = s) (nonempty : s ≠ [])
    (blank : ∀ c ∈ back, isBlank c = true) : trim (s ++ back) = s := by
  obtain ⟨start, finish⟩ := stops_of_trim_eq trimmed
  rw [trim, trimStart, dropWhile_stops (stops_append nonempty start back), trimEnd, List.reverse_append,
    dropWhile_run (by simpa using blank) finish, List.reverse_reverse]

theorem trim_blanks_append {front : List Char} (blank : ∀ c ∈ front, isBlank c = true) (s : List Char) :
    trim (front ++ s) = trim s := by
  rw [trim, trimStart, List.dropWhile_append_of_pos blank, ← trimStart, ← trim]

/-- Joined texts are trimmed where the outer ends are. -/
theorem trim_append {s t : List Char} (trimmed : trim s = s) (trimmed' : trim t = t) (nonempty : s ≠ [])
    (nonempty' : t ≠ []) (middle : List Char) : trim (s ++ (middle ++ t)) = s ++ (middle ++ t) := by
  refine trim_eq_self (stops_append nonempty (stops_of_trim_eq trimmed).1 _) ?_
  rw [← List.append_assoc]
  exact stops_reverse_append nonempty' (stops_of_trim_eq trimmed').2 _

theorem trim_trim (s : List Char) : trim (trim s) = trim s := trim_eq_self (stops_trim s) (stops_reverse_trim s)

/-- Behind a trimmed text only the end is trimmed. -/
theorem trim_append_right {s t : List Char} (trimmed : trim s = s) (nonempty : s ≠ []) (start : Stops isBlank t)
    (nonempty' : t ≠ []) (middle : List Char) : trim (s ++ (middle ++ t)) = s ++ (middle ++ trim t) := by
  obtain ⟨back, parts, blank⟩ := exists_eq_trim_append start
  have kept : trim t ≠ [] := by
    intro empty
    obtain ⟨c, t, rfl⟩ := List.exists_cons_of_ne_nil nonempty'
    rw [empty, List.nil_append] at parts
    have first := blank c (by simp [← parts])
    simp [first] at start
  have whole : s ++ (middle ++ t) = s ++ (middle ++ trim t) ++ back := by
    conv => lhs; rw [parts]
    simp
  rw [whole]
  exact trim_append_blanks (trim_append trimmed (trim_trim t) nonempty kept middle) (by simp [nonempty]) blank

theorem takeWord_trim {s : List Char} (start : Stops isBlank s) : takeWord (trim s) = takeWord s := by
  obtain ⟨back, parts, blank⟩ := exists_eq_trim_append start
  have stop : Stops isWord back := stops_of_forall fun c member => isWord_of_isBlank (blank c member)
  conv => rhs; rw [parts]
  exact (takeWhile_append_stops stop _).symm

theorem skipBlanks?_append_of_finish {s : List Char} (nonempty : s ≠ []) (finish : Stops isBlank s.reverse)
    (rest : List Char) : skipBlanks? (s ++ rest) = (skipBlanks? s).map (· ++ rest) := by
  obtain ⟨c, s, rfl⟩ := List.exists_cons_of_ne_nil nonempty
  cases blank : isBlank c with
  | false => simp [skipBlanks?, blank]
  | true =>
    have more : s ≠ [] := by
      rintro rfl
      simp [blank] at finish
    simp [skipBlanks?, blank, trimStart_append_of_finish more (stops_reverse_of_cons finish)]

namespace Separator

variable {keyword : Keyword}

theorem keyword_eq_none_iff {s : List Char} : Separator.keyword keyword s = none ↔
    ∀ start ∈ skipBlanks? s, ∀ later ∈ skipKeyword? keyword start, Stops isBlank later := by
  have run (later : List Char) : blankRun later = 0 ↔ Stops isBlank later := by
    cases later with
    | nil => simp [blankRun]
    | cons c later => cases blank : isBlank c <;> simp [blankRun, blank]
  simp [Separator.keyword, Option.bind_eq_none_iff, run]

/-- A keyword that starts in a text with a solid end ends in it, too, but for the blanks behind it. -/
theorem keyword_append_eq_none_iff {c : Char} {s rest : List Char} (finish : Stops isBlank (c :: s).reverse)
    (stop : Stops isWord rest) : Separator.keyword keyword (c :: (s ++ rest)) = none ↔
      ∀ start ∈ skipBlanks? (c :: s), ∀ later ∈ skipKeyword? keyword start, Stops isBlank (later ++ rest) := by
  rw [← List.cons_append, keyword_eq_none_iff, skipBlanks?_append_of_finish (List.cons_ne_nil c s) finish]
  simp [skipKeyword?_append_stops keyword _ stop]

/-- A keyword at the solid end of a text needs a blank behind it: a text that is quiet before one rest
is quiet before another, unless only the other one starts with a blank. -/
theorem quiet_mono {s rest rest' : List Char} (finish : Stops isBlank s.reverse) (stop : Stops isWord rest)
    (stop' : Stops isWord rest') (blank : Stops isBlank rest → Stops isBlank rest')
    (quiet : Quiet (Separator.keyword keyword) s rest) : Quiet (Separator.keyword keyword) s rest' := by
  induction s with
  | nil => trivial
  | cons c s ih =>
    refine ⟨(keyword_append_eq_none_iff finish stop').mpr fun start found later skip => ?_,
      ih (stops_reverse_of_cons finish) quiet.2⟩
    have stops := (keyword_append_eq_none_iff finish stop).mp quiet.1 start found later skip
    cases later with
    | nil => exact blank stops
    | cons d later => exact (stops_cons ..).mpr ((stops_cons ..).mp stops)

/-- What is quiet before one blank is quiet before any text behind a blank. -/
theorem quiet_before {s : List Char} (finish : Stops isBlank s.reverse)
    (quiet : Quiet (Separator.keyword keyword) s [' ']) (rest : List Char) :
    Quiet (Separator.keyword keyword) s (' ' :: rest) :=
  quiet_mono finish (stops_isWord_space _) (stops_isWord_space _) (by simp) quiet

/-- What is quiet before a blank is quiet at the end. -/
theorem quiet_alone {s rest : List Char} (finish : Stops isBlank s.reverse)
    (quiet : Quiet (Separator.keyword keyword) s (' ' :: rest)) : Quiet (Separator.keyword keyword) s [] :=
  quiet_mono finish (stops_isWord_space _) (stops_nil _) (by simp) quiet

/-- A keyword behind a text parts it from the rest. -/
theorem split_append_glue {s t : List Char} (finish : Stops isBlank s.reverse) (start : Stops isBlank t)
    (quiet : Quiet (Separator.keyword keyword) s [' ']) :
    (Separator.keyword keyword).split (s ++ (keyword.glue ++ t)) = s :: (Separator.keyword keyword).split t := by
  refine split_glue (quiet_before finish quiet _) ?_
  simpa using keyword_glue keyword start

theorem quiet_iff_cut? {sep : Separator} {s : List Char} : Quiet sep s [] ↔ sep.cut? s = none := by
  induction s with
  | nil => simp [cut?]
  | cons c s ih =>
    rw [quiet_cons, ih, List.append_nil, cut?]
    cases sep (c :: s) <;> simp

end Separator

/-- A text without the keyword between blanks. -/
def Undivided (keyword : Keyword) (s : String) : Prop := (Separator.keyword keyword).cut? s.toList = none

theorem undivided_iff {keyword : Keyword} {s : String} :
    Undivided keyword s ↔ Quiet (Separator.keyword keyword) s.toList [] := Separator.quiet_iff_cut?.symm

/-- What is trimmed off at the end divides nothing. -/
theorem Undivided.quiet_trim {keyword : Keyword} {s : String} (undivided : Undivided keyword s)
    (start : Stops isBlank s.toList) : Quiet (Separator.keyword keyword) (trim s.toList) [] := by
  obtain ⟨back, parts, blank⟩ := exists_eq_trim_append start
  have quiet := undivided_iff.mp undivided
  rw [parts, quiet_append] at quiet
  have stop : Stops isWord back := stops_of_forall fun c member => isWord_of_isBlank (blank c member)
  exact Separator.quiet_mono (stops_reverse_trim _) (by simpa using stop) (stops_nil _) (by simp) quiet.1

instance (keyword : Keyword) (s : String) : Decidable (Undivided keyword s) := inferInstanceAs (Decidable (_ = _))

end RecordQuery.Text
