import RecordQuery.Proofs.Text.Undivided

/-! Texts joined by a keyword between blanks. Each of them is divided as it would be alone, where
the first one does not end in a blank and the keyword: the blank behind it would make a separator
of these. -/
namespace RecordQuery.Text

/-- A blank and the keyword are the end of the text. -/
def endsIn (keyword : Keyword) : List Char → Bool
  | [] => false
  | c :: s => isBlank c && skipKeyword? keyword s == some [] || endsIn keyword s

theorem endsIn_of_suffix {keyword : Keyword} {tail s : List Char} (suffix : tail <:+ s)
    (apart : endsIn keyword s = false) : endsIn keyword tail = false := by
  obtain ⟨front, rfl⟩ := suffix
  induction front with
  | nil => exact apart
  | cons c front ih => exact ih (Bool.or_eq_false_iff.mp apart).2

/-- Several blanks may stand in front of the keyword. -/
theorem endsIn_of_skipBlanks? {keyword : Keyword} {s start : List Char} (skip : skipBlanks? s = some start)
    (found : skipKeyword? keyword start = some []) : endsIn keyword s = true := by
  induction s with
  | nil => cases skip
  | cons c s ih =>
    cases blank : isBlank c with
    | false => simp [skipBlanks?, blank] at skip
    | true =>
      obtain rfl : trimStart s = start := by simpa [skipBlanks?, blank] using skip
      rw [endsIn, blank, Bool.true_and, Bool.or_eq_true, beq_iff_eq]
      cases s with
      | nil => exact .inl found
      | cons d s =>
        cases next : isBlank d with
        | false => exact .inl (by rwa [trimStart_solid next] at found)
        | true =>
          refine .inr (ih ?_)
          rw [skipBlanks?, if_pos next, trimStart, trimStart, List.dropWhile_cons_of_pos next]

theorem blankRun_append_of_finish {s : List Char} (nonempty : s ≠ []) (finish : Stops isBlank s.reverse)
    (rest : List Char) : blankRun (s ++ rest) = blankRun s := by
  obtain ⟨front, c, rfl⟩ := (List.eq_nil_or_concat s).resolve_left nonempty
  have solid : isBlank c = false := by simpa [List.concat_eq_append] using finish
  rw [List.concat_eq_append, List.append_assoc, List.singleton_append, blankRun_append front solid,
    blankRun_append front solid]

/-- The blanks, the keyword and what follows it. -/
theorem exists_word_of_skipBlanks? {keyword : Keyword} {s start later : List Char}
    (skip : skipBlanks? s = some start) (found : skipKeyword? keyword start = some later) :
    ∃ word, s = s.takeWhile isBlank ++ (word ++ later) ∧ word.length = keyword.letters.length := by
  obtain ⟨word, parts, length, _⟩ := exists_word_of_skipLetters? (isCapital_letters keyword) found
  refine ⟨word, ?_, length⟩
  rw [← parts, skipBlanks?_of_some skip, trimStart, List.takeWhile_append_dropWhile]

namespace Separator

/-- A separator is part of the text that it starts. -/
theorem keyword_le {keyword : Keyword} {s : List Char} {n : Nat} (found : Separator.keyword keyword s = some n) :
    n ≤ s.length := by
  obtain ⟨start, skip, found⟩ := Option.bind_eq_some_iff.mp found
  obtain ⟨later, word, found⟩ := Option.bind_eq_some_iff.mp found
  obtain ⟨letters, parts, length⟩ := exists_word_of_skipBlanks? skip word
  have whole := congrArg List.length parts
  have run : blankRun later ≤ later.length := (List.takeWhile_sublist _).length_le
  rw [List.length_append, List.length_append, length] at whole
  split at found
  · cases found
  · obtain rfl := Option.some.inj found
    rw [blankRun]
    omega

/-- What stands behind a text with a solid end does not change the separator that starts the text. -/
theorem keyword_append_of_finish {keyword : Keyword} {s rest : List Char} (nonempty : s ≠ [])
    (finish : Stops isBlank s.reverse) (stop : Stops isWord rest) (apart : endsIn keyword s = false) :
    Separator.keyword keyword (s ++ rest) = Separator.keyword keyword s := by
  rw [Separator.keyword, Separator.keyword, skipBlanks?_append_of_finish nonempty finish,
    blankRun_append_of_finish nonempty finish]
  cases skip : skipBlanks? s with
  | none => rfl
  | some start =>
    rw [Option.map_some, Option.bind_some, Option.bind_some, skipKeyword?_append_stops keyword start stop]
    cases found : skipKeyword? keyword start with
    | none => rfl
    | some later =>
      have more : later ≠ [] := by
        rintro rfl
        rw [endsIn_of_skipBlanks? skip found] at apart
        cases apart
      have solid : Stops isBlank later.reverse := by
        obtain ⟨word, parts, _⟩ := exists_word_of_skipBlanks? skip found
        rw [parts] at finish
        exact stops_reverse_of_append (stops_reverse_of_append finish)
      rw [Option.map_some, Option.bind_some, Option.bind_some, blankRun_append_of_finish more solid]

variable {sep : Separator}

theorem extendFirst_append (c : Char) {fields : List (List Char)} (nonempty : fields ≠ [])
    (more : List (List Char)) : extendFirst c (fields ++ more) = extendFirst c fields ++ more := by
  obtain ⟨field, fields, rfl⟩ := List.exists_cons_of_ne_nil nonempty
  rfl

/-- A text none of whose separators depends on the rest, in front of a separator. -/
theorem splitFrom_append {pending : Nat} {s rest : List Char} {fields : List (List Char)}
    (parts : sep.split rest = [] :: fields) (same : ∀ tail, tail <:+ s → tail ≠ [] → sep (tail ++ rest) = sep tail)
    (within : ∀ tail n, sep tail = some n → n ≤ tail.length) (inside : pending ≤ s.length) :
    sep.splitFrom pending (s ++ rest) = sep.splitFrom pending s ++ fields := by
  induction s generalizing pending with
  | nil =>
    obtain rfl : pending = 0 := Nat.le_zero.mp inside
    exact parts
  | cons c s ih =>
    have ih {pending : Nat} (inside : pending ≤ s.length) :
        sep.splitFrom pending (s ++ rest) = sep.splitFrom pending s ++ fields :=
      ih (fun tail suffix => same tail (suffix.trans (List.suffix_cons c s))) inside
    cases pending with
    | succ pending => exact ih (Nat.le_of_succ_le_succ inside)
    | zero =>
      rw [List.cons_append, splitFrom, splitFrom, ← List.cons_append, same _ List.suffix_rfl (by simp)]
      cases here : sep (c :: s) with
      | some n =>
        have bound := within _ n here
        rw [List.length_cons] at bound
        dsimp only
        rw [ih (by omega), List.cons_append]
      | none =>
        dsimp only
        rw [ih (Nat.zero_le _), extendFirst_append c (splitFrom_ne_nil sep 0 s)]

/-- Texts joined by a keyword are divided each on its own. -/
theorem split_append_glue_of_endsIn {keyword : Keyword} {s t : List Char} (finish : Stops isBlank s.reverse)
    (start : Stops isBlank t) (apart : endsIn keyword s = false) :
    (Separator.keyword keyword).split (s ++ (keyword.glue ++ t)) =
      (Separator.keyword keyword).split s ++ (Separator.keyword keyword).split t := by
  have glue : (Separator.keyword keyword).split (keyword.glue ++ t) = [] :: (Separator.keyword keyword).split t :=
    split_append_glue (stops_nil _) start (quiet_nil _ _)
  refine splitFrom_append glue (fun tail suffix nonempty => ?_) (fun _ _ => keyword_le) (Nat.zero_le _)
  obtain ⟨front, rfl⟩ := suffix
  exact keyword_append_of_finish nonempty (stops_reverse_of_append finish) (stops_isWord_space _)
    (endsIn_of_suffix (List.suffix_append front tail) apart)

end Separator
end RecordQuery.Text
