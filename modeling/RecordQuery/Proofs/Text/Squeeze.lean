import RecordQuery.Proofs.Text.NormalForm

/-! White space and commas of the normal form, without regard to what is quoted. A run of blanks
is one space, and a comma takes the blanks around it away and has a space behind it. Every other
character stays where it is, and so do the words. -/
namespace RecordQuery.Text

def dropSpace : List Char → List Char
  | ' ' :: s => s
  | s => s

/-- A space or a comma starts the text. -/
def startsGap (s : List Char) : Bool := s.head?.any fun c => c == ' ' || c == ','

/-- Each run of blanks as one space, and each comma with no space in front and one behind. -/
def squeeze : List Char → List Char
  | [] => []
  | c :: s =>
    if c = ',' then ',' :: ' ' :: dropSpace (squeeze s)
    else if isBlank c then if startsGap (squeeze s) then squeeze s else ' ' :: squeeze s
    else c :: squeeze s

@[simp] theorem squeeze_nil : squeeze [] = [] := rfl

theorem squeeze_comma (s : List Char) : squeeze (',' :: s) = ',' :: ' ' :: dropSpace (squeeze s) := rfl

theorem ne_comma_of_isBlank {c : Char} (blank : isBlank c = true) : c ≠ ',' := by
  rintro rfl
  exact absurd blank (by decide)

theorem ne_space_of_solid {c : Char} (solid : isBlank c = false) : c ≠ ' ' := by
  rintro rfl
  exact absurd solid (by decide)

theorem squeeze_blank {c : Char} (blank : isBlank c = true) (s : List Char) :
    squeeze (c :: s) = if startsGap (squeeze s) then squeeze s else ' ' :: squeeze s := by
  rw [squeeze, if_neg (ne_comma_of_isBlank blank), if_pos blank]

theorem squeeze_solid {c : Char} (solid : isBlank c = false) (other : c ≠ ',') (s : List Char) :
    squeeze (c :: s) = c :: squeeze s := by
  rw [squeeze, if_neg other, if_neg (by simp [solid])]

theorem startsGap_cons {c : Char} (solid : isBlank c = false) (other : c ≠ ',') (s : List Char) :
    startsGap (c :: s) = false := by
  simp [startsGap, ne_space_of_solid solid, other]

theorem dropSpace_cons {c : Char} (other : c ≠ ' ') (s : List Char) : dropSpace (c :: s) = c :: s := by
  unfold dropSpace
  split
  next same => exact absurd (List.cons.inj same).1 other
  · rfl

theorem dropSpace_of_stops {s : List Char} (start : Stops isBlank s) : dropSpace s = s := by
  cases s with
  | nil => rfl
  | cons c s => exact dropSpace_cons (ne_space_of_solid ((stops_cons ..).mp start)) s

/-- A blank, a comma, or a character that is neither. -/
theorem blank_or_comma_or_solid (c : Char) :
    isBlank c = true ∨ c = ',' ∨ isBlank c = false ∧ c ≠ ',' := by
  cases blank : isBlank c with
  | true => exact .inl rfl
  | false => exact .inr ((Decidable.em (c = ',')).imp_right fun other => ⟨rfl, other⟩)

theorem startsGap_squeeze (s : List Char) :
    startsGap (squeeze s) = s.head?.any fun c => isBlank c || c == ',' := by
  cases s with
  | nil => rfl
  | cons c s =>
    rcases blank_or_comma_or_solid c with blank | rfl | ⟨solid, other⟩
    · rw [squeeze_blank blank]
      split
      next gap => simp [gap, blank]
      next => simp [startsGap, blank]
    · rfl
    · rw [squeeze_solid solid other, startsGap_cons solid other]
      simp [solid, other]

/-! The fields of a text that has been collapsed, joined again. -/

theorem intercalate_extendFirst (glue : List Char) (c : Char) {fields : List (List Char)}
    (nonempty : fields ≠ []) : glue.intercalate (extendFirst c fields) = c :: glue.intercalate fields := by
  obtain ⟨field, fields, rfl⟩ := List.exists_cons_of_ne_nil nonempty
  exact intercalate_cons_append [c] field fields

/-- The fields between the commas with a comma and a space between them. -/
def rejoin (s : List Char) : List Char := [',', ' '].intercalate (Separator.comma.split s)

theorem rejoin_of_none {c : Char} {s : List Char} (here : Separator.comma (c :: s) = none) :
    rejoin (c :: s) = c :: rejoin s := by
  rw [rejoin, Separator.split, Separator.splitFrom, here]
  exact intercalate_extendFirst _ c (Separator.split_ne_nil .comma s)

theorem rejoin_of_some {c : Char} {s : List Char} {n : Nat} (here : Separator.comma (c :: s) = some n) :
    rejoin (c :: s) = ',' :: ' ' :: rejoin (s.drop (n - 1)) := by
  rw [rejoin, Separator.split, Separator.splitFrom, here]
  dsimp only
  rw [Separator.splitFrom_drop, List.intercalate_cons_of_ne_nil (Separator.split_ne_nil .comma _)]
  rfl

theorem comma_comma (s : List Char) : Separator.comma (',' :: s) = some (blankRun s + 1) := by
  have kept : trimStart (',' :: s) = ',' :: s := trimStart_solid (by decide) s
  have run : blankRun (',' :: s) = 0 := rfl
  simp only [Separator.comma, kept, run, Option.some.injEq]
  omega

theorem rejoin_comma (s : List Char) : rejoin (',' :: s) = ',' :: ' ' :: rejoin (trimStart s) := by
  rw [rejoin_of_some (comma_comma s), Nat.add_sub_cancel, Separator.drop_blankRun]

theorem rejoin_solid {c : Char} (solid : isBlank c = false) (other : c ≠ ',') (s : List Char) :
    rejoin (c :: s) = c :: rejoin s :=
  rejoin_of_none (Separator.comma_solid solid other s)

/-- A comma takes away the blank in front of it. -/
theorem rejoin_space_comma (s : List Char) : rejoin (' ' :: ',' :: s) = rejoin (',' :: s) := by
  have here : Separator.comma (' ' :: ',' :: s) = some (blankRun s + 1 + 1) := by
    rw [Separator.comma_blank (by decide), comma_comma]
    rfl
  rw [rejoin_of_some here, Nat.add_sub_cancel, List.drop_succ_cons, Separator.drop_blankRun, rejoin_comma]

theorem rejoin_space_solid {c : Char} (solid : isBlank c = false) (other : c ≠ ',') (s : List Char) :
    rejoin (' ' :: c :: s) = ' ' :: rejoin (c :: s) := by
  apply rejoin_of_none
  rw [Separator.comma_blank (by decide), Separator.comma_solid solid other]
  rfl

theorem rejoin_trimStart {s : List Char} (spaced : IsSpaced s) :
    rejoin (trimStart s) = dropSpace (rejoin s) := by
  cases s with
  | nil => rfl
  | cons c s =>
    rcases blank_or_comma_or_solid c with blank | rfl | ⟨solid, other⟩
    · obtain ⟨rfl, start⟩ := spaced.1 blank
      rw [trimStart_space start]
      cases s with
      | nil => rfl
      | cons d s =>
        rcases blank_or_comma_or_solid d with blank | rfl | ⟨solid, other⟩
        · rw [(stops_cons ..).mp start] at blank
          cases blank
        · rw [rejoin_space_comma, rejoin_comma, dropSpace_cons (by decide)]
        · rw [rejoin_space_solid solid other]
          rfl
    · rw [trimStart_solid (by decide), rejoin_comma, dropSpace_cons (by decide)]
    · rw [trimStart_solid solid, rejoin_solid solid other, dropSpace_cons (ne_space_of_solid solid)]

theorem rejoin_collapse (s : List Char) : rejoin (collapse s) = squeeze s := by
  induction s with
  | nil => rfl
  | cons c s ih =>
    rcases blank_or_comma_or_solid c with blank | rfl | ⟨solid, other⟩
    · rw [squeeze_blank blank, startsGap_squeeze, collapse, if_pos blank]
      cases s with
      | nil => rfl
      | cons d s =>
        rcases blank_or_comma_or_solid d with blank | rfl | ⟨solid, other⟩
        · simp [blank, ih]
        · have same : collapse (',' :: s) = ',' :: collapse s := rfl
          rw [same] at ih ⊢
          have other : ¬ Option.any isBlank (',' :: s).head? = true := by
            have solid : isBlank ',' = false := by decide
            simp [solid]
          rw [if_neg other, if_pos (by simp), rejoin_space_comma, ih]
        · have same : collapse (d :: s) = d :: collapse s := by simp [collapse, solid]
          rw [same] at ih ⊢
          rw [if_neg (by simp [solid]), if_neg (by simp [solid, other]), rejoin_space_solid solid other, ih]
    · have same : collapse (',' :: s) = ',' :: collapse s := rfl
      rw [same, rejoin_comma, rejoin_trimStart (isSpaced_collapse s), ih, squeeze_comma]
    · rw [squeeze_solid solid other, collapse, if_neg (by simp [solid]), rejoin_solid solid other, ih]

/-- The normal form of a text is the trimmed text with its gaps squeezed. -/
theorem normalize_eq_squeeze (s : List Char) : normalize s = squeeze (trim s) := rejoin_collapse (trim s)

/-! What squeezing leaves as it is. -/

/-- A character that is neither blank nor a comma parts a text. -/
theorem squeeze_append (s : List Char) {c : Char} (solid : isBlank c = false) (other : c ≠ ',')
    (t : List Char) : squeeze (s ++ c :: t) = squeeze s ++ c :: squeeze t := by
  induction s with
  | nil => exact squeeze_solid solid other t
  | cons d s ih =>
    rw [List.cons_append]
    rcases blank_or_comma_or_solid d with blank | rfl | ⟨solid', other'⟩
    · rw [squeeze_blank blank, squeeze_blank blank, ih]
      cases squeeze s with
      | nil => simp [startsGap, ne_space_of_solid solid, other]
      | cons e r =>
        have same : startsGap (e :: r ++ c :: squeeze t) = startsGap (e :: r) := rfl
        rw [same]
        split <;> rfl
    · rw [squeeze_comma, squeeze_comma, ih]
      cases squeeze s with
      | nil =>
        rw [List.nil_append, dropSpace_cons (ne_space_of_solid solid)]
        rfl
      | cons e r =>
        by_cases space : e = ' '
        · rw [space]
          rfl
        · rw [List.cons_append, dropSpace_cons space, dropSpace_cons space]
          rfl
    · rw [squeeze_solid solid' other', squeeze_solid solid' other', ih]
      rfl

theorem squeeze_append_of_stops (s : List Char) {t : List Char}
    (start : Stops (fun c => isBlank c || c == ',') t) : squeeze (s ++ t) = squeeze s ++ squeeze t := by
  cases t with
  | nil => simp
  | cons c t =>
    have first := (stops_cons ..).mp start
    rw [Bool.or_eq_false_iff, beq_eq_false_iff_ne] at first
    rw [squeeze_append s first.1 first.2, squeeze_solid first.1 first.2]

/-- In a text that starts with a word there is no gap to squeeze before the end of the word. -/
theorem squeeze_word {word : List Char} (inside : ∀ c ∈ word, isWord c = true) (t : List Char) :
    squeeze (word ++ t) = word ++ squeeze t := by
  induction word with
  | nil => rfl
  | cons c word ih =>
    rw [List.forall_mem_cons] at inside
    have other : c ≠ ',' := by
      rintro rfl
      exact absurd inside.1 (by decide)
    rw [List.cons_append, squeeze_solid (isBlank_of_isWord inside.1) other, ih inside.2]
    rfl

/-- Blanks are single spaces. One stands behind each comma, and none in front but behind
another comma. -/
def IsTidy : List Char → Prop
  | [] => True
  | ',' :: s =>
    match s with
    | ' ' :: s => Stops isBlank s ∧ IsTidy s
    | _ => False
  | c :: s => (isBlank c = true → c = ' ' ∧ startsGap s = false) ∧ IsTidy s

theorem isTidy_cons {c : Char} (other : c ≠ ',') (s : List Char) :
    IsTidy (c :: s) ↔ (isBlank c = true → c = ' ' ∧ startsGap s = false) ∧ IsTidy s := by
  rw [IsTidy]
  exact other

theorem squeeze_eq_self {s : List Char} (tidy : IsTidy s) : squeeze s = s := by
  fun_induction IsTidy s with
  | case1 => rfl
  | case2 s ih =>
    rw [squeeze_comma, squeeze_blank (by decide), ih tidy.2]
    split
    · rw [dropSpace_of_stops tidy.1]
    · rfl
  | case3 => exact tidy.elim
  | case4 c s other ih =>
    obtain ⟨single, later⟩ := tidy
    rcases blank_or_comma_or_solid c with blank | rfl | ⟨solid, _⟩
    · obtain ⟨rfl, gap⟩ := single blank
      rw [squeeze_blank blank, ih later, gap]
      rfl
    · exact absurd rfl other
    · rw [squeeze_solid solid other, ih later]

theorem IsTidy.stops {s : List Char} (tidy : IsTidy s) (gap : startsGap s = false) : Stops isBlank s := by
  cases s with
  | nil => exact stops_nil _
  | cons c s =>
    rcases blank_or_comma_or_solid c with blank | rfl | ⟨solid, _⟩
    · obtain ⟨single, _⟩ := (isTidy_cons (ne_comma_of_isBlank blank) s).mp tidy
      obtain ⟨rfl, _⟩ := single blank
      cases gap
    · cases gap
    · exact (stops_cons ..).mpr solid

/-- Behind a comma the one space that may stand there is left out. -/
theorem isTidy_dropSpace {s : List Char} (tidy : IsTidy s) :
    Stops isBlank (dropSpace s) ∧ IsTidy (dropSpace s) := by
  cases s with
  | nil => exact ⟨stops_nil _, trivial⟩
  | cons c s =>
    rcases blank_or_comma_or_solid c with blank | rfl | ⟨solid, other⟩
    · obtain ⟨single, later⟩ := (isTidy_cons (ne_comma_of_isBlank blank) s).mp tidy
      obtain ⟨rfl, gap⟩ := single blank
      exact ⟨later.stops gap, later⟩
    · rw [dropSpace_cons (by decide)]
      exact ⟨(stops_cons ..).mpr (by decide), tidy⟩
    · rw [dropSpace_cons (ne_space_of_solid solid)]
      exact ⟨(stops_cons ..).mpr solid, tidy⟩

theorem isTidy_squeeze (s : List Char) : IsTidy (squeeze s) := by
  induction s with
  | nil => trivial
  | cons c s ih =>
    rcases blank_or_comma_or_solid c with blank | rfl | ⟨solid, other⟩
    · rw [squeeze_blank blank]
      split
      · exact ih
      next gap => exact (isTidy_cons (by decide) _).mpr ⟨fun _ => ⟨rfl, Bool.eq_false_iff.mpr gap⟩, ih⟩
    · exact isTidy_dropSpace ih
    · rw [squeeze_solid solid other]
      exact (isTidy_cons other _).mpr ⟨fun blank => absurd blank (by simp [solid]), ih⟩

theorem IsTidy.eq_space {s : List Char} (tidy : IsTidy s) : ∀ c ∈ s, isBlank c = true → c = ' ' := by
  fun_induction IsTidy s with
  | case1 => simp
  | case2 s ih =>
    rw [List.forall_mem_cons, List.forall_mem_cons]
    exact ⟨fun blank => absurd blank (by decide), fun _ => rfl, ih tidy.2⟩
  | case3 => exact tidy.elim
  | case4 c s other ih =>
    rw [List.forall_mem_cons]
    exact ⟨fun blank => (tidy.1 blank).1, ih tidy.2⟩

/-- Squeezing leaves exactly these texts as they are. -/
theorem squeeze_eq_self_iff {s : List Char} : squeeze s = s ↔ IsTidy s := by
  constructor
  · intro same
    rw [← same]
    exact isTidy_squeeze s
  · exact squeeze_eq_self

/-- A text with its gaps squeezed. -/
def squeezed (s : String) : String := String.ofList (squeeze s.toList)

@[simp] theorem toList_squeezed (s : String) : (squeezed s).toList = squeeze s.toList := String.toList_ofList

theorem squeezed_eq_self_iff {s : String} : squeezed s = s ↔ IsTidy s.toList := by
  rw [← squeeze_eq_self_iff, ← String.toList_inj, toList_squeezed]

theorem squeezed_squeezed (s : String) : squeezed (squeezed s) = squeezed s := by
  rw [squeezed_eq_self_iff, toList_squeezed]
  exact isTidy_squeeze s.toList

/-! Words. -/

theorem takeWord_of_startsGap {s : List Char} (gap : startsGap s = true) : takeWord s = [] := by
  cases s with
  | nil => rfl
  | cons c s =>
    have first : c = ' ' ∨ c = ',' := by simpa [startsGap] using gap
    apply List.takeWhile_cons_of_neg
    rcases first with rfl | rfl <;> decide

theorem takeWord_squeeze (s : List Char) : takeWord (squeeze s) = takeWord s := by
  induction s with
  | nil => rfl
  | cons c s ih =>
    rcases blank_or_comma_or_solid c with blank | rfl | ⟨solid, other⟩
    · have nothing : takeWord (c :: s) = [] := List.takeWhile_cons_of_neg (by simp [isWord_of_isBlank blank])
      rw [nothing]
      apply takeWord_of_startsGap
      simp [startsGap_squeeze, blank]
    · rfl
    · rw [squeeze_solid solid other, takeWord, takeWord, List.takeWhile_cons, List.takeWhile_cons]
      split
      · exact congrArg (c :: ·) ih
      · rfl

/-- Whether a keyword starts a text is settled by its first word. -/
theorem isSome_skipWholeKeyword?_congr (keyword : Keyword) {s t : List Char}
    (same : takeWord s = takeWord t) :
    (skipWholeKeyword? keyword s).isSome = (skipWholeKeyword? keyword t).isSome := by
  have first (s : List Char) :
      (skipWholeKeyword? keyword s).isSome = (skipWholeKeyword? keyword (takeWord s)).isSome := by
    have stop : Stops isWord (dropWord s) := by
      intro c member
      have head := List.head?_dropWhile_not isWord s
      rw [dropWord] at member
      rw [Option.mem_def.mp member] at head
      simpa using head
    rw [← isSome_skipWholeKeyword?_append keyword (takeWord s) stop, takeWord_append_dropWord]
  rw [first s, first t, same]

/-- Where no word starts, none goes on. -/
theorem findWord?_of_startsGap (keyword : Keyword) {s : List Char} (gap : startsGap s = true) :
    findWord? (skipWholeKeyword? keyword) true s = findWord? (skipWholeKeyword? keyword) false s := by
  cases s with
  | nil => rfl
  | cons c s =>
    have first : c = ' ' ∨ c = ',' := by simpa [startsGap] using gap
    have other : isWord c = false := by rcases first with rfl | rfl <;> decide
    rw [findWord?_cons, findWord?_cons, skipWholeKeyword?_of_not_isWord keyword other]
    rfl

theorem isSome_findWord?_squeeze (keyword : Keyword) (afterWord : Bool) (s : List Char) :
    (findWord? (skipWholeKeyword? keyword) afterWord (squeeze s)).isSome =
      (findWord? (skipWholeKeyword? keyword) afterWord s).isSome := by
  have beyond {c : Char} (other : isWord c = false) (afterWord : Bool) (t : List Char) :
      findWord? (skipWholeKeyword? keyword) afterWord (c :: t) =
        findWord? (skipWholeKeyword? keyword) false t := by
    rw [findWord?_cons, skipWholeKeyword?_of_not_isWord keyword other, ite_self, Option.none_or, other]
  induction s generalizing afterWord with
  | nil => rfl
  | cons c s ih =>
    rcases blank_or_comma_or_solid c with blank | rfl | ⟨solid, other⟩
    · rw [beyond (isWord_of_isBlank blank), ← ih, squeeze_blank blank]
      split
      next gap =>
        cases afterWord with
        | true => rw [findWord?_of_startsGap keyword gap]
        | false => rfl
      next => rw [beyond (by decide)]
    · rw [beyond (by decide), ← ih, squeeze_comma, beyond (by decide), beyond (by decide)]
      unfold dropSpace
      split
      next same => rw [same, beyond (by decide)]
      next => rfl
    · have here := isSome_skipWholeKeyword?_congr keyword (takeWord_squeeze (c :: s))
      rw [squeeze_solid solid other] at here ⊢
      rw [findWord?_cons, findWord?_cons, Option.isSome_or, Option.isSome_or, ih]
      cases afterWord with
      | true => rfl
      | false => exact congrArg (· || _) here

/-- The words of a text stay. -/
theorem hasWholeKeyword_squeeze (keyword : Keyword) (s : List Char) :
    hasWholeKeyword keyword (squeeze s) = hasWholeKeyword keyword s :=
  isSome_findWord?_squeeze keyword false s

end RecordQuery.Text
