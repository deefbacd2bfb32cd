import RecordQuery.Proofs.Text.Joined
import RecordQuery.Proofs.Text.Keywords

/-! Searching for keywords and cutting at separators, in texts put together from parts. -/
namespace RecordQuery.Text

theorem findWord?_cons (read : List Char → Option α) (afterWord : Bool) (c : Char) (cs : List Char) :
    findWord? read afterWord (c :: cs) =
      (if afterWord then none else read (c :: cs)).or (findWord? read (isWord c) cs) := rfl

/-- What starts with a character that is part of no word starts with no keyword. -/
theorem skipKeyword?_of_not_isWord (keyword : Keyword) {c : Char} (other : isWord c = false)
    (s : List Char) : skipKeyword? keyword (c :: s) = none := by
  have stop : Stops isWord (c :: s) := (stops_cons isWord c s).mpr other
  have none : skipKeyword? keyword [] = none := by cases keyword <;> rfl
  have skip := skipKeyword?_append_stops keyword [] stop
  rwa [none] at skip

theorem wordEnds_append {s rest : List Char} (stop : Stops isWord rest) :
    wordEnds (s ++ rest) = wordEnds s := by
  cases s with
  | nil =>
    cases rest with
    | nil => rfl
    | cons c rest => simp [wordEnds, (stops_cons isWord c rest).mp stop]
  | cons c s => rfl

theorem isSome_skipWholeKeyword?_append (keyword : Keyword) (s : List Char) {rest : List Char}
    (stop : Stops isWord rest) :
    (skipWholeKeyword? keyword (s ++ rest)).isSome = (skipWholeKeyword? keyword s).isSome := by
  rw [skipWholeKeyword?, skipWholeKeyword?, skipKeyword?_append_stops keyword s stop]
  cases skipKeyword? keyword s with
  | none => rfl
  | some r =>
    simp only [Option.map_some, Option.filter_some, wordEnds_append stop]
    split <;> rfl

theorem skipWholeKeyword?_of_not_isWord (keyword : Keyword) {c : Char} (other : isWord c = false)
    (s : List Char) : skipWholeKeyword? keyword (c :: s) = none := by
  rw [skipWholeKeyword?, skipKeyword?_of_not_isWord keyword other]
  rfl

theorem skipBlanks?_of_some {s rest : List Char} (skip : skipBlanks? s = some rest) : rest = trimStart s := by
  cases s with
  | nil => cases skip
  | cons c s =>
    rw [skipBlanks?] at skip
    split at skip
    next blank =>
      obtain rfl := Option.some.inj skip
      exact (List.dropWhile_cons_of_pos blank).symm
    · cases skip

/-- Blanks are skipped, at least one. -/
theorem exists_gap_of_skipBlanks? {s rest : List Char} (skip : skipBlanks? s = some rest) :
    ∃ gap, s = gap ++ rest ∧ gap ≠ [] ∧ ∀ c ∈ gap, isBlank c = true := by
  cases s with
  | nil => cases skip
  | cons c s =>
    rw [skipBlanks?] at skip
    split at skip
    next blank =>
      obtain rfl := Option.some.inj skip
      refine ⟨c :: s.takeWhile isBlank, by simp [trimStart], List.cons_ne_nil _ _, ?_⟩
      exact List.forall_mem_cons.mpr ⟨blank, List.all_eq_true.mp List.all_takeWhile⟩
    · cases skip

theorem trimStart_solid {c : Char} (solid : isBlank c = false) (s : List Char) : trimStart (c :: s) = c :: s :=
  dropWhile_stops ((stops_cons ..).mpr solid)

theorem skipBlanks?_space {s : List Char} (start : Stops isBlank s) : skipBlanks? (' ' :: s) = some s := by
  rw [skipBlanks?, if_pos (by decide), trimStart, dropWhile_stops start]

theorem trimStart_space {s : List Char} (start : Stops isBlank s) : trimStart (' ' :: s) = s :=
  (skipBlanks?_of_some (skipBlanks?_space start)).symm

/-- A word ends where blanks start. -/
theorem wordEnds_of_skipBlanks? {s : List Char} (skip : skipBlanks? s ≠ none) : wordEnds s = true := by
  cases s with
  | nil => rfl
  | cons c s =>
    rw [skipBlanks?] at skip
    split at skip
    next blank => simp [wordEnds, isWord_of_isBlank blank]
    · exact absurd rfl skip

/-- No blank stands behind a keyword that is no whole word. -/
theorem skipKeyword?_bind_skipBlanks? {keyword : Keyword} {s : List Char}
    (absent : (skipWholeKeyword? keyword s).isSome = false) :
    (skipKeyword? keyword s).bind skipBlanks? = none := by
  rw [Option.bind_eq_none_iff]
  intro rest skip
  rw [skipWholeKeyword?, skip] at absent
  cases blanks : skipBlanks? rest with
  | none => rfl
  | some later =>
    have ends : wordEnds rest = true := wordEnds_of_skipBlanks? (by simp [blanks])
    simp [Option.filter_some, ends] at absent

/-- On both sides of a character that is part of no word the search goes on independently. -/
theorem isSome_findWord?_append (keyword : Keyword) (afterWord : Bool) (s : List Char) {c : Char}
    (other : isWord c = false) (t : List Char) :
    (findWord? (skipWholeKeyword? keyword) afterWord (s ++ c :: t)).isSome =
      ((findWord? (skipWholeKeyword? keyword) afterWord s).isSome || hasWholeKeyword keyword t) := by
  induction s generalizing afterWord with
  | nil =>
    rw [List.nil_append, findWord?_cons, skipWholeKeyword?_of_not_isWord keyword other, ite_self,
      Option.none_or, other]
    rfl
  | cons d s ih =>
    have stop : Stops isWord (c :: t) := (stops_cons isWord c t).mpr other
    have here : (if afterWord then none else skipWholeKeyword? keyword (d :: s ++ c :: t)).isSome =
        (if afterWord then none else skipWholeKeyword? keyword (d :: s)).isSome := by
      cases afterWord with
      | true => rfl
      | false => exact isSome_skipWholeKeyword?_append keyword (d :: s) stop
    rw [List.cons_append, findWord?_cons, findWord?_cons, Option.isSome_or, Option.isSome_or, ih,
      ← Bool.or_assoc]
    exact congrArg (· || _ || _) here

theorem hasWholeKeyword_append (keyword : Keyword) (s : List Char) {c : Char}
    (other : isWord c = false) (t : List Char) :
    hasWholeKeyword keyword (s ++ c :: t) = (hasWholeKeyword keyword s || hasWholeKeyword keyword t) :=
  isSome_findWord?_append keyword false s other t

@[simp] theorem hasWholeKeyword_nil (keyword : Keyword) : hasWholeKeyword keyword [] = false := rfl

theorem hasWholeKeyword_cons (keyword : Keyword) {c : Char} (other : isWord c = false) (s : List Char) :
    hasWholeKeyword keyword (c :: s) = hasWholeKeyword keyword s := by
  have front := hasWholeKeyword_append keyword [] other s
  rwa [hasWholeKeyword_nil, Bool.false_or] at front

theorem hasWholeKeyword_intercalate_comma {keyword : Keyword} {parts : List (List Char)}
    (all : ∀ part ∈ parts, hasWholeKeyword keyword part = false) :
    hasWholeKeyword keyword ([',', ' '].intercalate parts) = false := by
  by_cases empty : parts = []
  · rw [empty]
    rfl
  · refine intercalate_induction (fun s t first second => ?_) empty all
    have shape : s ++ ([',', ' '] ++ t) = s ++ ',' :: ' ' :: t := rfl
    rw [shape, hasWholeKeyword_append keyword s (by decide), hasWholeKeyword_cons keyword (by decide), first, second]
    rfl

/-- Within a word only its start matters. -/
theorem findWord?_afterWord (read : List Char → Option α) {s : List Char}
    (word : ∀ c ∈ s, isWord c = true) (rest : List Char) :
    findWord? read true (s ++ rest) = findWord? read true rest := by
  induction s with
  | nil => rfl
  | cons c s ih =>
    rw [List.cons_append, findWord?_cons, if_pos rfl, Option.none_or, word c List.mem_cons_self]
    exact ih fun d member => word d (List.mem_cons_of_mem _ member)

theorem hasWholeKeyword_word (keyword : Keyword) {c : Char} {s : List Char}
    (word : ∀ d ∈ c :: s, isWord d = true) :
    hasWholeKeyword keyword (c :: s) = (skipWholeKeyword? keyword (c :: s)).isSome := by
  have later := findWord?_afterWord (skipWholeKeyword? keyword)
    (fun d member => word d (List.mem_cons_of_mem c member)) []
  rw [List.append_nil] at later
  rw [hasWholeKeyword, findWord?_cons, if_neg (by decide), word c List.mem_cons_self, later]
  simp [findWord?]

/-- What a reading finds starts with the mark. -/
def Seeks (mark : List Char → Option β) (read : List Char → Option α) : Prop :=
  ∀ s, (read s).isSome = true → (mark s).isSome = true

theorem Seeks.eq_none {mark : List Char → Option β} {read : List Char → Option α} (seeks : Seeks mark read)
    {s : List Char} (absent : (mark s).isSome = false) : read s = none := by
  rw [← Option.isNone_iff_eq_none, ← Option.isSome_eq_false_iff, Bool.eq_false_iff]
  intro present
  rw [seeks s present] at absent
  cases absent

/-- No mark reaches from a text into this rest. -/
structure Closed (mark : List Char → Option α) (rest : List Char) : Prop where
  nothing : (mark []).isSome = false
  within : ∀ s, (mark (s ++ rest)).isSome = (mark s).isSome

theorem closed_keyword (keyword : Keyword) {rest : List Char} (stop : Stops isWord rest) :
    Closed (skipWholeKeyword? keyword) rest where
  nothing := by cases keyword <;> rfl
  within := fun s => isSome_skipWholeKeyword?_append keyword s stop

/-- A text without the mark is passed over. -/
theorem Seeks.findWord?_append {mark : List Char → Option β} {read : List Char → Option α}
    (seeks : Seeks mark read) {rest : List Char} (closed : Closed mark rest) {afterWord : Bool} {s : List Char}
    (absent : (findWord? mark afterWord s).isSome = false) :
    findWord? read afterWord (s ++ rest) = findWord? read false rest := by
  induction s generalizing afterWord with
  | nil =>
    cases rest with
    | nil => rfl
    | cons c rest =>
      have here : read (c :: rest) = none := seeks.eq_none ((closed.within []).trans closed.nothing)
      rw [List.nil_append, findWord?_cons, findWord?_cons, here, ite_self, ite_self]
  | cons d s ih =>
    rw [findWord?_cons, Option.isSome_or, Bool.or_eq_false_iff] at absent
    have here : (if afterWord then none else read (d :: s ++ rest)) = none := by
      cases afterWord with
      | true => rfl
      | false => exact seeks.eq_none ((closed.within (d :: s)).trans absent.1)
    rw [List.cons_append, findWord?_cons, ← List.cons_append, here, Option.none_or]
    exact ih absent.2

theorem Seeks.findWord?_eq_none {mark : List Char → Option β} {read : List Char → Option α}
    (seeks : Seeks mark read) {afterWord : Bool} {s : List Char}
    (absent : (findWord? mark afterWord s).isSome = false) : findWord? read afterWord s = none := by
  induction s generalizing afterWord with
  | nil => rfl
  | cons d s ih =>
    rw [findWord?_cons, Option.isSome_or, Bool.or_eq_false_iff] at absent
    have here : (if afterWord then none else read (d :: s)) = none := by
      cases afterWord with
      | true => rfl
      | false => exact seeks.eq_none absent.1
    rw [findWord?_cons, here, Option.none_or]
    exact ih absent.2

/-- A mark that a text lacks does not start behind its first blanks. -/
theorem isSome_trimStart {mark : List Char → Option α} (nothing : (mark []).isSome = false) {s : List Char}
    (absent : (findWord? mark false s).isSome = false) : (mark (trimStart s)).isSome = false := by
  induction s with
  | nil => exact nothing
  | cons c s ih =>
    rw [findWord?_cons, Option.isSome_or, Bool.or_eq_false_iff] at absent
    rw [trimStart, List.dropWhile_cons]
    split
    next blank =>
      rw [isWord_of_isBlank blank] at absent
      exact ih absent.2
    · exact absent.1

/-- Nothing is read anywhere in a text with this continuation. -/
def Quiet (read : List Char → Option α) : (s rest : List Char) → Prop
  | [], _ => True
  | c :: cs, rest => read (c :: (cs ++ rest)) = none ∧ Quiet read cs rest

@[simp] theorem quiet_nil (read : List Char → Option α) (rest : List Char) : Quiet read [] rest := trivial

theorem quiet_cons (read : List Char → Option α) (c : Char) (s rest : List Char) :
    Quiet read (c :: s) rest ↔ read (c :: (s ++ rest)) = none ∧ Quiet read s rest := Iff.rfl

theorem quiet_append (read : List Char → Option α) (s t rest : List Char) :
    Quiet read (s ++ t) rest ↔ Quiet read s (t ++ rest) ∧ Quiet read t rest := by
  induction s with
  | nil => simp
  | cons c s ih => rw [List.cons_append, quiet_cons, quiet_cons, ih, List.append_assoc, and_assoc]

/-- What is read behind blanks only is not read in a text without blanks. -/
theorem quiet_of_solid {read : List Char → Option α}
    (behind : ∀ c s, isBlank c = false → read (c :: s) = none) {s : List Char}
    (solid : ∀ c ∈ s, isBlank c = false) (rest : List Char) : Quiet read s rest := by
  induction s with
  | nil => trivial
  | cons c s ih =>
    exact ⟨behind c _ (solid c List.mem_cons_self), ih fun d member => solid d (List.mem_cons_of_mem _ member)⟩

namespace Separator

variable {sep : Separator}

/-- Text in front of the first field. -/
def extendFirstBy (s : List Char) : List (List Char) → List (List Char)
  | [] => [s]
  | field :: fields => (s ++ field) :: fields

theorem extendFirst_extendFirstBy (c : Char) (s : List Char) (fields : List (List Char)) :
    extendFirst c (extendFirstBy s fields) = extendFirstBy (c :: s) fields := by
  cases fields <;> rfl

theorem splitFrom_of_quiet {s rest : List Char} (quiet : Quiet sep s rest) :
    sep.splitFrom 0 (s ++ rest) = extendFirstBy s (sep.splitFrom 0 rest) := by
  induction s with
  | nil =>
    cases fields : sep.splitFrom 0 rest with
    | nil => exact absurd fields (splitFrom_ne_nil sep 0 rest)
    | cons field fields' => exact fields
  | cons c s ih =>
    rw [List.cons_append, Separator.splitFrom, quiet.1]
    dsimp only
    rw [ih quiet.2, extendFirst_extendFirstBy]

theorem cut?_of_quiet {s rest : List Char} (quiet : Quiet sep s rest) :
    sep.cut? (s ++ rest) = (sep.cut? rest).map fun (before, after) => (s ++ before, after) := by
  induction s with
  | nil => simp
  | cons c s ih =>
    rw [List.cons_append, Separator.cut?, quiet.1]
    dsimp only
    rw [ih quiet.2, Option.map_map]
    rfl

theorem splitFrom_pending (s rest : List Char) :
    sep.splitFrom s.length (s ++ rest) = sep.splitFrom 0 rest := by
  induction s with
  | nil => rfl
  | cons c s ih => exact ih

/-- A separator that is written as `glue` in front of what follows. -/
theorem split_glue {glue : List Char} {c : Char} {s rest : List Char} (quiet : Quiet sep s (c :: glue ++ rest))
    (found : sep (c :: glue ++ rest) = some (glue.length + 1)) :
    sep.split (s ++ (c :: glue ++ rest)) = s :: sep.split rest := by
  rw [split, splitFrom_of_quiet quiet, List.cons_append, Separator.splitFrom, ← List.cons_append, found]
  show extendFirstBy s ([] :: sep.splitFrom glue.length (glue ++ rest)) = _
  rw [splitFrom_pending, extendFirstBy, List.append_nil]
  rfl

theorem split_quiet {s : List Char} (quiet : Quiet sep s []) : sep.split s = [s] := by
  have parts := splitFrom_of_quiet quiet
  rw [List.append_nil] at parts
  rw [split, parts]
  simp [Separator.splitFrom, extendFirstBy]

/-- Texts joined by a separator are what it splits them into. -/
theorem split_intercalate {glue : List Char} {c : Char} {parts : List (List Char)} (nonempty : parts ≠ [])
    (quiet : ∀ part ∈ parts, ∀ rest, rest = [] ∨ (c :: glue) <+: rest → Quiet sep part rest)
    (found : ∀ part ∈ parts, ∀ rest, rest = [] ∨ (c :: glue) <+: rest →
      sep (c :: glue ++ (part ++ rest)) = some (glue.length + 1)) :
    sep.split ((c :: glue).intercalate parts) = parts := by
  induction parts with
  | nil => exact absurd rfl nonempty
  | cons part parts ih =>
    cases parts with
    | nil =>
      rw [List.intercalate_singleton]
      exact split_quiet (quiet part List.mem_cons_self [] (.inl rfl))
    | cons next parts =>
      have later := ih (by simp) (fun part member => quiet part (List.mem_cons_of_mem _ member))
        (fun part member => found part (List.mem_cons_of_mem _ member))
      obtain ⟨rest, joined, shape⟩ := exists_intercalate_cons (c :: glue) next parts
      have start := found next (by simp) rest shape
      rw [← joined] at start
      rw [List.intercalate_cons_cons, List.append_assoc, split_glue _ start, later]
      exact quiet part List.mem_cons_self _ (.inr (List.prefix_append _ _))

/-- A keyword between blanks is sought where a blank is. -/
theorem keyword_of_not_isBlank (keyword : Keyword) {c : Char} (other : isBlank c = false)
    (s : List Char) : Separator.keyword keyword (c :: s) = none := by
  simp [Separator.keyword, skipBlanks?, other]

/-- Where the word after the first blanks is another one the keyword is not there. -/
theorem keyword_blank {keyword : Keyword} {c : Char} (blank : isBlank c = true) {s : List Char}
    (absent : (skipWholeKeyword? keyword (trimStart s)).isSome = false) :
    Separator.keyword keyword (c :: s) = none := by
  rw [Separator.keyword, skipBlanks?, if_pos blank, Option.bind_some]
  cases found : skipKeyword? keyword (trimStart s) with
  | none => rfl
  | some rest =>
    rw [skipWholeKeyword?, found] at absent
    rw [Option.bind_some]
    have word : wordEnds rest = false := by
      simpa [Option.filter_some] using absent
    have none : blankRun rest = 0 := by
      cases rest with
      | nil => rfl
      | cons c rest =>
        have inside : isWord c = true := by simpa [wordEnds] using word
        simp [blankRun, isBlank_of_isWord inside]
    rw [if_pos none]

theorem keyword_space {keyword : Keyword} {s : List Char} (start : Stops isBlank s)
    (absent : (skipWholeKeyword? keyword s).isSome = false) :
    Separator.keyword keyword (' ' :: s) = none := by
  apply keyword_blank (by decide)
  rwa [trimStart, dropWhile_stops start]

/-- A text without the word is not cut at it. -/
theorem cut?_eq_none {keyword : Keyword} {afterWord : Bool} {s : List Char}
    (lacks : (findWord? (skipWholeKeyword? keyword) afterWord s).isSome = false) :
    (Separator.keyword keyword).cut? s = none := by
  induction s generalizing afterWord with
  | nil => rfl
  | cons c s ih =>
    rw [findWord?_cons, Option.isSome_or, Bool.or_eq_false_iff] at lacks
    have here : Separator.keyword keyword (c :: s) = none := by
      cases blank : isBlank c with
      | false => exact keyword_of_not_isBlank keyword blank s
      | true =>
        rw [isWord_of_isBlank blank] at lacks
        exact keyword_blank blank (isSome_trimStart (by cases keyword <;> rfl) lacks.2)
    rw [Separator.cut?, here]
    dsimp only
    rw [ih lacks.2]
    rfl

theorem keyword_glue (keyword : Keyword) {s : List Char} (start : Stops isBlank s) :
    Separator.keyword keyword (' ' :: keyword.letters ++ ' ' :: s) =
      some (keyword.letters.length + 2) := by
  have letters (t : List Char) : Stops isBlank (keyword.letters ++ t) := by
    cases keyword <;> exact (stops_cons ..).mpr (by decide)
  have run (t : List Char) (start : Stops isBlank t) : blankRun (' ' :: t) = 1 := by
    have inside : ∀ c ∈ [' '], isBlank c = true := by decide
    rw [blankRun, show ' ' :: t = [' '] ++ t from rfl, takeWhile_run inside start]
    rfl
  rw [List.cons_append, Separator.keyword, skipBlanks?_space (letters _), Option.bind_some, skipKeyword?_letters,
    Option.bind_some, run _ start, run _ (letters _), if_neg (by decide), Option.some.injEq]
  omega

/-- Text without blanks has no keyword between blanks. -/
theorem quiet_of_noBlank (keyword : Keyword) {s : List Char} (solid : ∀ c ∈ s, isBlank c = false)
    (rest : List Char) : Quiet (Separator.keyword keyword) s rest :=
  quiet_of_solid (fun _ t other => keyword_of_not_isBlank keyword other t) solid rest

end Separator

/-- The shortest nonempty beginning, on one line, that something is read behind. -/
def splitBefore? (read : List Char → Option α) : List Char → Option (List Char × α)
  | [] => none
  | c :: cs =>
    if c = '\n' then none
    else match read cs with
      | some a => some ([c], a)
      | none => (splitBefore? read cs).map fun (front, a) => (c :: front, a)

theorem splitBefore?_append {read : List Char → Option α} {s rest : List Char} {a : α} (nonempty : s ≠ [])
    (oneLine : '\n' ∉ s) (quiet : Quiet read s rest) (found : read rest = some a) :
    splitBefore? read (s ++ rest) = some (s, a) := by
  induction s with
  | nil => exact absurd rfl nonempty
  | cons c s ih =>
    have line : c ≠ '\n' := fun same => oneLine (by simp [same])
    rw [List.cons_append, splitBefore?, if_neg line]
    cases s with
    | nil => rw [List.nil_append, found]
    | cons d s =>
      have later := ih (by simp) (fun member => oneLine (List.mem_cons_of_mem _ member)) quiet.2
      rw [List.cons_append] at later ⊢
      rw [quiet.2.1, later]
      rfl

theorem splitBefore?_eq_none {read : List Char → Option α} {s : List Char} (quiet : Quiet read s [])
    (nothing : read [] = none) : splitBefore? read s = none := by
  induction s with
  | nil => rfl
  | cons c s ih =>
    have here : read s = none := by
      cases s with
      | nil => exact nothing
      | cons d s => simpa using quiet.2.1
    rw [splitBefore?, here, ih quiet.2]
    split <;> rfl

/-- Where nothing is read within a text, what is read stands behind it. -/
theorem splitBefore?_of_quiet {read : List Char → Option α} {c : Char} {s rest front : List Char} {a : α}
    (quiet : Quiet read s rest) (split : splitBefore? read (c :: (s ++ rest)) = some (front, a)) :
    ∃ back, front = c :: (s ++ back) := by
  induction s generalizing c front with
  | nil =>
    unfold splitBefore? at split
    split at split
    · cases split
    · split at split
      · cases split
        exact ⟨[], rfl⟩
      · obtain ⟨⟨later, a'⟩, _, same⟩ := Option.map_eq_some_iff.mp split
        cases same
        exact ⟨later, rfl⟩
  | cons d s ih =>
    rw [splitBefore?, List.cons_append, quiet.1] at split
    split at split
    · cases split
    · obtain ⟨⟨later, a'⟩, found, same⟩ := Option.map_eq_some_iff.mp split
      cases same
      obtain ⟨back, rfl⟩ := ih quiet.2 found
      exact ⟨back, rfl⟩

end RecordQuery.Text
