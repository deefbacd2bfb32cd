import RecordQuery.Proofs.Text.Pieces
import RecordQuery.Query.ClauseText

/-! Clauses one behind the other. The words of a clause are found where the clause was
written, and its body ends where the next clause starts. -/
namespace RecordQuery.Text

/-- What is read behind blanks is not read beyond the end of a text, where nothing is read
at the end itself and behind the blanks after it. -/
theorem skipBlanks?_bind_append {read : List Char → Option (List Char)} (s : List Char) {rest : List Char}
    (within : ∀ t, read (t ++ rest) = (read t).map (· ++ rest)) (empty : read [] = none)
    (ahead : read (trimStart rest) = none) :
    (skipBlanks? (s ++ rest)).bind read = ((skipBlanks? s).bind read).map (· ++ rest) := by
  cases s with
  | nil =>
    rw [Option.bind_eq_none_iff.mpr]
    · rfl
    · intro later skip
      rw [skipBlanks?_of_some skip]
      exact ahead
  | cons c s =>
    rw [List.cons_append, skipBlanks?, skipBlanks?]
    split
    · rw [Option.bind_some, Option.bind_some, trimStart, List.dropWhile_append]
      split
      next blanks =>
        have same : trimStart s = [] := List.isEmpty_iff.mp blanks
        show read (trimStart rest) = _
        rw [same, ahead, empty]
        rfl
      next => exact within (trimStart s)
    · rfl

theorem skipPhrase?_of_head {keyword : Keyword} (keywords : List Keyword) {s : List Char}
    (absent : skipKeyword? keyword s = none) : skipPhrase? (keyword :: keywords) s = none := by
  cases keywords <;> simp [skipPhrase?, absent]

/-- A phrase does not reach into a rest that starts with none of its later words. -/
theorem skipPhrase?_append {keywords : List Keyword} {rest : List Char} (stop : Stops isWord rest)
    (apart : ∀ keyword ∈ keywords.tail, skipKeyword? keyword (trimStart rest) = none) (s : List Char) :
    skipPhrase? keywords (s ++ rest) = (skipPhrase? keywords s).map (· ++ rest) := by
  induction keywords generalizing s with
  | nil => rfl
  | cons keyword keywords ih =>
    cases keywords with
    | nil => exact skipKeyword?_append_stops keyword s stop
    | cons next keywords =>
      have within := ih fun other member => apart other (List.mem_cons_of_mem _ member)
      have ahead := skipPhrase?_of_head keywords (apart next List.mem_cons_self)
      have nothing : skipKeyword? next [] = none := by cases next <;> rfl
      simp only [skipPhrase?, skipKeyword?_append_stops keyword s stop]
      cases skipKeyword? keyword s with
      | none => rfl
      | some r => exact skipBlanks?_bind_append r within (skipPhrase?_of_head keywords nothing) ahead

end RecordQuery.Text

namespace RecordQuery.Clause

/-- The clauses behind the select list, in the order in which they are written. -/
def sequence : List Clause := [filter, group, having, order, limit, offset]

/-- What follows the words of a clause, as whole words. -/
def words? (clause : Clause) (s : List Char) : Option (List Char) :=
  (Text.skipPhrase? clause.phrase s).filter Text.wordEnds

/-- The words of the clause stand somewhere in the text. -/
def occursIn (clause : Clause) (s : List Char) : Bool := (Text.findWord? clause.words? false s).isSome

/-- The words of a clause in writing. -/
def letters (clause : Clause) : List Char := [' '].intercalate (clause.phrase.map Text.Keyword.letters)

theorem seeks_opening (clause : Clause) : Text.Seeks clause.words? clause.opening? := by
  intro s found
  unfold opening? at found
  unfold words?
  cases skip : Text.skipPhrase? clause.phrase s with
  | none => simp [skip] at found
  | some rest =>
    rw [skip, Option.bind_some] at found
    have ends : Text.wordEnds rest = true := by
      apply Text.wordEnds_of_skipBlanks?
      rintro none
      simp [none] at found
    simp [Option.filter_some, ends]

/-- The words of a clause start with the first of them. -/
theorem seeks_words {clause : Clause} {keyword : Text.Keyword} {keywords : List Text.Keyword}
    (first : clause.phrase = keyword :: keywords) :
    Text.Seeks (Text.skipWholeKeyword? keyword) clause.words? := by
  intro s found
  rw [words?, first] at found
  cases keywords with
  | nil => exact found
  | cons next keywords =>
    rw [Text.skipPhrase?] at found
    · cases skip : Text.skipKeyword? keyword s with
      | none => simp [skip] at found
      | some rest =>
        rw [skip, Option.bind_some] at found
        have ends : Text.wordEnds rest = true := by
          apply Text.wordEnds_of_skipBlanks?
          rintro none
          simp [none] at found
        simp [Text.skipWholeKeyword?, skip, Option.filter_some, ends]
    · simp

/-- The words of a clause do not reach beyond the end of a word where BY does not follow. -/
theorem closed_words {clause : Clause} (member : clause ∈ sequence) {rest : List Char}
    (stop : Text.Stops Text.isWord rest) (apart : Text.skipKeyword? .by (Text.trimStart rest) = none) :
    Text.Closed clause.words? rest where
  nothing := by
    revert clause
    decide
  within := by
    intro s
    have later : ∀ clause ∈ sequence, ∀ keyword ∈ clause.phrase.tail, keyword = .by := by decide
    have reach : Text.skipPhrase? clause.phrase (s ++ rest) = (Text.skipPhrase? clause.phrase s).map (· ++ rest) := by
      refine Text.skipPhrase?_append stop (fun keyword inside => ?_) s
      rw [later clause member keyword inside]
      exact apart
    rw [words?, words?, reach]
    cases Text.skipPhrase? clause.phrase s with
    | none => rfl
    | some r =>
      rw [Option.map_some, Option.filter_some, Option.filter_some, Text.wordEnds_append stop]
      split <;> rfl

/-- A clause in writing, with the space in front of it. -/
def write (clause : Clause) (body : List Char) : List Char := ' ' :: (clause.letters ++ ' ' :: body)

/-- What stands behind the body of a clause: nothing, a semicolon, or one of these clauses. -/
inductive Follows (nexts : List Clause) : List Char → Prop
  | nothing : Follows nexts []
  | semicolon : Follows nexts [';']
  | clause {next : Clause} (member : next ∈ nexts) (body : List Char) : Follows nexts (next.write body)

theorem Follows.mono {nexts others : List Clause} (subset : nexts ⊆ others) {rest : List Char}
    (follows : Follows nexts rest) : Follows others rest := by
  cases follows with
  | nothing => exact .nothing
  | semicolon => exact .semicolon
  | clause member body => exact .clause (subset member) body

theorem Follows.stop {nexts : List Clause} {rest : List Char} (follows : Follows nexts rest) :
    Text.Stops Text.isWord rest := by
  cases follows with
  | nothing => exact Text.stops_nil _
  | semicolon => exact (Text.stops_cons ..).mpr (by decide)
  | clause member body => exact Text.stops_isWord_space _

theorem Follows.closed_words {clause : Clause} (member : clause ∈ sequence) {rest : List Char}
    (follows : Follows sequence rest) : Text.Closed clause.words? rest := by
  refine Clause.closed_words member follows.stop ?_
  cases follows with
  | nothing => rfl
  | semicolon => rfl
  | @clause next member' body =>
    simp only [sequence, List.mem_cons, List.not_mem_nil, or_false] at member'
    rcases member' with rfl | rfl | rfl | rfl | rfl | rfl <;> rfl

/-- The first word of a clause is in no other clause's words. -/
theorem exists_keyword : ∀ clause ∈ sequence, ∃ keyword ∈ clause.phrase.head?,
    ∀ other ∈ sequence, other ≠ clause → Text.hasWholeKeyword keyword other.letters = false := by
  decide +kernel

theorem words?_of_not_isWord {clause : Clause} (member : clause ∈ sequence) {c : Char}
    (other : Text.isWord c = false) (s : List Char) : clause.words? (c :: s) = none := by
  obtain ⟨keyword, first, _⟩ := exists_keyword clause member
  obtain ⟨keywords, phrase⟩ := List.head?_eq_some_iff.mp (Option.mem_def.mp first)
  apply (seeks_words phrase).eq_none
  rw [Text.skipWholeKeyword?_of_not_isWord keyword other]
  rfl

/-- A text without the first word of a clause is passed over. -/
theorem findWord?_lacking {clause : Clause} {keyword : Text.Keyword} (first : keyword ∈ clause.phrase.head?)
    {read : List Char → Option α} (seeks : Text.Seeks clause.words? read) {s : List Char}
    (lacks : Text.hasWholeKeyword keyword s = false) {rest : List Char} (stop : Text.Stops Text.isWord rest) :
    Text.findWord? read false (s ++ rest) = Text.findWord? read false rest := by
  obtain ⟨keywords, phrase⟩ := List.head?_eq_some_iff.mp (Option.mem_def.mp first)
  have seeks' : Text.Seeks (Text.skipWholeKeyword? keyword) read :=
    fun t found => seeks_words phrase t (seeks t found)
  exact seeks'.findWord?_append (Text.closed_keyword keyword stop) lacks

/-- Another clause is passed over, where its body does not hold the words sought. -/
theorem findWord?_write_other {clause other : Clause} (member : clause ∈ sequence) (member' : other ∈ sequence)
    (apart : other ≠ clause) {read : List Char → Option α} (seeks : Text.Seeks clause.words? read)
    {body : List Char} (free : clause.occursIn body = false) {rest : List Char} (follows : Follows sequence rest) :
    Text.findWord? read false (other.write body ++ rest) = Text.findWord? read false rest := by
  obtain ⟨keyword, first, others⟩ := exists_keyword clause member
  have words : Text.hasWholeKeyword keyword (' ' :: other.letters) = false := by
    rw [Text.hasWholeKeyword_cons keyword (by decide)]
    exact others other member' apart
  have stop : Text.Stops Text.isWord (' ' :: body ++ rest) := Text.stops_isWord_space _
  have parts : other.write body ++ rest = (' ' :: other.letters) ++ (' ' :: body ++ rest) := by simp [write]
  have blank : clause.words? (' ' :: body) = none := words?_of_not_isWord member (by decide) body
  have free' : (Text.findWord? clause.words? false (' ' :: body)).isSome = false := by
    rw [Text.findWord?_cons, if_neg (by decide), blank, Option.none_or]
    exact free
  rw [parts, findWord?_lacking first seeks words stop]
  exact seeks.findWord?_append (follows.closed_words member) free'

theorem letters_ne_nil : ∀ clause ∈ sequence, clause.letters ≠ [] := by decide

/-- The clause itself is found. -/
theorem findWord?_write {clause : Clause} (member : clause ∈ sequence) {read : List Char → Option α}
    (seeks : Text.Seeks clause.words? read) {s : List Char} {a : α}
    (found : read (clause.letters ++ ' ' :: s) = some a) :
    Text.findWord? read false (clause.write s) = some a := by
  have blank : read (' ' :: (clause.letters ++ ' ' :: s)) = none := by
    apply seeks.eq_none
    rw [words?_of_not_isWord member (by decide)]
    rfl
  rw [write, Text.findWord?_cons, if_neg (by decide), blank, Option.none_or]
  obtain ⟨c, letters, same⟩ := List.exists_cons_of_ne_nil (letters_ne_nil clause member)
  have word : Text.isWord ' ' = false := by decide
  rw [same, List.cons_append] at found ⊢
  rw [Text.findWord?_cons, word, if_neg (by decide), found, Option.some_or]

theorem stops_letters : ∀ clause ∈ sequence, Text.Stops Text.isBlank clause.letters := by decide

theorem skipPhrase?_letters {clause : Clause} (member : clause ∈ sequence) (s : List Char) :
    Text.skipPhrase? clause.phrase (clause.letters ++ ' ' :: s) = some (' ' :: s) := by
  simp only [sequence, List.mem_cons, List.not_mem_nil, or_false] at member
  rcases member with rfl | rfl | rfl | rfl | rfl | rfl <;> rfl

theorem opening?_letters {clause : Clause} (member : clause ∈ sequence) {s : List Char}
    (start : Text.Stops Text.isBlank s) : clause.opening? (clause.letters ++ ' ' :: s) = some s := by
  rw [opening?, skipPhrase?_letters member, Option.bind_some, Text.skipBlanks?_space start]

theorem seeks_word (clause : Clause) : Text.Seeks clause.words? fun s => (clause.opening? s).bind fun rest =>
    let word := rest.takeWhile fun c => !Text.isBlank c && c ≠ ';'
    if word.isEmpty then none else some word := by
  intro s found
  apply seeks_opening clause s
  cases opened : clause.opening? s with
  | none => simp [opened] at found
  | some later => rfl

/-- The word behind a clause is read up to a blank or a semicolon. -/
theorem word?_write {clause : Clause} (member : clause ∈ sequence) {word : List Char} (nonempty : word ≠ [])
    (plain : ∀ c ∈ word, (!Text.isBlank c && c ≠ ';') = true) {rest : List Char} (follows : Follows sequence rest) :
    clause.word? (clause.write (word ++ rest)) = some word := by
  have start : Text.Stops Text.isBlank (word ++ rest) := by
    refine Text.stops_append nonempty (Text.stops_of_forall fun c inside => ?_) rest
    have solid := plain c inside
    simp only [Bool.and_eq_true, Bool.not_eq_true'] at solid
    exact solid.1
  have stop : Text.Stops (fun c => !Text.isBlank c && c ≠ ';') rest := by
    cases follows with
    | nothing => exact Text.stops_nil _
    | semicolon => exact (Text.stops_cons ..).mpr (by decide)
    | clause member body => exact (Text.stops_cons ..).mpr (by decide)
  refine findWord?_write member (seeks_word clause) ?_
  rw [opening?_letters member start, Option.bind_some]
  dsimp only
  rw [Text.takeWhile_run plain stop]
  simp [nonempty]

/-- A text that can be the body of a clause: with solid ends, no semicolon at its end, and
no words of another clause. -/
structure IsBody (clause : Clause) (body : List Char) : Prop where
  nonempty : body ≠ []
  start : Text.Stops Text.isBlank body
  finish : Text.Stops (fun c => Text.isBlank c || c == ';') body.reverse
  free : ∀ other ∈ sequence, other ≠ clause → other.occursIn body = false

/-- A text with a character that is neither blank nor a semicolon is no tail. -/
theorem isTail_of_mem {s : List Char} {c : Char} (member : c ∈ s) (solid : Text.isBlank c = false) (other : c ≠ ';') :
    isTail s = false := by
  have unfinished {t : List Char} (inside : c ∈ t) : t.all Text.isBlank = false :=
    List.all_eq_false.mpr ⟨c, inside, by simp [solid]⟩
  unfold isTail
  split
  next rest => exact unfinished ((List.mem_cons.mp member).resolve_left other)
  next => exact unfinished member

theorem isTail_eq_false {s : List Char} (nonempty : s ≠ [])
    (finish : Text.Stops (fun c => Text.isBlank c || c == ';') s.reverse) (rest : List Char) :
    isTail (s ++ rest) = false := by
  obtain ⟨front, last, rfl⟩ := (List.eq_nil_or_concat s).resolve_left nonempty
  rw [List.concat_eq_append] at finish ⊢
  rw [List.reverse_append] at finish
  have solid := (Text.stops_cons ..).mp finish
  rw [Bool.or_eq_false_iff, beq_eq_false_iff_ne] at solid
  exact isTail_of_mem (by simp) solid.1 solid.2

theorem startsAfterBlanks_eq_false {clause : Clause} (member : clause ∈ sequence) {afterWord : Bool}
    {s : List Char} (absent : (Text.findWord? clause.words? afterWord s).isSome = false) (nonempty : s ≠ [])
    (finish : Text.Stops Text.isBlank s.reverse) {rest : List Char} (follows : Follows sequence rest) :
    clause.startsAfterBlanks (s ++ rest) = false := by
  cases s with
  | nil => exact absurd rfl nonempty
  | cons c s =>
    rw [startsAfterBlanks, List.cons_append, Text.skipBlanks?]
    split
    next blank =>
      rw [Text.findWord?_cons, Option.isSome_or, Bool.or_eq_false_iff, Text.isWord_of_isBlank blank] at absent
      have some : s ≠ [] := by
        rintro rfl
        rw [(Text.stops_cons Text.isBlank c []).mp finish] at blank
        cases blank
      have closed := follows.closed_words member
      have within := closed.within (Text.trimStart s)
      rw [Text.isSome_trimStart closed.nothing absent.2, words?, Option.isSome_filter,
        ← Text.trimStart_append_of_finish some (Text.stops_reverse_of_cons finish)] at within
      exact within
    · rfl

theorem later_subset : ∀ clause : Clause, ∀ next ∈ clause.later, next ∈ sequence ∧ next ≠ clause := by
  intro clause
  cases clause <;> decide

theorem startsAfterBlanks_write {clause : Clause} (member : clause ∈ sequence) (body : List Char) :
    clause.startsAfterBlanks (clause.write body) = true := by
  have start : Text.Stops Text.isBlank (clause.letters ++ ' ' :: body) :=
    Text.stops_append (letters_ne_nil clause member) (stops_letters clause member) _
  rw [startsAfterBlanks, write, Text.skipBlanks?_space start, Option.bind_some, skipPhrase?_letters member]
  rfl

theorem takeBody_rest {clause : Clause} {rest : List Char} (follows : Follows clause.later rest) :
    takeBody clause.later rest = [] := by
  cases follows with
  | nothing => rfl
  | semicolon => rfl
  | @clause next member body =>
    have stop : clause.later.any (·.startsAfterBlanks (next.write body)) = true := by
      apply List.any_eq_true.mpr
      exact ⟨next, member, startsAfterBlanks_write (later_subset clause next member).1 body⟩
    rw [write, takeBody, if_pos]
    rw [write] at stop
    rw [stop, Bool.or_true]

/-- The body of a clause ends where the next clause starts. -/
theorem takeBody_append {clause : Clause} {body rest : List Char} {afterWord : Bool}
    (finish : Text.Stops (fun c => Text.isBlank c || c == ';') body.reverse)
    (absent : ∀ next ∈ clause.later, (Text.findWord? next.words? afterWord body).isSome = false)
    (follows : Follows clause.later rest) : takeBody clause.later (body ++ rest) = body := by
  have follows' : Follows sequence rest := follows.mono fun next member => (later_subset clause next member).1
  induction body generalizing afterWord with
  | nil => exact takeBody_rest follows
  | cons c body ih =>
    have solid : Text.Stops Text.isBlank (c :: body).reverse := (Text.stops_or.mp finish).1
    have unfinished : isTail (c :: body ++ rest) = false := isTail_eq_false (List.cons_ne_nil c body) finish rest
    have stops : clause.later.any (·.startsAfterBlanks (c :: body ++ rest)) = false := by
      rw [List.any_eq_false]
      intro next member
      rw [startsAfterBlanks_eq_false (later_subset clause next member).1 (absent next member)
        (List.cons_ne_nil c body) solid follows']
      decide
    rw [List.cons_append] at unfinished stops ⊢
    rw [takeBody, unfinished, stops, Bool.or_false, if_neg (by decide)]
    have remaining : ∀ next ∈ clause.later,
        (Text.findWord? next.words? (Text.isWord c) body).isSome = false := by
      intro next member
      have here := absent next member
      rw [Text.findWord?_cons, Option.isSome_or, Bool.or_eq_false_iff] at here
      exact here.2
    exact congrArg (c :: ·) (ih (Text.stops_reverse_of_cons finish) remaining)

theorem trimBody_eq_self {body : List Char} (start : Text.Stops Text.isBlank body)
    (finish : Text.Stops (fun c => Text.isBlank c || c == ';') body.reverse) : trimBody body = body := by
  have solid : Text.Stops Text.isBlank body.reverse := (Text.stops_or.mp finish).1
  have other : Text.Stops (· = ';') body.reverse := (Text.stops_or.mp finish).2
  rw [trimBody, Text.trim_eq_self start solid, Text.dropWhile_stops other, List.reverse_reverse, Text.trimEnd,
    Text.dropWhile_stops solid, List.reverse_reverse]

/-- Each of these clauses that has a body, in writing. -/
def writeAll (body : Clause → Option (List Char)) (clauses : List Clause) : List Char :=
  clauses.flatMap fun clause => ((body clause).map clause.write).getD []

theorem writeAll_cons (body : Clause → Option (List Char)) (clause : Clause) (clauses : List Clause) :
    writeAll body (clause :: clauses) =
      ((body clause).map clause.write).getD [] ++ writeAll body clauses := List.flatMap_cons

theorem writeAll_append (body : Clause → Option (List Char)) (first second : List Clause) :
    writeAll body (first ++ second) = writeAll body first ++ writeAll body second := List.flatMap_append

/-- Where a clause has its place. -/
theorem exists_place : ∀ clause ∈ sequence, ∃ before after, sequence = before ++ clause :: after ∧
    clause ∉ before ∧ clause ∉ after ∧ (clause.later ≠ [] → after = clause.later) := by
  intro clause member
  simp only [sequence, List.mem_cons, List.not_mem_nil, or_false] at member
  rcases member with rfl | rfl | rfl | rfl | rfl | rfl
  · exact ⟨[], _, rfl, by decide⟩
  · exact ⟨[filter], _, rfl, by decide⟩
  · exact ⟨[filter, group], _, rfl, by decide⟩
  · exact ⟨[filter, group, having], _, rfl, by decide⟩
  · exact ⟨[filter, group, having, order], _, rfl, by decide⟩
  · exact ⟨[filter, group, having, order, limit], _, rfl, by decide⟩

variable {body : Clause → Option (List Char)}

theorem follows_writeAll (clauses : List Clause) {nexts : List Clause} {rest : List Char}
    (follows : Follows nexts rest) : Follows (clauses ++ nexts) (writeAll body clauses ++ rest) := by
  induction clauses with
  | nil => exact follows
  | cons clause clauses ih =>
    rw [writeAll_cons]
    cases body clause with
    | none => exact ih.mono (List.subset_cons_self clause _)
    | some b =>
      have written : Follows (clause :: clauses ++ nexts) _ :=
        .clause List.mem_cons_self (b ++ (writeAll body clauses ++ rest))
      simpa [write] using written

theorem findWord?_tail {clause : Clause} (member : clause ∈ sequence) {read : List Char → Option α}
    (seeks : Text.Seeks clause.words? read) {tail : List Char} (ends : Follows [] tail) :
    Text.findWord? read false tail = none := by
  cases ends with
  | nothing => rfl
  | semicolon =>
    have absent : read [';'] = none := by
      apply seeks.eq_none
      rw [words?_of_not_isWord member (by decide)]
      rfl
    rw [Text.findWord?_cons, absent]
    rfl
  | clause inside body => cases inside

section

variable (bodies : ∀ clause ∈ sequence, ∀ b ∈ body clause, clause.IsBody b)

include bodies

/-- Other clauses are passed over. -/
theorem findWord?_writeAll {clause : Clause} (member : clause ∈ sequence) {clauses : List Clause}
    (subset : clauses ⊆ sequence) (apart : clause ∉ clauses) {read : List Char → Option α}
    (seeks : Text.Seeks clause.words? read) {rest : List Char} (follows : Follows sequence rest) :
    Text.findWord? read false (writeAll body clauses ++ rest) = Text.findWord? read false rest := by
  induction clauses with
  | nil => rfl
  | cons other clauses ih =>
    have subset' : clauses ⊆ sequence := fun next inside => subset (List.mem_cons_of_mem _ inside)
    have later := ih subset' fun inside => apart (List.mem_cons_of_mem _ inside)
    have member' : other ∈ sequence := subset List.mem_cons_self
    have apart' : other ≠ clause := fun same => apart (by simp [same])
    have follows' : Follows sequence (writeAll body clauses ++ rest) :=
      (follows_writeAll clauses follows).mono (List.append_subset.mpr ⟨subset', List.Subset.refl _⟩)
    rw [writeAll_cons, ← later]
    cases written : body other with
    | none => rfl
    | some b =>
      have free := (bodies other member' b written).free clause member (Ne.symm apart')
      have passed := findWord?_write_other member member' apart' seeks free follows'
      simpa using passed

variable {front : List Char} {tail : List Char} (ends : Follows [] tail)
  (lacks : ∀ clause ∈ sequence, ∀ keyword ∈ clause.phrase.head?, Text.hasWholeKeyword keyword front = false)

include ends lacks

/-- What seeks a clause finds it where it is written. -/
theorem exists_findWord? {clause : Clause} (member : clause ∈ sequence) {read : List Char → Option α}
    (seeks : Text.Seeks clause.words? read) :
    match body clause with
    | none => Text.findWord? read false (front ++ (writeAll body sequence ++ tail)) = none
    | some b => ∃ nexts rest, Follows nexts rest ∧ nexts ⊆ sequence ∧ (clause.later ≠ [] → nexts = clause.later) ∧
        Text.findWord? read false (front ++ (writeAll body sequence ++ tail)) =
          Text.findWord? read false (clause.write (b ++ rest)) := by
  obtain ⟨before, after, place, absent, absent', later⟩ := exists_place clause member
  have subset : before ⊆ sequence ∧ after ⊆ sequence := by
    rw [place]
    exact ⟨by simp, fun next inside => by simp [inside]⟩
  obtain ⟨keyword, first, _⟩ := exists_keyword clause member
  have follows {nexts : List Clause} (subset : nexts ⊆ sequence) :
      Follows sequence (writeAll body nexts ++ tail) :=
    (follows_writeAll nexts ends).mono (by simpa using subset)
  have passed : Text.findWord? read false (front ++ (writeAll body sequence ++ tail)) =
      Text.findWord? read false (((body clause).map clause.write).getD [] ++ (writeAll body after ++ tail)) := by
    have whole : clause :: after ⊆ sequence := List.cons_subset.mpr ⟨member, subset.2⟩
    have ahead := findWord?_writeAll bodies member subset.1 absent seeks (follows whole)
    rw [findWord?_lacking first seeks (lacks clause member keyword first) (follows (List.Subset.refl _)).stop]
    rw [writeAll_cons, List.append_assoc] at ahead
    rw [← ahead, ← List.append_assoc, ← List.append_assoc, List.append_assoc (writeAll body before), ← writeAll_cons,
      ← writeAll_append, ← place]
  rw [passed]
  cases body clause with
  | none =>
    have follows' : Follows sequence tail := ends.mono (List.nil_subset _)
    have nothing := findWord?_tail member seeks ends
    exact (findWord?_writeAll bodies member subset.2 absent' seeks follows').trans nothing
  | some b =>
    refine ⟨after, writeAll body after ++ tail, ?_, subset.2, later, ?_⟩
    · simpa using follows_writeAll after ends
    · simp [write]

/-- The body of a clause is read where the clause is written, and only there. -/
theorem body?_writeAll {clause : Clause} (member : clause ∈ sequence) (long : clause.later ≠ []) :
    clause.body? (front ++ (writeAll body sequence ++ tail)) = body clause := by
  have found := exists_findWord? bodies ends lacks member (seeks_opening clause)
  rw [body?]
  cases written : body clause with
  | none =>
    rw [written] at found
    rw [found]
    rfl
  | some b =>
    rw [written] at found
    obtain ⟨nexts, rest, follows, subset, later, found⟩ := found
    have isBody := bodies clause member b written
    have start := Text.stops_append isBody.nonempty isBody.start rest
    have absent : ∀ next ∈ clause.later, (Text.findWord? next.words? false b).isSome = false := by
      intro next inside
      obtain ⟨member', apart⟩ := later_subset clause next inside
      exact isBody.free next member' apart
    rw [later long] at follows
    rw [found, findWord?_write member (seeks_opening clause) (opening?_letters member start), Option.map_some,
      takeBody_append isBody.finish absent follows, trimBody_eq_self isBody.start isBody.finish]

/-- A word behind a clause is read where the clause is written, and only there. -/
theorem word?_writeAll {clause : Clause} (member : clause ∈ sequence)
    (plain : ∀ b ∈ body clause, ∀ c ∈ b, (!Text.isBlank c && c ≠ ';') = true) :
    clause.word? (front ++ (writeAll body sequence ++ tail)) = body clause := by
  have found := exists_findWord? bodies ends lacks member (seeks_word clause)
  rw [word?]
  cases written : body clause with
  | none =>
    rw [written] at found
    exact found
  | some b =>
    rw [written] at found
    obtain ⟨nexts, rest, follows, subset, later, found⟩ := found
    rw [found]
    exact word?_write member (bodies clause member b written).nonempty (plain b written) (follows.mono subset)

end

end RecordQuery.Clause
