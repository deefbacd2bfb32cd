import RecordQuery.Proofs.Query.Clauses

/-! The words of a clause in any letter case. A clause is sought where they start, and
without anything behind them it is not found. -/
namespace RecordQuery.Clause

/-- The text is the words of the clause, in any letter case. -/
def Spells (clause : Clause) (s : List Char) : Prop := Text.skipPhrase? clause.phrase s = some []

instance (clause : Clause) (s : List Char) : Decidable (clause.Spells s) :=
  inferInstanceAs (Decidable (_ = _))

theorem tail_phrase : ∀ clause ∈ sequence, clause.phrase.tail = [] ∨ clause.phrase.tail = [.by] := by decide

/-- From its first letters on a clause is apart from BY and from each other clause. -/
theorem apart_first : ∀ clause ∈ sequence, ∀ keyword ∈ clause.phrase.head?, keyword.Apart .by ∧
    ∀ other ∈ sequence, other ≠ clause → ∀ first ∈ other.phrase.head?, keyword.Apart first := by
  decide +kernel

theorem words?_of_first {clause : Clause} {first : Text.Keyword} (starts : first ∈ clause.phrase.head?) {s : List Char}
    (absent : Text.skipKeyword? first s = none) : (clause.words? s).isSome = false := by
  obtain ⟨keywords, phrase⟩ := List.head?_eq_some_iff.mp (Option.mem_def.mp starts)
  rw [words?, phrase, Text.skipPhrase?_of_head keywords absent]
  rfl

/-- No clause starts with BY. -/
theorem words?_of_by {clause : Clause} (member : clause ∈ sequence) {s rest : List Char}
    (skip : Text.skipKeyword? .by s = some rest) (t : List Char) : (clause.words? (s ++ t)).isSome = false := by
  obtain ⟨first, starts, _⟩ := exists_keyword clause member
  have apart : Text.Keyword.Apart .by first := (apart_first clause member first starts).1.symm
  exact words?_of_first starts (apart.skipKeyword? skip t)

namespace Spells

variable {clause : Clause} (member : clause ∈ sequence) {words : List Char} (spelled : clause.Spells words)

include member spelled

/-- The first word of a clause is there, and BY where the clause has two words. -/
theorem exists_first : ∃ first ∈ clause.phrase.head?, ∃ rest, Text.skipKeyword? first words = some rest ∧
    (rest = [] ∨ clause.phrase.tail = [.by] ∧ (Text.skipBlanks? rest).bind (Text.skipKeyword? .by) = some []) := by
  obtain ⟨first, starts, _⟩ := exists_keyword clause member
  obtain ⟨keywords, phrase⟩ := List.head?_eq_some_iff.mp (Option.mem_def.mp starts)
  have shape := tail_phrase clause member
  rw [Spells, phrase] at spelled
  rw [phrase] at shape ⊢
  rw [List.tail_cons] at shape
  refine ⟨first, by simp, ?_⟩
  rcases shape with rfl | rfl
  · exact ⟨[], spelled, .inl rfl⟩
  · obtain ⟨rest, skip, later⟩ := Option.bind_eq_some_iff.mp spelled
    exact ⟨rest, skip, .inr ⟨rfl, later⟩⟩

/-- The words of a clause are a word, with blanks and a second one behind it where the clause has two. -/
theorem exists_word : ∃ word rest, words = word ++ rest ∧ word ≠ [] ∧ (∀ c ∈ word, Text.isWord c = true) ∧
    (rest = [] ∨ clause.phrase.tail = [.by] ∧ ∃ gap second, rest = gap ++ second ∧ gap ≠ [] ∧
      (∀ c ∈ gap, Text.isBlank c = true) ∧ Text.skipKeyword? .by second = some []) := by
  obtain ⟨first, starts, rest, skip, shape⟩ := spelled.exists_first member
  obtain ⟨word, same, length, inside⟩ := Text.exists_word_of_skipLetters? (Text.isCapital_letters first) skip
  have nonempty : word ≠ [] := by
    rintro rfl
    revert length
    cases first <;> decide
  refine ⟨word, rest, same, nonempty, inside, shape.imp id fun ⟨two, later⟩ => ⟨two, ?_⟩⟩
  obtain ⟨second, blanks, skip'⟩ := Option.bind_eq_some_iff.mp later
  obtain ⟨gap, parts, gapped, blank⟩ := Text.exists_gap_of_skipBlanks? blanks
  exact ⟨gap, second, parts, gapped, blank, skip'⟩

theorem stops (s : List Char) : Text.Stops Text.isBlank (words ++ s) := by
  obtain ⟨word, rest, rfl, nonempty, inside, _⟩ := spelled.exists_word member
  rw [List.append_assoc]
  exact Text.stops_append nonempty (Text.stops_of_forall fun c found => Text.isBlank_of_isWord (inside c found)) _

theorem skipKeyword?_by (s : List Char) : Text.skipKeyword? .by (words ++ s) = none := by
  obtain ⟨first, starts, rest, skip, _⟩ := spelled.exists_first member
  exact (apart_first clause member first starts).1.skipKeyword? skip s

/-- The words of a clause are those of no other one. -/
theorem words?_other {other : Clause} (member' : other ∈ sequence) (apart : other ≠ clause) (s : List Char) :
    (other.words? (words ++ s)).isSome = false := by
  obtain ⟨first, starts, rest, skip, _⟩ := spelled.exists_first member
  obtain ⟨first', starts', _⟩ := exists_keyword other member'
  have different := (apart_first clause member first starts).2 other member' apart first' starts'
  exact words?_of_first starts' (different.skipKeyword? skip s)

theorem opening? {s : List Char} (start : Text.Stops Text.isBlank s)
    (apart : .by ∈ clause.phrase.tail → Text.skipKeyword? .by s = none) :
    clause.opening? (words ++ ' ' :: s) = some s := by
  have later : ∀ keyword ∈ clause.phrase.tail, Text.skipKeyword? keyword (Text.trimStart (' ' :: s)) = none := by
    intro keyword inside
    have same : keyword = .by := by
      rcases tail_phrase clause member with shape | shape <;> simp_all
    rw [same] at inside ⊢
    rw [Text.trimStart_space start, apart inside]
  have skip : Text.skipPhrase? clause.phrase words = some [] := spelled
  rw [Clause.opening?, Text.skipPhrase?_append (Text.stops_isWord_space s) later, skip]
  exact Text.skipBlanks?_space start

omit member in
theorem opening?_end : clause.opening? words = none := by
  have skip : Text.skipPhrase? clause.phrase words = some [] := spelled
  rw [Clause.opening?, skip]
  rfl

end Spells

section

variable {clause : Clause} (member : clause ∈ sequence) {read : List Char → Option α}
  (seeks : Text.Seeks clause.words? read)

include member seeks

theorem findWord?_blanks {gap : List Char} (gapped : gap ≠ []) (blank : ∀ c ∈ gap, Text.isBlank c = true)
    (afterWord : Bool) (s : List Char) : Text.findWord? read afterWord (gap ++ s) = Text.findWord? read false s := by
  induction gap generalizing afterWord with
  | nil => exact absurd rfl gapped
  | cons c gap ih =>
    have other : Text.isWord c = false := Text.isWord_of_isBlank (blank c List.mem_cons_self)
    have here : read (c :: (gap ++ s)) = none := by
      apply seeks.eq_none
      rw [words?_of_not_isWord member other]
      rfl
    rw [List.cons_append, Text.findWord?_cons, here, ite_self, Option.none_or, other]
    cases gap with
    | nil => rfl
    | cons d gap => exact ih (List.cons_ne_nil d gap) (fun e inside => blank e (List.mem_cons_of_mem _ inside)) false

/-- In the words of any clause the search comes to nothing behind their start. -/
theorem findWord?_of_spells {other : Clause} (member' : other ∈ sequence) {words : List Char}
    (spelled : other.Spells words) : Text.findWord? read false words = read words := by
  obtain ⟨word, rest, rfl, nonempty, inside, shape⟩ := spelled.exists_word member'
  obtain ⟨c, word, rfl⟩ := List.exists_cons_of_ne_nil nonempty
  have ahead : Text.findWord? read true rest = none := by
    rcases shape with rfl | ⟨_, gap, second, rfl, gapped, blank, skip⟩
    · rfl
    · rw [findWord?_blanks member seeks gapped blank]
      obtain ⟨by', same, _, inside'⟩ := Text.exists_word_of_skipLetters? (Text.isCapital_letters .by) skip
      rw [List.append_nil] at same
      subst same
      cases second with
      | nil => rfl
      | cons d second =>
        have here : read (d :: second) = none := by
          have none := words?_of_by member skip []
          rw [List.append_nil] at none
          exact seeks.eq_none none
        have later := Text.findWord?_afterWord read (fun e found => inside' e (List.mem_cons_of_mem d found)) []
        rw [List.append_nil] at later
        rw [Text.findWord?_cons, inside' d List.mem_cons_self, later, here]
        rfl
  have later := Text.findWord?_afterWord read (fun e found => inside e (List.mem_cons_of_mem c found)) rest
  rw [List.cons_append, Text.findWord?_cons, inside c List.mem_cons_self, later, ahead, Option.or_none]
  rfl

variable {front : List Char} (fresh : clause.occursIn front = false)

include fresh

/-- A text that lacks the words sought is passed over. -/
theorem findWord?_behind {s : List Char} (start : Text.Stops Text.isBlank s)
    (apart : Text.skipKeyword? .by s = none) :
    Text.findWord? read false (front ++ ' ' :: s) = Text.findWord? read false s := by
  have closed : Text.Closed clause.words? (' ' :: s) :=
    closed_words member (Text.stops_isWord_space s) (by rw [Text.trimStart_space start, apart])
  rw [seeks.findWord?_append closed fresh]
  exact findWord?_blanks member seeks (List.cons_ne_nil ' ' []) (by decide) false s

variable {words : List Char} (spelled : clause.Spells words)

include spelled

/-- A clause is found where its words stand first. -/
theorem findWord?_spelled {s : List Char} {a : α} (found : read (words ++ s) = some a) :
    Text.findWord? read false (front ++ ' ' :: (words ++ s)) = some a := by
  rw [findWord?_behind member seeks fresh (spelled.stops member s) (spelled.skipKeyword?_by member s)]
  obtain ⟨word, rest, rfl, nonempty, _⟩ := spelled.exists_word member
  obtain ⟨c, word, rfl⟩ := List.exists_cons_of_ne_nil nonempty
  rw [List.cons_append, List.cons_append] at found ⊢
  rw [Text.findWord?_cons, found]
  rfl

theorem findWord?_end (nothing : read words = none) : Text.findWord? read false (front ++ ' ' :: words) = none := by
  have start := spelled.stops member []
  have apart := spelled.skipKeyword?_by member []
  rw [List.append_nil] at start apart
  rw [findWord?_behind member seeks fresh start apart, findWord?_of_spells member seeks member spelled, nothing]

end

section

variable {clause : Clause} (member : clause ∈ sequence) {front : List Char} (fresh : clause.occursIn front = false)
  {words : List Char} (spelled : clause.Spells words)

include member fresh spelled

/-- A clause that is nothing but its words at the end of a text counts as not written. -/
theorem body?_end : clause.body? (front ++ ' ' :: words) = none := by
  rw [body?, findWord?_end member (seeks_opening clause) fresh spelled spelled.opening?_end]
  rfl

theorem word?_end : clause.word? (front ++ ' ' :: words) = none := by
  refine findWord?_end member (seeks_word clause) fresh spelled ?_
  rw [spelled.opening?_end]
  rfl

/-- The word behind a clause is found. -/
theorem exists_word? {c : Char} {s t : List Char} (opened : clause.opening? (words ++ t) = some (c :: s))
    (solid : Text.isBlank c = false) (other : c ≠ ';') :
    ∃ word, clause.word? (front ++ ' ' :: (words ++ t)) = some (c :: word) := by
  have found : clause.word? (front ++ ' ' :: (words ++ t)) =
      some (c :: s.takeWhile fun d => !Text.isBlank d && d ≠ ';') := by
    refine findWord?_spelled member (seeks_word clause) fresh spelled ?_
    simp [opened, solid, other]
  exact ⟨_, found⟩

end
end RecordQuery.Clause
