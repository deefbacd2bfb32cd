import RecordQuery.Proofs.Text.Search

/-! Names that are no keyword. No keyword is found in them. -/
namespace RecordQuery.Text

theorem exists_of_skipLetters? {ks s rest : List Char} (skip : skipLetters? ks s = some rest) :
    ∃ front, s = front ++ rest := by
  induction ks generalizing s with
  | nil => exact ⟨[], Option.some.inj skip⟩
  | cons k ks ih =>
    cases s with
    | nil => cases skip
    | cons c s =>
      rw [skipLetters?] at skip
      split at skip
      · obtain ⟨front, rfl⟩ := ih skip
        exact ⟨c :: front, rfl⟩
      · cases skip

/-- A keyword in a word is the whole word. -/
theorem hasWholeKeyword_of_word {keyword : Keyword} {s : List Char} (word : ∀ c ∈ s, isWord c = true)
    (other : skipKeyword? keyword s ≠ some []) : hasWholeKeyword keyword s = false := by
  cases s with
  | nil => rfl
  | cons c s =>
    rw [hasWholeKeyword_word keyword word, skipWholeKeyword?]
    cases skip : skipKeyword? keyword (c :: s) with
    | none => rfl
    | some rest =>
      cases rest with
      | nil => exact absurd skip other
      | cons d rest =>
        obtain ⟨front, same⟩ := exists_of_skipLetters? skip
        have inside : isWord d = true := by
          apply word
          simp [same]
        simp [Option.filter_some, wordEnds, inside]

/-- The keywords that part the text of a query. -/
def reserved : List Keyword :=
  [.select, .distinct, .from, .where, .group, .by, .having, .order, .limit, .offset, .as, .asc, .desc]

/-- A name that is spelled like no reserved word, up to the case of letters. -/
structure IsFreeName (s : String) : Prop where
  name : isName s.toList = true
  free : ∀ keyword ∈ reserved, skipKeyword? keyword s.toList ≠ some []

namespace IsFreeName

variable {s : String}

theorem nonempty (free : IsFreeName s) : s.toList ≠ [] := (isName_iff.mp free.name).1

theorem word (free : IsFreeName s) : ∀ c ∈ s.toList, isWord c = true := (isName_iff.mp free.name).2

theorem solid (free : IsFreeName s) : ∀ c ∈ s.toList, isBlank c = false :=
  solid_of_isName free.name

theorem hasWholeKeyword (free : IsFreeName s) {keyword : Keyword} (member : keyword ∈ reserved) :
    hasWholeKeyword keyword s.toList = false :=
  hasWholeKeyword_of_word free.word (free.free keyword member)

end IsFreeName
end RecordQuery.Text
