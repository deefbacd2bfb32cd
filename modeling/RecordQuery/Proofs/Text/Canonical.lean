import RecordQuery.Proofs.Text.FieldLists

/-! What a text in normal form looks like. Single spaces are its only white space, one of them
behind each comma, and the other characters are those of the text that was given. A text in normal
form stays as it is. -/
namespace RecordQuery.Text

theorem normalize_normalize (s : List Char) : normalize (normalize s) = normalize s := by
  rw [normalize_eq_squeeze (normalize s), (isNormal_normalize s).squeeze_trim]

theorem isTidy_normalize (s : List Char) : IsTidy (normalize s) := by
  rw [normalize_eq_squeeze]
  exact isTidy_squeeze (trim s)

/-- One space stands behind a comma, and no blank behind the space. -/
theorem IsTidy.space_of_comma {s front rest : List Char} (tidy : IsTidy s) (parts : s = front ++ ',' :: rest) :
    ∃ more, rest = ' ' :: more ∧ Stops isBlank more := by
  fun_induction IsTidy s generalizing front with
  | case1 => simp at parts
  | case2 s ih =>
    rcases front with _ | ⟨_, _ | ⟨_, front⟩⟩
    · cases parts
      exact ⟨s, rfl, tidy.1⟩
    · cases parts
    · exact ih tidy.2 (List.cons.inj (List.cons.inj parts).2).2
  | case3 => exact tidy.elim
  | case4 c s other ih =>
    cases front with
    | nil => exact absurd (List.cons.inj parts).1 other
    | cons _ front => exact ih tidy.2 (List.cons.inj parts).2

theorem IsSpaced.no_two_spaces {s : List Char} (spaced : IsSpaced s) : ¬ [' ', ' '] <:+: s := by
  rintro ⟨front, rest, rfl⟩
  rw [List.append_assoc] at spaced
  have second := (spaced.right.1 (by decide)).2
  exact absurd ((stops_cons ..).mp second) (by decide)

/-- The characters of a text that are no white space. -/
def solids (s : List Char) : List Char := s.filter fun c => !isBlank c

theorem solids_blank {c : Char} (blank : isBlank c = true) (s : List Char) : solids (c :: s) = solids s :=
  List.filter_cons_of_neg (by simp [blank])

theorem solids_solid {c : Char} (solid : isBlank c = false) (s : List Char) : solids (c :: s) = c :: solids s :=
  List.filter_cons_of_pos (by simp [solid])

theorem solids_reverse (s : List Char) : solids s.reverse = (solids s).reverse := List.filter_reverse ..

theorem solids_trimStart (s : List Char) : solids (trimStart s) = solids s := by
  induction s with
  | nil => rfl
  | cons c s ih =>
    cases blank : isBlank c with
    | true => rw [trimStart, List.dropWhile_cons_of_pos blank, ← trimStart, ih, solids_blank blank]
    | false => rw [trimStart_solid blank]

theorem solids_trim (s : List Char) : solids (trim s) = solids s := by
  rw [trim, trimEnd, ← trimStart, solids_reverse, solids_trimStart, solids_reverse, List.reverse_reverse,
    solids_trimStart]

theorem solids_dropSpace (s : List Char) : solids (dropSpace s) = solids s := by
  unfold dropSpace
  split <;> rfl

theorem solids_squeeze (s : List Char) : solids (squeeze s) = solids s := by
  induction s with
  | nil => rfl
  | cons c s ih =>
    rcases blank_or_comma_or_solid c with blank | rfl | ⟨solid, other⟩
    · rw [squeeze_blank blank, solids_blank blank, ← ih]
      split
      · rfl
      · exact solids_blank (by decide) _
    · have solid : isBlank ',' = false := by decide
      rw [squeeze_comma, solids_solid solid, solids_solid solid, solids_blank (by decide), solids_dropSpace, ih]
    · rw [squeeze_solid solid other, solids_solid solid, solids_solid solid, ih]

/-- The normal form of a text is its own normal form. Its white space is single spaces, of which one
stands behind each comma, and all else is as in the text. -/
theorem normalize_canonical (s : List Char) :
    normalize (normalize s) = normalize s ∧
    (∀ c ∈ normalize s, isBlank c = true → c = ' ') ∧
    ¬ [' ', ' '] <:+: normalize s ∧
    (∀ front rest, normalize s = front ++ ',' :: rest → ∃ more, rest = ' ' :: more ∧ Stops isBlank more) ∧
    solids (normalize s) = solids s := by
  have tidy := isTidy_normalize s
  obtain ⟨fields, nonempty, all, same⟩ := isNormal_normalize s
  have spaced : IsSpaced (normalize s) := by
    rw [same]
    exact (isSpaced_intercalate nonempty all).1
  have kept : solids (normalize s) = solids s := by
    rw [normalize_eq_squeeze, solids_squeeze, solids_trim]
  exact ⟨normalize_normalize s, tidy.eq_space, spaced.no_two_spaces, fun _ _ => tidy.space_of_comma, kept⟩

end RecordQuery.Text
