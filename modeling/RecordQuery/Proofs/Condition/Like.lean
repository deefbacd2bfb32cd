import Mathlib.Data.List.Forall2
import RecordQuery.Condition.Like

/-! What patterns accept. Each piece is taken where it first occurs, which leaves the most of the
text to the pieces behind it, so the search finds a way to cut the text whenever there is one. -/
namespace RecordQuery.Like

variable {piece s rest : List Char} {list : List (List Char)}

theorem skipPiece?_eq_some_iff : skipPiece? piece s = some rest ↔ s = piece ++ rest := by
  induction piece generalizing s with
  | nil => rw [skipPiece?, Option.some_inj, List.nil_append]
  | cons p piece ih =>
    cases s with
    | nil => simp [skipPiece?]
    | cons c s =>
      by_cases same : p = c
      · simp [skipPiece?, same, ih]
      · simp [skipPiece?, same, Ne.symm same]

/-- What is left behind a piece starts behind one of its occurrences. -/
theorem exists_gap_of_skipThrough? (found : skipThrough? piece s = some rest) :
    ∃ gap, s = gap ++ (piece ++ rest) := by
  induction s with
  | nil => exact ⟨[], by rwa [skipThrough?, skipPiece?_eq_some_iff] at found⟩
  | cons c s ih =>
    rw [skipThrough?, Option.or_eq_some_iff] at found
    rcases found with here | ⟨_, later⟩
    · exact ⟨[], by rw [List.nil_append, ← skipPiece?_eq_some_iff, here]⟩
    · obtain ⟨gap, rfl⟩ := ih later
      exact ⟨c :: gap, rfl⟩

/-- The first occurrence leaves no less than any other. -/
theorem exists_skipThrough? {gap : List Char} (occurs : s = gap ++ (piece ++ rest)) :
    ∃ longest, skipThrough? piece s = some longest ∧ rest <:+ longest := by
  induction s generalizing gap with
  | nil =>
    obtain ⟨rfl, rfl, rfl⟩ : gap = [] ∧ piece = [] ∧ rest = [] := by simpa using occurs
    exact ⟨[], rfl, List.suffix_refl _⟩
  | cons c s ih =>
    cases here : skipPiece? piece (c :: s) with
    | some longest =>
      have whole := skipPiece?_eq_some_iff.mp here
      refine ⟨longest, by rw [skipThrough?, here, Option.some_or], ?_⟩
      -- Both are ends of the text, and the other occurrence does not start earlier.
      have left : rest <:+ c :: s := ⟨gap ++ piece, by rw [occurs, List.append_assoc]⟩
      have left' : longest <:+ c :: s := ⟨piece, whole.symm⟩
      refine List.suffix_of_suffix_length_le left left' ?_
      have lengths := congrArg List.length (occurs.symm.trans whole)
      simp only [List.length_append] at lengths
      omega
    | none =>
      cases gap with
      | nil =>
        rw [List.nil_append] at occurs
        rw [skipPiece?_eq_some_iff.mpr occurs] at here
        cases here
      | cons d gap =>
        obtain ⟨longest, found, suffix⟩ := ih (List.cons.inj occurs).2
        exact ⟨longest, by rw [skipThrough?, here, Option.none_or, found], suffix⟩

/-- The text is the pieces in their order with a gap in front of each. -/
def Covers : List (List Char) → List Char → Prop
  | [], s => s = []
  | piece :: list, s => ∃ gap rest, s = gap ++ (piece ++ rest) ∧ Covers list rest

/-- The first gap takes what is added in front. -/
theorem Covers.extend (nonempty : list ≠ []) (covers : Covers list rest) (suffix : rest <:+ s) :
    Covers list s := by
  obtain ⟨piece, list, rfl⟩ := List.exists_cons_of_ne_nil nonempty
  obtain ⟨added, rfl⟩ := suffix
  obtain ⟨gap, rest, rfl, covers⟩ := covers
  exact ⟨added ++ gap, rest, (List.append_assoc ..).symm, covers⟩

theorem fits_iff : fits list s = true ↔ Covers list s := by
  induction list generalizing s with
  | nil => exact List.isEmpty_iff
  | cons piece list ih =>
    cases list with
    | nil =>
      rw [fits, List.isSuffixOf_iff_suffix]
      constructor
      · rintro ⟨gap, rfl⟩
        exact ⟨gap, [], by rw [List.append_nil], rfl⟩
      · rintro ⟨gap, rest, rfl, rfl⟩
        exact ⟨gap, by rw [List.append_nil]⟩
    | cons next list =>
      simp only [fits, Option.any_eq_true, ih]
      constructor
      · rintro ⟨rest, found, covers⟩
        obtain ⟨gap, occurs⟩ := exists_gap_of_skipThrough? found
        exact ⟨gap, rest, occurs, covers⟩
      · rintro ⟨gap, rest, occurs, covers⟩
        obtain ⟨longest, found, suffix⟩ := exists_skipThrough? occurs
        exact ⟨longest, found, covers.extend (List.cons_ne_nil _ _) suffix⟩

/-- The characters of two texts are the same letters, one by one. -/
def SameLetters (s t : List Char) : Prop := List.Forall₂ (fun a b => Text.sameLetter a b = true) s t

theorem sameLetters_iff {s t : List Char} : SameLetters s t ↔ s.map Text.fold = t.map Text.fold := by
  rw [← List.forall₂_eq_eq_eq, List.forall₂_map_left_iff, List.forall₂_map_right_iff, SameLetters]
  simp [Text.sameLetter]

/-- Parts of a text, each behind a gap. -/
def join (parts : List (List Char × List Char)) : List Char := parts.flatMap fun (gap, part) => gap ++ part

/-- The folded text is cut where the text itself can be cut. -/
theorem covers_fold_iff : Covers (list.map (·.map Text.fold)) (s.map Text.fold) ↔
    ∃ parts, s = join parts ∧ List.Forall₂ SameLetters (parts.map Prod.snd) list := by
  induction list generalizing s with
  | nil =>
    constructor
    · intro empty
      exact ⟨[], List.map_eq_nil_iff.mp empty, .nil⟩
    · rintro ⟨parts, rfl, same⟩
      rw [List.map_eq_nil_iff.mp (List.forall₂_nil_right_iff.mp same)]
      rfl
  | cons piece list ih =>
    constructor
    · rintro ⟨_, _, whole, covers⟩
      obtain ⟨gap, tail, rfl, rfl, behind⟩ := List.map_eq_append_iff.mp whole
      obtain ⟨part, rest, rfl, same, rfl⟩ := List.map_eq_append_iff.mp behind
      obtain ⟨parts, rfl, later⟩ := ih.mp covers
      exact ⟨(gap, part) :: parts, by simp [join], .cons (sameLetters_iff.mpr same) later⟩
    · rintro ⟨parts, rfl, same⟩
      obtain ⟨_, _, first, others, cut⟩ := List.forall₂_cons_right_iff.mp same
      obtain ⟨⟨gap, part⟩, parts, rfl, rfl, rfl⟩ := List.map_eq_cons_iff.mp cut
      refine ⟨gap.map Text.fold, (join parts).map Text.fold, ?_, ih.mpr ⟨parts, rfl, others⟩⟩
      show _ = _ ++ (piece.map Text.fold ++ _)
      rw [← sameLetters_iff.mp first]
      simp [join]

theorem notMem_of_mem_splitOn {c : Char} (member : piece ∈ s.splitOn c) : c ∉ piece := by
  induction s generalizing piece with
  | nil =>
    rw [List.splitOn_nil, List.mem_singleton] at member
    rw [member]
    exact List.not_mem_nil
  | cons d s ih =>
    obtain ⟨first, later, cut⟩ := List.exists_cons_of_ne_nil (show s.splitOn c ≠ [] by simp)
    rw [cut] at ih
    rw [List.splitOn, List.splitOnP_cons_eq_if_modifyHead, ← List.splitOn, cut] at member
    split at member
    · rcases List.mem_cons.mp member with rfl | member
      · exact List.not_mem_nil
      · exact ih member
    next other =>
      rcases List.mem_cons.mp member with rfl | member
      · rw [List.mem_cons, not_or]
        exact ⟨fun same => other (beq_iff_eq.mpr same.symm), ih List.mem_cons_self⟩
      · exact ih (List.mem_cons_of_mem _ member)

/-- A pattern is its pieces with percent signs between them. It accepts the texts that start with the
first piece and go on to the end with the others, each behind some gap, where a piece stands for itself
up to the case of its letters. -/
theorem accepts_iff_exists_parts (pattern text : String) :
    ['%'].intercalate (pieces pattern) = pattern.toList ∧ (∀ piece ∈ pieces pattern, '%' ∉ piece) ∧
    (accepts pattern text = true ↔ ∃ first parts, text.toList = first ++ join parts ∧
      List.Forall₂ SameLetters (first :: parts.map Prod.snd) (pieces pattern)) := by
  refine ⟨List.intercalate_splitOn '%', fun piece => notMem_of_mem_splitOn, ?_⟩
  obtain ⟨head, others, cut⟩ := List.exists_cons_of_ne_nil (show pieces pattern ≠ [] by simp [pieces])
  rw [accepts, cut, List.map_cons, acceptsPieces]
  simp only [Option.any_eq_true, skipPiece?_eq_some_iff, fits_iff, List.forall₂_cons]
  constructor
  · rintro ⟨_, whole, covers⟩
    obtain ⟨first, rest, cut, same, rfl⟩ := List.map_eq_append_iff.mp whole
    obtain ⟨parts, rfl, later⟩ := covers_fold_iff.mp covers
    exact ⟨first, parts, cut, sameLetters_iff.mpr same, later⟩
  · rintro ⟨first, parts, whole, same, later⟩
    refine ⟨(join parts).map Text.fold, ?_, covers_fold_iff.mpr ⟨parts, rfl, later⟩⟩
    rw [whole, List.map_append, sameLetters_iff.mp same]

end RecordQuery.Like
