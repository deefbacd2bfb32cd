/-! Texts that are joined with the same text between them. -/
namespace RecordQuery.Text

variable {glue : List α}

theorem exists_intercalate_cons (glue first : List α) (others : List (List α)) :
    ∃ rest, glue.intercalate (first :: others) = first ++ rest ∧ (rest = [] ∨ glue <+: rest) := by
  cases others with
  | nil => exact ⟨[], by simp, .inl rfl⟩
  | cons next others =>
    refine ⟨glue ++ glue.intercalate (next :: others), ?_, .inr (List.prefix_append _ _)⟩
    rw [List.intercalate_cons_cons, List.append_assoc]

theorem mem_intercalate {parts : List (List α)} {c : α}
    (member : c ∈ glue.intercalate parts) : c ∈ glue ∨ ∃ part ∈ parts, c ∈ part := by
  induction parts with
  | nil => cases member
  | cons part parts ih =>
    cases parts with
    | nil =>
      rw [List.intercalate_singleton] at member
      exact .inr ⟨part, List.mem_cons_self, member⟩
    | cons next parts =>
      rw [List.intercalate_cons_cons, List.mem_append, List.mem_append] at member
      rcases member with (member | member) | member
      · exact .inr ⟨part, List.mem_cons_self, member⟩
      · exact .inl member
      · rcases ih member with member | ⟨other, found, member⟩
        · exact .inl member
        · exact .inr ⟨other, List.mem_cons_of_mem _ found, member⟩

theorem intercalate_append {first second : List (List α)} (nonempty : first ≠ []) (nonempty' : second ≠ []) :
    glue.intercalate (first ++ second) = glue.intercalate first ++ (glue ++ glue.intercalate second) := by
  induction first with
  | nil => exact absurd rfl nonempty
  | cons part first ih =>
    cases first with
    | nil => rw [List.singleton_append, List.intercalate_cons_of_ne_nil nonempty',
        List.intercalate_singleton, List.append_assoc]
    | cons next first =>
      rw [List.cons_append, List.cons_append, List.intercalate_cons_cons, ← List.cons_append, ih (by simp),
        List.intercalate_cons_cons]
      simp

theorem intercalate_cons_append (first rest : List α) (others : List (List α)) :
    glue.intercalate ((first ++ rest) :: others) = first ++ glue.intercalate (rest :: others) := by
  cases others with
  | nil => simp
  | cons next others => simp [List.intercalate_cons_cons]

/-- Two joined texts with a text between them: the parts that meet become one. -/
theorem intercalate_append_middle (front back : List (List α)) (last middle first : List α) :
    glue.intercalate (front ++ (last ++ (middle ++ first)) :: back) =
      glue.intercalate (front ++ [last]) ++ (middle ++ glue.intercalate (first :: back)) := by
  by_cases empty : front = []
  · simp [empty, intercalate_cons_append]
  · rw [intercalate_append empty (by simp), intercalate_append empty (by simp), intercalate_cons_append,
      intercalate_cons_append]
    simp

/-- What holds of the parts and is kept by joining two texts holds of the whole. -/
theorem intercalate_induction {holds : List α → Prop}
    (join : ∀ s t, holds s → holds t → holds (s ++ (glue ++ t))) {parts : List (List α)}
    (nonempty : parts ≠ []) (all : ∀ part ∈ parts, holds part) : holds (glue.intercalate parts) := by
  induction parts with
  | nil => exact absurd rfl nonempty
  | cons part parts ih =>
    have first := all part List.mem_cons_self
    cases parts with
    | nil =>
      rw [List.intercalate_singleton]
      exact first
    | cons next parts =>
      have later := ih (by simp) fun other member => all other (List.mem_cons_of_mem _ member)
      rw [List.intercalate_cons_cons, List.append_assoc]
      exact join _ _ first later

end RecordQuery.Text
