import RecordQuery.Proofs.Text.Pieces

/-! Normal form. It is made of fields joined by a comma and a space, and no field has a
comma, a blank at an end, or any white space but single spaces. -/
namespace RecordQuery.Text

/-- All white space is single spaces. -/
def IsSpaced : List Char → Prop
  | [] => True
  | c :: cs => (isBlank c = true → c = ' ' ∧ Stops isBlank cs) ∧ IsSpaced cs

instance : (s : List Char) → Decidable (IsSpaced s)
  | [] => isTrue trivial
  | _ :: cs =>
    have := instDecidableIsSpaced cs
    inferInstanceAs (Decidable ((_ → _ ∧ _) ∧ _))

theorem isSpaced_of_solid {s : List Char} (solid : ∀ c ∈ s, isBlank c = false) : IsSpaced s := by
  induction s with
  | nil => trivial
  | cons c s ih =>
    refine ⟨fun blank => ?_, ih fun d member => solid d (List.mem_cons_of_mem _ member)⟩
    rw [solid c List.mem_cons_self] at blank
    cases blank

theorem IsSpaced.append {s t : List Char} (spaced : IsSpaced s) (spaced' : IsSpaced t)
    (ends : Stops isBlank s.reverse ∨ Stops isBlank t) : IsSpaced (s ++ t) := by
  induction s with
  | nil => exact spaced'
  | cons c s ih =>
    rw [List.reverse_cons] at ends
    refine ⟨fun blank => ⟨(spaced.1 blank).1, ?_⟩, ih spaced.2 (ends.imp_left stops_of_append)⟩
    cases s with
    | nil =>
      refine ends.resolve_left fun finish => ?_
      rw [(stops_cons isBlank c []).mp finish] at blank
      cases blank
    | cons d s => exact stops_append (List.cons_ne_nil d s) (spaced.1 blank).2 t

theorem IsSpaced.left {s t : List Char} (spaced : IsSpaced (s ++ t)) : IsSpaced s := by
  induction s with
  | nil => trivial
  | cons c s ih => exact ⟨fun blank => ⟨(spaced.1 blank).1, stops_of_append (spaced.1 blank).2⟩, ih spaced.2⟩

theorem IsSpaced.right {s t : List Char} (spaced : IsSpaced (s ++ t)) : IsSpaced t := by
  induction s with
  | nil => exact spaced
  | cons c s ih => exact ih spaced.2

theorem IsSpaced.oneLine {s : List Char} (spaced : IsSpaced s) : '\n' ∉ s := by
  induction s with
  | nil => simp
  | cons c s ih =>
    intro member
    rcases List.mem_cons.mp member with rfl | member
    · exact absurd (spaced.1 (by decide)).1 (by decide)
    · exact ih spaced.2 member

theorem collapse_of_isSpaced {s : List Char} (spaced : IsSpaced s) : collapse s = s := by
  induction s with
  | nil => rfl
  | cons c s ih =>
    rw [collapse, ih spaced.2]
    split
    next blank =>
      obtain ⟨rfl, start⟩ := spaced.1 blank
      cases s with
      | nil => rfl
      | cons d s => simp [(stops_cons isBlank d s).mp start]
    next => rfl

theorem stops_collapse {s : List Char} (start : Stops isBlank s) : Stops isBlank (collapse s) := by
  cases s with
  | nil => exact start
  | cons c s =>
    have solid := (stops_cons isBlank c s).mp start
    rw [collapse, if_neg (by simp [solid])]
    exact (stops_cons ..).mpr solid

theorem isSpaced_collapse (s : List Char) : IsSpaced (collapse s) := by
  induction s with
  | nil => trivial
  | cons c s ih =>
    rw [collapse]
    split
    · split
      · exact ih
      next last =>
        refine ⟨fun _ => ⟨rfl, stops_collapse ?_⟩, ih⟩
        intro d member
        rw [Option.mem_def.mp member] at last
        simpa using last
    next solid => exact ⟨fun blank => absurd blank solid, ih⟩

theorem collapse_append_solid (s : List Char) {c : Char} (solid : isBlank c = false) :
    collapse (s ++ [c]) = collapse s ++ [c] := by
  induction s with
  | nil => simp [collapse, solid]
  | cons d s ih =>
    have next : (s ++ [c]).head?.any isBlank = s.head?.any isBlank := by
      cases s <;> simp [solid]
    rw [List.cons_append, collapse, collapse, ih, next]
    split
    · split <;> rfl
    · rfl

theorem stops_trimStart (s : List Char) : Stops isBlank (trimStart s) := by
  intro c member
  have head := List.head?_dropWhile_not isBlank s
  rw [trimStart] at member
  rw [Option.mem_def.mp member] at head
  simpa using head

theorem stops_reverse_trim (s : List Char) : Stops isBlank (trim s).reverse := by
  rw [trim, trimEnd, List.reverse_reverse]
  exact stops_trimStart _

namespace Separator

variable {sep : Separator}

theorem splitFrom_drop (sep : Separator) (pending : Nat) (s : List Char) :
    sep.splitFrom pending s = sep.split (s.drop pending) := by
  induction s generalizing pending with
  | nil => simp [splitFrom, split]
  | cons c s ih =>
    cases pending with
    | zero => rfl
    | succ pending => exact ih pending

/-- The first field goes up to the first separator. -/
theorem exists_first_field (sep : Separator) (s : List Char) :
    ∃ field rest, s = field ++ rest ∧ Quiet sep field rest ∧
      (rest = [] ∧ sep.split s = [field] ∨
        ∃ c r n, rest = c :: r ∧ sep rest = some n ∧ sep.split s = field :: sep.split (r.drop (n - 1))) := by
  induction s with
  | nil => exact ⟨[], [], rfl, trivial, .inl ⟨rfl, rfl⟩⟩
  | cons c s ih =>
    cases here : sep (c :: s) with
    | some n =>
      refine ⟨[], c :: s, rfl, trivial, .inr ⟨c, s, n, rfl, here, ?_⟩⟩
      rw [split, splitFrom, here]
      dsimp only
      rw [splitFrom_drop]
    | none =>
      obtain ⟨field, rest, rfl, quiet, fields⟩ := ih
      have parts : sep.split (c :: (field ++ rest)) = extendFirst c (sep.split (field ++ rest)) := by
        rw [split, splitFrom, here]
        rfl
      refine ⟨c :: field, rest, rfl, ⟨here, quiet⟩, ?_⟩
      rw [parts]
      rcases fields with ⟨rfl, fields⟩ | ⟨d, r, n, rfl, found, fields⟩
      · rw [fields]
        exact .inl ⟨rfl, rfl⟩
      · rw [fields]
        exact .inr ⟨d, r, n, rfl, found, rfl⟩

theorem comma_solid {c : Char} (solid : isBlank c = false) (other : c ≠ ',') (s : List Char) :
    comma (c :: s) = none := by
  rw [comma, trimStart_solid solid]
  split
  next same => exact absurd (List.cons.inj same).1 other
  · rfl

theorem comma_blank {c : Char} (blank : isBlank c = true) (s : List Char) :
    comma (c :: s) = (comma s).map (· + 1) := by
  have skipped : trimStart (c :: s) = trimStart s := List.dropWhile_cons_of_pos blank
  have run : blankRun (c :: s) = blankRun s + 1 := by
    rw [blankRun, List.takeWhile_cons_of_pos blank, List.length_cons, blankRun]
  unfold comma
  rw [skipped, run]
  split
  · rw [Option.map_some, Option.some.injEq]
    omega
  · rfl

theorem drop_blankRun (s : List Char) : s.drop (blankRun s) = trimStart s := by
  have dropped : (s.takeWhile isBlank ++ s.dropWhile isBlank).drop (s.takeWhile isBlank).length =
      s.dropWhile isBlank := List.drop_left
  rwa [List.takeWhile_append_dropWhile] at dropped

/-- What follows a comma starts with no blank. -/
theorem stops_of_comma {c : Char} {s : List Char} {n : Nat} (found : comma (c :: s) = some n) :
    Stops isBlank (s.drop (n - 1)) := by
  unfold comma at found
  split at found
  next rest opened =>
    obtain rfl := Option.some.inj found
    have dropped : (c :: s).drop (blankRun (c :: s) + 1 + blankRun rest) = trimStart rest := by
      rw [← List.drop_drop, ← List.drop_drop, drop_blankRun, opened]
      exact drop_blankRun rest
    have positive : blankRun (c :: s) + 1 + blankRun rest = blankRun (c :: s) + blankRun rest + 1 := by omega
    rw [positive] at dropped ⊢
    rw [Nat.add_sub_cancel, ← List.drop_succ_cons, dropped]
    exact stops_trimStart rest
  · cases found

theorem noComma_of_quiet {s rest : List Char} (quiet : Quiet comma s rest) : ',' ∉ s := by
  induction s with
  | nil => simp
  | cons c s ih =>
    have other : c ≠ ',' := by
      rintro rfl
      have absent := quiet.1
      rw [comma, trimStart, List.dropWhile_cons_of_neg (by decide)] at absent
      cases absent
    simp [Ne.symm other, ih quiet.2]

end Separator

/-- A field of a text in normal form. -/
structure IsField (s : List Char) : Prop where
  noComma : ',' ∉ s
  spaced : IsSpaced s
  start : Stops isBlank s
  finish : Stops isBlank s.reverse

theorem isField_iff {s : List Char} :
    IsField s ↔ ',' ∉ s ∧ IsSpaced s ∧ Stops isBlank s ∧ Stops isBlank s.reverse :=
  ⟨fun ⟨noComma, spaced, start, finish⟩ => ⟨noComma, spaced, start, finish⟩,
    fun ⟨noComma, spaced, start, finish⟩ => ⟨noComma, spaced, start, finish⟩⟩

instance (s : List Char) : Decidable (IsField s) := decidable_of_iff _ isField_iff.symm

theorem IsField.of_solid {s : List Char} (solid : ∀ c ∈ s, isBlank c = false) (noComma : ',' ∉ s) :
    IsField s where
  noComma := noComma
  spaced := isSpaced_of_solid solid
  start := stops_of_forall solid
  finish := stops_reverse_of_forall solid

/-- Two fields with a space between them. -/
theorem IsField.space {s t : List Char} (first : IsField s) (second : IsField t) (nonempty : s ≠ [])
    (nonempty' : t ≠ []) : IsField (s ++ ' ' :: t) where
  noComma := by simp [first.noComma, second.noComma]
  spaced := first.spaced.append ⟨fun _ => ⟨rfl, second.start⟩, second.spaced⟩ (.inl first.finish)
  start := stops_append nonempty first.start _
  finish := by
    rw [List.append_cons]
    exact stops_reverse_append nonempty' second.finish _

/-- No blank stands before a comma. -/
theorem stops_reverse_of_quiet {s rest : List Char} {n : Nat} (quiet : Quiet Separator.comma s rest)
    (found : Separator.comma rest = some n) : Stops isBlank s.reverse := by
  rcases List.eq_nil_or_concat s with rfl | ⟨front, c, rfl⟩
  · simp
  · rw [List.concat_eq_append] at quiet ⊢
    have last := ((quiet_append ..).mp quiet).2.1
    rw [List.reverse_append]
    refine (stops_cons ..).mpr ?_
    rw [Bool.eq_false_iff]
    intro blank
    rw [List.nil_append, Separator.comma_blank blank, found] at last
    cases last

theorem isField_of_split {s : List Char} (spaced : IsSpaced s) (start : Stops isBlank s)
    (finish : Stops isBlank s.reverse) : ∀ field ∈ Separator.comma.split s, IsField field := by
  induction size : s.length using Nat.strongRecOn generalizing s with
  | ind size' ih =>
    obtain ⟨field, rest, rfl, quiet, fields⟩ := Separator.exists_first_field .comma s
    rcases fields with ⟨rfl, fields⟩ | ⟨c, r, n, rfl, found, fields⟩
    · rw [List.append_nil] at spaced start finish
      rw [fields]
      simpa using ⟨Separator.noComma_of_quiet quiet, spaced, start, finish⟩
    · rw [fields]
      intro other member
      rcases List.mem_cons.mp member with rfl | member
      · exact ⟨Separator.noComma_of_quiet quiet, spaced.left, stops_of_append start, stops_reverse_of_quiet quiet found⟩
      · have parts : r = r.take (n - 1) ++ r.drop (n - 1) := (List.take_append_drop ..).symm
        have later := spaced.right.2
        rw [parts] at later
        refine ih (r.drop (n - 1)).length ?_ later.right (Separator.stops_of_comma found) ?_ rfl other member
        · simp at size ⊢
          omega
        · rw [parts] at finish
          exact stops_reverse_of_append (stops_reverse_of_cons (stops_reverse_of_append finish))

/-- A text in normal form. -/
def IsNormal (s : List Char) : Prop :=
  ∃ fields, fields ≠ [] ∧ (∀ field ∈ fields, IsField field) ∧ s = [',', ' '].intercalate fields

theorem stops_trim (s : List Char) : Stops isBlank (trim s) := by
  have parts := List.takeWhile_append_dropWhile (p := isBlank) (l := (trimStart s).reverse)
  have whole : trimStart s = trim s ++ ((trimStart s).reverse.takeWhile isBlank).reverse := by
    rw [trim, trimEnd, ← List.reverse_append, parts, List.reverse_reverse]
  have start := stops_trimStart s
  rw [whole] at start
  exact stops_of_append start

theorem stops_reverse_collapse {s : List Char} (finish : Stops isBlank s.reverse) :
    Stops isBlank (collapse s).reverse := by
  rcases List.eq_nil_or_concat s with rfl | ⟨front, c, rfl⟩
  · exact finish
  · rw [List.concat_eq_append] at finish ⊢
    rw [List.reverse_append] at finish
    have solid := (stops_cons ..).mp finish
    rw [collapse_append_solid front solid, List.reverse_append]
    exact (stops_cons ..).mpr solid

theorem isNormal_normalize (s : List Char) : IsNormal (normalize s) :=
  ⟨_, Separator.split_ne_nil .comma _, isField_of_split (isSpaced_collapse _) (stops_collapse (stops_trim s))
    (stops_reverse_collapse (stops_reverse_trim s)), rfl⟩

theorem quiet_comma {s : List Char} (noComma : ',' ∉ s) (finish : Stops isBlank s.reverse)
    (rest : List Char) : Quiet Separator.comma s rest := by
  induction s with
  | nil => trivial
  | cons c s ih =>
    have later := ih (fun member => noComma (List.mem_cons_of_mem _ member)) (stops_reverse_of_cons finish)
    refine ⟨?_, later⟩
    by_cases blank : isBlank c = true
    · cases s with
      | nil =>
        rw [(stops_cons isBlank c []).mp finish] at blank
        cases blank
      | cons d s =>
        rw [Separator.comma_blank blank, List.cons_append, later.1]
        rfl
    · have other : c ≠ ',' := fun same => noComma (by simp [same])
      exact Separator.comma_solid (Bool.eq_false_iff.mpr blank) other _

/-- A text without commas belongs to the first field. -/
theorem exists_split_comma {s : List Char} (noComma : ',' ∉ s) (finish : Stops isBlank s.reverse) (t : List Char) :
    ∃ field fields, Separator.comma.split (s ++ t) = (s ++ field) :: fields := by
  rw [Separator.split, Separator.splitFrom_of_quiet (quiet_comma noComma finish t)]
  cases later : Separator.comma.splitFrom 0 t with
  | nil => exact absurd later (Separator.splitFrom_ne_nil .comma 0 t)
  | cons field fields => exact ⟨field, fields, rfl⟩

theorem comma_glue {s : List Char} (start : Stops isBlank s) : Separator.comma (',' :: ' ' :: s) = some 2 := by
  have run : blankRun (' ' :: s) = 1 := by
    have inside : ∀ c ∈ [' '], isBlank c = true := by decide
    exact congrArg List.length (takeWhile_run inside start)
  have kept : trimStart (',' :: ' ' :: s) = ',' :: ' ' :: s := trimStart_solid (by decide) _
  simp only [Separator.comma, kept, run]
  rfl

/-- Before a comma or the end a text that starts with no blank may be left out. -/
theorem stops_blank_append {s rest : List Char} (start : Stops isBlank s)
    (shape : rest = [] ∨ [',', ' '] <+: rest) : Stops isBlank (s ++ rest) := by
  cases s with
  | cons c s => exact stops_append (List.cons_ne_nil c s) start rest
  | nil =>
    rcases shape with rfl | ⟨rest, rfl⟩
    · exact start
    · exact (stops_cons ..).mpr (by decide)

theorem split_comma_intercalate {fields : List (List Char)} (nonempty : fields ≠ [])
    (all : ∀ field ∈ fields, IsField field) :
    Separator.comma.split ([',', ' '].intercalate fields) = fields := by
  refine Separator.split_intercalate nonempty ?_ ?_
  · intro field member rest _
    exact quiet_comma (all field member).noComma (all field member).finish rest
  · intro field member rest shape
    have start := stops_blank_append (all field member).start shape
    exact comma_glue (s := field ++ rest) start

theorem isSpaced_intercalate {fields : List (List Char)} (nonempty : fields ≠ [])
    (all : ∀ field ∈ fields, IsField field) :
    IsSpaced ([',', ' '].intercalate fields) ∧ Stops isBlank ([',', ' '].intercalate fields) := by
  have both : ∀ field ∈ fields, IsSpaced field ∧ Stops isBlank field :=
    fun field member => ⟨(all field member).spaced, (all field member).start⟩
  refine intercalate_induction (fun s t first second => ?_) nonempty both
  have glued : IsSpaced ([',', ' '] ++ t) :=
    ⟨fun blank => absurd blank (by decide), fun _ => ⟨rfl, second.2⟩, second.1⟩
  have solid : Stops isBlank ([',', ' '] ++ t) := (stops_cons ..).mpr (by decide)
  exact ⟨first.1.append glued (.inr solid), stops_blank_append first.2 (.inr (List.prefix_append _ _))⟩

/-- A text in normal form with a solid end is its own normal form. -/
theorem IsNormal.normalize_eq {s : List Char} (normal : IsNormal s) (finish : Stops isBlank s.reverse) :
    normalize s = s := by
  obtain ⟨fields, nonempty, all, rfl⟩ := normal
  obtain ⟨spaced, start⟩ := isSpaced_intercalate nonempty all
  rw [normalize, trim_eq_self start finish, collapse_of_isSpaced spaced, split_comma_intercalate nonempty all]

/-- A text in normal form that may stand between spaces. -/
structure IsPassage (s : List Char) : Prop where
  normal : IsNormal s
  nonempty : s ≠ []
  start : s.head? ≠ some ','
  finish : Stops isBlank s.reverse

namespace IsPassage

variable {s t : List Char}

theorem of_field (field : IsField s) (nonempty : s ≠ []) : IsPassage s where
  normal := ⟨[s], by simp, by simpa using field, by simp⟩
  nonempty := nonempty
  start := fun first => field.noComma (List.mem_of_mem_head? first)
  finish := field.finish

theorem keyword (keyword : Keyword) : IsPassage keyword.letters := by
  cases keyword <;> exact of_field (.of_solid (by decide) (by decide)) (by decide)

theorem of_normalize (fixed : normalize s = s) (nonempty : s ≠ []) (start : s.head? ≠ some ',')
    (finish : Stops isBlank s.reverse) : IsPassage s := by
  have normal := isNormal_normalize s
  rw [fixed] at normal
  exact ⟨normal, nonempty, start, finish⟩

theorem solid_start (passage : IsPassage s) : Stops isBlank s := by
  obtain ⟨fields, some, all, rfl⟩ := passage.normal
  exact (isSpaced_intercalate some all).2

theorem exists_last_field (passage : IsPassage s) :
    ∃ front last, last ≠ [] ∧ (∀ field ∈ front ++ [last], IsField field) ∧
      s = [',', ' '].intercalate (front ++ [last]) := by
  obtain ⟨fields, some, all, same⟩ := passage.normal
  obtain ⟨front, last, rfl⟩ := (List.eq_nil_or_concat fields).resolve_left some
  rw [List.concat_eq_append] at all same
  refine ⟨front, last, ?_, all, same⟩
  rintro rfl
  by_cases empty : front = []
  · exact passage.nonempty (by simpa [empty] using same)
  · have finish := passage.finish
    rw [same, intercalate_append empty (by simp), List.intercalate_singleton, List.append_nil,
      List.reverse_append] at finish
    exact absurd ((stops_cons ..).mp finish) (by decide)

theorem exists_first_field (passage : IsPassage s) :
    ∃ first back, first ≠ [] ∧ (∀ field ∈ first :: back, IsField field) ∧
      s = [',', ' '].intercalate (first :: back) := by
  obtain ⟨fields, some, all, same⟩ := passage.normal
  obtain ⟨first, back, rfl⟩ := List.exists_cons_of_ne_nil some
  refine ⟨first, back, ?_, all, same⟩
  rintro rfl
  obtain ⟨rest, joined, rfl | ⟨rest, rfl⟩⟩ := exists_intercalate_cons [',', ' '] [] back
  · exact passage.nonempty (same.trans joined)
  · exact passage.start (by simp [same, joined])

theorem append_start (first : IsPassage s) (rest : List Char) : (s ++ rest).head? ≠ some ',' := by
  obtain ⟨c, s, rfl⟩ := List.exists_cons_of_ne_nil first.nonempty
  exact first.start

theorem append_finish (second : IsPassage t) (front : List Char) : Stops isBlank (front ++ t).reverse :=
  stops_reverse_append second.nonempty second.finish front

/-- The fields that meet at a space become one. -/
theorem space (first : IsPassage s) (second : IsPassage t) : IsPassage (s ++ ' ' :: t) where
  normal := by
    obtain ⟨front, last, nonempty, all, same⟩ := first.exists_last_field
    obtain ⟨next, back, nonempty', all', same'⟩ := second.exists_first_field
    have field : IsField last := all last (by simp)
    have field' : IsField next := all' next List.mem_cons_self
    have middle : IsField (last ++ ([' '] ++ next)) := field.space field' nonempty nonempty'
    refine ⟨front ++ (last ++ ([' '] ++ next)) :: back, by simp, ?_, ?_⟩
    · intro other member
      rcases List.mem_append.mp member with member | member
      · exact all other (List.mem_append_left _ member)
      · rcases List.mem_cons.mp member with rfl | member
        · exact middle
        · exact all' other (List.mem_cons_of_mem _ member)
    · rw [intercalate_append_middle, ← same, ← same']
      rfl
  nonempty := by simp
  start := first.append_start _
  finish := by
    have shape : s ++ ' ' :: t = (s ++ [' ']) ++ t := by simp
    rw [shape]
    exact second.append_finish _

theorem comma (first : IsPassage s) (second : IsPassage t) : IsPassage (s ++ ([',', ' '] ++ t)) where
  normal := by
    obtain ⟨fields, some, all, same⟩ := first.normal
    obtain ⟨fields', some', all', same'⟩ := second.normal
    refine ⟨fields ++ fields', by simp [some], ?_, ?_⟩
    · intro field member
      exact (List.mem_append.mp member).elim (all field) (all' field)
    · rw [intercalate_append some some', ← same, ← same']
  nonempty := by simp
  start := first.append_start _
  finish := by
    rw [← List.append_assoc]
    exact second.append_finish _

theorem intercalate_comma {parts : List (List Char)} (nonempty : parts ≠ [])
    (all : ∀ part ∈ parts, IsPassage part) : IsPassage ([',', ' '].intercalate parts) :=
  intercalate_induction (fun _ _ first second => first.comma second) nonempty all

/-- A mark may stand directly behind a text. -/
theorem append_mark (first : IsPassage s) {mark : Char} (solid : isBlank mark = false) (other : mark ≠ ',') :
    IsPassage (s ++ [mark]) where
  normal := by
    obtain ⟨front, last, nonempty, all, same⟩ := first.exists_last_field
    have field : IsField last := all last (by simp)
    have marked : IsField (last ++ [mark]) := {
      noComma := by simp [field.noComma, Ne.symm other]
      spaced := field.spaced.append ⟨fun blank => absurd blank (by simp [solid]), trivial⟩ (.inl field.finish)
      start := stops_append nonempty field.start _
      finish := by
        rw [List.reverse_append]
        exact (stops_cons ..).mpr solid }
    refine ⟨front ++ [last ++ [mark]], by simp, ?_, ?_⟩
    · intro other member
      rcases List.mem_append.mp member with member | member
      · exact all other (List.mem_append_left _ member)
      · rw [List.mem_singleton.mp member]
        exact marked
    · have joined : [',', ' '].intercalate (front ++ [last ++ ([mark] ++ [])]) = _ :=
        intercalate_append_middle front [] last [mark] []
      rw [List.append_nil, List.intercalate_singleton, List.append_nil, ← same] at joined
      exact joined.symm
  nonempty := by simp
  start := first.append_start _
  finish := by
    rw [List.reverse_append]
    exact (stops_cons ..).mpr solid

end IsPassage
end RecordQuery.Text
