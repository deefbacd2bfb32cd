import RecordQuery.Proofs.Query.ReadBack
import RecordQuery.Proofs.Text.FieldLists

/-! Select lists whose items are any texts. The list goes up to FROM where all its parentheses are
closed, and an item that cannot be read is an error of the query. Behind a parenthesis that is left
open FROM is not found, and all columns are shown. -/
namespace RecordQuery

namespace SelectHead

theorem foldl_openAfter_eq (s : List Char) (opened : Int) :
    s.foldl openAfter opened = opened + s.count '(' - s.count ')' := by
  induction s generalizing opened with
  | nil => simp
  | cons c s ih =>
    rw [List.foldl_cons, ih, openAfter, List.count_cons, List.count_cons]
    by_cases left : c = '('
    · simp [left]
      omega
    · by_cases right : c = ')'
      · simp [right]
        omega
      · simp [left, right]

/-- In a text without the word FROM only the parentheses matter. -/
theorem beforeFrom?_lacking {s rest : List Char} {afterWord : Bool}
    (lacks : (Text.findWord? (Text.skipWholeKeyword? .from) afterWord s).isSome = false)
    (finish : Text.Stops Text.isBlank s.reverse) (stop : Text.Stops Text.isWord rest) (opened : Int) :
    beforeFrom? opened (s ++ rest) = (beforeFrom? (s.foldl openAfter opened) rest).map (s ++ ·) := by
  induction s generalizing opened afterWord with
  | nil => simp
  | cons c s ih =>
    rw [Text.findWord?_cons, Option.isSome_or, Bool.or_eq_false_iff] at lacks
    have here : startsFrom (c :: (s ++ rest)) = false := by
      cases blank : Text.isBlank c with
      | false => exact startsFrom_of_solid blank _
      | true =>
        rw [Text.isWord_of_isBlank blank] at lacks
        have skip := Text.skipBlanks?_append_of_finish (List.cons_ne_nil c s) finish rest
        rw [List.cons_append] at skip
        rw [startsFrom, skip, Text.skipBlanks?, if_pos blank, Option.map_some, Option.bind_some,
          Text.isSome_skipWholeKeyword?_append .from _ stop]
        exact Text.isSome_trimStart rfl lacks.2
    rw [List.cons_append, beforeFrom?_cons (by simp [here]), ih lacks.2 (Text.stops_reverse_of_cons finish),
      List.foldl_cons, Option.map_map]
    rfl

/-- Inside parentheses that are left open no FROM is found. -/
theorem beforeFrom?_of_open {s : List Char} {opened : Int} (inside : 0 < opened) (plain : ')' ∉ s) :
    beforeFrom? opened s = none := by
  induction s generalizing opened with
  | nil => rfl
  | cons c s ih =>
    rw [List.mem_cons, not_or] at plain
    have later : 0 < openAfter opened c := by
      rw [openAfter, if_neg (Ne.symm plain.1)]
      split <;> omega
    rw [beforeFrom?_cons (by simp [Int.not_le.mpr inside]), ih later plain.2]
    rfl

end SelectHead

namespace SelectItem

/-- A text that may stand between the commas of a select list. -/
structure IsItemText (text : String) : Prop where
  field : Text.IsField text.toList
  noFrom : Text.hasWholeKeyword .from text.toList = false

theorem isItemText_iff {text : String} : IsItemText text ↔
    Text.IsField text.toList ∧ Text.hasWholeKeyword .from text.toList = false :=
  ⟨fun ⟨field, noFrom⟩ => ⟨field, noFrom⟩, fun ⟨field, noFrom⟩ => ⟨field, noFrom⟩⟩

instance (text : String) : Decidable (IsItemText text) := decidable_of_iff _ isItemText_iff.symm

/-- Whatever is wrong with an item is an error of the select list. -/
theorem clause_of_readLetters_error {s : List Char} {e : ReadError} (failed : readLetters s = .error e) :
    e.clause = .select := by
  have body {body whole : List Char} {label : Option String} (failed : readBody body whole label = .error e) :
      e.clause = .select := by
    unfold readBody at failed
    split at failed
    · cases failed
    · cases failed
    · split at failed
      · split at failed
        · cases failed
          rfl
        · cases failed
      · split at failed
        · cases failed
        · cases failed
          rfl
  unfold readLetters at failed
  dsimp only at failed
  split at failed <;> exact body failed

/-- The texts of a select list, with commas. -/
def listed (items : List String) : List Char := [',', ' '].intercalate (items.map String.toList)

section

variable {items : List String} (nonempty : items ≠ []) (texts : ∀ item ∈ items, IsItemText item)

include nonempty texts

theorem fields_listed : items.map String.toList ≠ [] ∧ ∀ field ∈ items.map String.toList, Text.IsField field := by
  refine ⟨by simpa using nonempty, fun field member => ?_⟩
  obtain ⟨item, found, rfl⟩ := List.mem_map.mp member
  exact (texts item found).field

theorem isNormal_listed : Text.IsNormal (listed items) :=
  ⟨_, (fields_listed nonempty texts).1, (fields_listed nonempty texts).2, rfl⟩

theorem stops_listed : Text.Stops Text.isBlank (listed items) :=
  (Text.isSpaced_intercalate (fields_listed nonempty texts).1 (fields_listed nonempty texts).2).2

theorem noFrom_listed : Text.hasWholeKeyword .from (Text.trim (listed items)) = false := by
  refine Text.hasWholeKeyword_trim (stops_listed nonempty texts) (Text.hasWholeKeyword_intercalate_comma ?_)
  intro part member
  obtain ⟨item, found, rfl⟩ := List.mem_map.mp member
  exact (texts item found).noFrom

/-- A list whose first text is not empty starts with that text. -/
theorem start_listed (first : items.head? ≠ some "") : Text.trim (listed items) ≠ [] ∧
    Text.Stops (fun c => Text.isBlank c || c == ',') (Text.trim (listed items)) := by
  obtain ⟨back, parts, blank⟩ := Text.exists_eq_trim_append (stops_listed nonempty texts)
  obtain ⟨item, items, rfl⟩ := List.exists_cons_of_ne_nil nonempty
  obtain ⟨rest, joined, _⟩ := Text.exists_intercalate_cons [',', ' '] item.toList (items.map String.toList)
  have joined : listed (item :: items) = item.toList ++ rest := joined
  have field := (texts item List.mem_cons_self).field
  have some : item.toList ≠ [] := by simpa using first
  have start : Text.Stops (fun c => Text.isBlank c || c == ',') (listed (item :: items)) := by
    rw [joined]
    refine Text.stops_append some (fun c member => ?_) rest
    have other : c ≠ ',' := by
      rintro rfl
      exact field.noComma (List.mem_of_mem_head? member)
    simp [field.start c member, other]
  rw [parts] at start
  refine ⟨fun empty => ?_, Text.stops_of_append start⟩
  rw [empty, List.nil_append] at parts
  obtain ⟨c, letters, word⟩ := List.exists_cons_of_ne_nil some
  have solid := field.start c (by simp [word])
  rw [blank c (by simp [← parts, joined, word])] at solid
  cases solid

theorem noDistinct_listed
    (distinct : ∀ first ∈ items.head?, (Text.skipWholeKeyword? .distinct first.toList).isSome = false) :
    (Text.skipWholeKeyword? .distinct (Text.trim (listed items))).isSome = false := by
  have word := Text.takeWord_trim (stops_listed nonempty texts)
  obtain ⟨item, items, rfl⟩ := List.exists_cons_of_ne_nil nonempty
  obtain ⟨rest, joined, shape⟩ := Text.exists_intercalate_cons [',', ' '] item.toList (items.map String.toList)
  have joined : listed (item :: items) = item.toList ++ rest := joined
  have stop : Text.Stops Text.isWord rest := by
    rcases shape with rfl | ⟨rest, rfl⟩
    · exact Text.stops_nil _
    · exact (Text.stops_cons ..).mpr (by decide)
  rw [Text.isSome_skipWholeKeyword?_congr .distinct word, joined, Text.isSome_skipWholeKeyword?_append .distinct _ stop]
  exact distinct item rfl

/-- The parentheses left open in front of FROM. -/
theorem foldl_openAfter_listed : (SelectHead.write false ++ Text.trim (listed items)).foldl SelectHead.openAfter 0 =
    (listed items).count '(' - (listed items).count ')' := by
  obtain ⟨back, parts, blank⟩ := Text.exists_eq_trim_append (stops_listed nonempty texts)
  have kept {c : Char} (solid : Text.isBlank c = false) (other : c ∉ SelectHead.write false) :
      (SelectHead.write false ++ Text.trim (listed items)).count c = (listed items).count c := by
    have absent : c ∉ back := fun member => absurd (blank c member) (by simp [solid])
    conv => rhs; rw [parts]
    simp [List.count_eq_zero_of_not_mem other, List.count_eq_zero_of_not_mem absent]
  rw [SelectHead.foldl_openAfter_eq, kept (by decide) (by decide), kept (by decide) (by decide), Int.zero_add]

end

end SelectItem

namespace Query

/-- A query for the items of a list, in writing. -/
def selectText (items : List String) (source : String) : String :=
  "SELECT " ++ ", ".intercalate items ++ " FROM " ++ source

theorem toList_selectText (items : List String) (source : String) : (selectText items source).toList =
    SelectHead.write false ++ (SelectItem.listed items ++ SelectHead.writeFrom source.toList) := by
  simp [selectText, SelectHead.write, SelectHead.writeFrom, SelectItem.listed, String.toList_intercalate,
    Text.Keyword.letters]

section

variable {items : List String} {source : String} (nonempty : items ≠ [])
  (texts : ∀ item ∈ items, SelectItem.IsItemText item) (table : Text.isName source.toList = true)

include table

theorem isPassage_source : Text.IsPassage (Text.Keyword.from.letters ++ ' ' :: source.toList) := by
  obtain ⟨some, word⟩ := Text.isName_iff.mp table
  have solid : ∀ c ∈ source.toList, Text.isBlank c = false := fun c member => Text.isBlank_of_isWord (word c member)
  have noComma : ',' ∉ source.toList := fun member => absurd (word _ member) (by decide)
  exact .space (.keyword .from) (.of_field (.of_solid solid noComma) some)

theorem trim_selectText : Text.trim (selectText items source).toList = (selectText items source).toList := by
  have finish := (isPassage_source table).finish
  have parts : (selectText items source).toList = (SelectHead.write false ++ (SelectItem.listed items ++ [' '])) ++
      (Text.Keyword.from.letters ++ ' ' :: source.toList) := by
    simp [toList_selectText, SelectHead.writeFrom]
  apply Text.trim_eq_self
  · rw [toList_selectText]
    exact (Text.stops_cons ..).mpr (by decide)
  · rw [parts]
    exact Text.stops_reverse_append (isPassage_source table).nonempty finish _

include nonempty texts

/-- Blanks behind the list are one space. -/
theorem normalize_selectText (first : items.head? ≠ some "") : Text.normalize (selectText items source).toList =
    SelectHead.write false ++ (Text.trim (SelectItem.listed items) ++ SelectHead.writeFrom source.toList) := by
  obtain ⟨back, parts, blank⟩ := Text.exists_eq_trim_append (SelectItem.stops_listed nonempty texts)
  obtain ⟨some, start⟩ := SelectItem.start_listed nonempty texts first
  have listSpace := (SelectItem.isNormal_listed nonempty texts).squeeze_trim_space
  have from' := (isPassage_source table).normal.squeeze_eq
  have head : Text.squeeze (SelectHead.write false) = SelectHead.write false := by decide
  let list := Text.trim (SelectItem.listed items)
  calc Text.normalize (selectText items source).toList
      = Text.squeeze ((SelectHead.write false ++ list) ++ (back ++ SelectHead.writeFrom source.toList)) := by
        rw [Text.normalize_eq_squeeze, trim_selectText table, toList_selectText, List.append_assoc, ← List.append_assoc list,
          ← parts]
    _ = Text.squeeze (SelectHead.write false ++ ((list ++ [' ']) ++ (Text.Keyword.from.letters ++ ' ' :: source.toList))) := by
        rw [SelectHead.writeFrom, Text.squeeze_append_blanks blank]
        simp
    _ = SelectHead.write false ++ (list ++ SelectHead.writeFrom source.toList) := by
        rw [Text.squeeze_append_of_stops, Text.squeeze_append_of_stops, head, listSpace, from']
        · simp [SelectHead.writeFrom, list]
        · exact (Text.stops_cons ..).mpr (by decide)
        · rw [List.append_assoc]
          exact Text.stops_append some start _

/-- The items are read one by one, or not at all where a parenthesis is left open. -/
theorem readSelect_selectText (first : items.head? ≠ some "")
    (distinct : ∀ first ∈ items.head?, (Text.skipWholeKeyword? .distinct first.toList).isSome = false) :
    readSelect (Text.normalize (selectText items source).toList) =
      if (SelectItem.listed items).count '(' ≤ (SelectItem.listed items).count ')' then
        (items.mapM SelectItem.read).map (·, false)
      else .ok ([.wildcard], false) := by
  obtain ⟨some, start⟩ := SelectItem.start_listed nonempty texts first
  have solid := Text.stops_trim (SelectItem.listed items)
  have finish := Text.stops_reverse_trim (SelectItem.listed items)
  have stop : Text.Stops Text.isWord (SelectHead.writeFrom source.toList) := Text.stops_isWord_space _
  have head := SelectHead.find?_write false some solid (SelectItem.noDistinct_listed nonempty texts distinct) stop
  have lacks : Text.hasWholeKeyword .from (SelectHead.write false ++ Text.trim (SelectItem.listed items)) = false := by
    have select : Text.hasWholeKeyword .from Text.Keyword.select.letters = false := by decide +kernel
    rw [SelectHead.write, List.append_assoc, List.cons_append, Text.hasWholeKeyword_append .from _ (by decide), select]
    exact SelectItem.noFrom_listed nonempty texts
  have before := SelectHead.beforeFrom?_lacking lacks (Text.stops_reverse_append some finish _) stop 0
  rw [SelectItem.foldl_openAfter_listed nonempty texts, List.append_assoc] at before
  rw [normalize_selectText nonempty texts table first]
  split
  next closed =>
    rw [SelectHead.beforeFrom?_writeFrom (by omega)] at before
    have listed := SelectHead.listText?_of_beforeFrom? false (by simpa using before) (Text.trim_trim _)
    have fields := SelectItem.fields_listed nonempty texts
    rw [readSelect_of_listText? head listed some, SelectItem.listed, Text.split_comma_trim fields.1 fields.2,
      List.mapM_map]
    rfl
  next opened =>
    have plain : ')' ∉ SelectHead.writeFrom source.toList := by
      have word : ')' ∉ source.toList := fun member => absurd ((Text.isName_iff.mp table).2 _ member) (by decide)
      simp [SelectHead.writeFrom, Text.Keyword.letters, word]
    rw [SelectHead.beforeFrom?_of_open (by omega) plain] at before
    have none : SelectHead.listText? ⟨SelectHead.write false ++ (Text.trim (SelectItem.listed items) ++
        SelectHead.writeFrom source.toList), Text.trim (SelectItem.listed items) ++ SelectHead.writeFrom source.toList,
        false⟩ = none := by
      rw [SelectHead.listText?]
      dsimp only
      rw [before]
      rfl
    rw [readSelect, head]
    dsimp only
    rw [none]

omit nonempty texts in
/-- Without any item the list is empty. -/
theorem readSelect_selectText_empty :
    readSelect (Text.normalize (selectText [""] source).toList) = .error .emptySelectList := by
  have later := isPassage_source table
  let rest := Text.Keyword.from.letters ++ ' ' :: source.toList
  have whole : Text.normalize (selectText [""] source).toList = Text.Keyword.select.letters ++ ' ' :: rest := by
    have parts : (selectText [""] source).toList = Text.Keyword.select.letters ++ ([' '] ++ ' ' :: rest) := by
      rw [toList_selectText]
      rfl
    rw [Text.normalize_eq_squeeze, trim_selectText table, parts, Text.squeeze_append_blanks (by decide)]
    exact (Text.IsPassage.space (.keyword .select) later).normal.squeeze_eq
  have head : SelectHead.find? (Text.Keyword.select.letters ++ ' ' :: rest) =
      some ⟨Text.Keyword.select.letters ++ ' ' :: rest, rest, false⟩ := by
    have found := SelectHead.find?_write false later.nonempty later.solid_start rfl (Text.stops_nil _)
    simpa [SelectHead.write, rest] using found
  have before : SelectHead.beforeFrom? 0 (Text.Keyword.select.letters ++ ' ' :: rest) =
      some Text.Keyword.select.letters := by
    have select : Text.Keyword.select.letters.foldl SelectHead.openAfter 0 = 0 := rfl
    have from' : SelectHead.beforeFrom? 0 (' ' :: rest) = some [] :=
      SelectHead.beforeFrom?_writeFrom (Int.le_refl 0) source.toList
    rw [SelectHead.beforeFrom?_solid (by decide), select, from', Option.map_some, List.append_nil]
  have size : (Text.Keyword.select.letters ++ ' ' :: rest).length - rest.length = 7 := by
    rw [List.length_append, List.length_cons]
    have letters : Text.Keyword.select.letters.length = 6 := rfl
    omega
  have listed : SelectHead.listText? ⟨Text.Keyword.select.letters ++ ' ' :: rest, rest, false⟩ = some [] := by
    rw [SelectHead.listText?]
    dsimp only
    rw [before, size]
    rfl
  rw [whole, readSelect, head]
  dsimp only
  rw [listed]

/-- An item that cannot be read is an error of the select list, where each parenthesis of the list is
closed and a list that starts with an empty item has no other one. -/
theorem read_rejected_item {maxLength : Nat} (first : items.head? = some "" → items = [""])
    (distinct : ∀ first ∈ items.head?, (Text.skipWholeKeyword? .distinct first.toList).isSome = false)
    (closed : (SelectItem.listed items).count '(' ≤ (SelectItem.listed items).count ')')
    (rejected : ∃ item ∈ items, ∃ e, SelectItem.read item = .error e)
    (fits : (selectText items source).length ≤ maxLength) :
    ∃ e, read maxLength (selectText items source) = .error e ∧ e.clause = .select := by
  have finish := Text.stops_reverse_trim (selectText items source).toList
  rw [trim_selectText table] at finish
  have accepted : check maxLength (selectText items source).toList = .ok () := by
    have head : (selectText items source).toList = Text.Keyword.select.letters ++ ' ' ::
        (SelectItem.listed items ++ SelectHead.writeFrom source.toList) := toList_selectText items source
    rw [← String.length_toList] at fits
    rw [head] at finish fits ⊢
    exact check_select finish fits
  have failed : ∃ e, readSelect (Text.normalize (selectText items source).toList) = .error e ∧ e.clause = .select := by
    by_cases empty : items.head? = some ""
    · rw [first empty]
      exact ⟨_, readSelect_selectText_empty table, rfl⟩
    · obtain ⟨item, member, e, bad⟩ := rejected
      obtain ⟨other, _, e, bad, rest⟩ := exists_mapM_error member bad
      refine ⟨e, ?_, SelectItem.clause_of_readLetters_error bad⟩
      rw [readSelect_selectText nonempty texts table empty distinct, if_pos closed, rest]
      rfl
  obtain ⟨e, failed, clause⟩ := failed
  refine ⟨e, ?_, clause⟩
  rw [read_of_check accepted, readNormalized, failed]
  rfl

end

/-- A call whose parenthesis is closed in the next item, and no item at the end. -/
theorem read_rejected_item_sum :
    let items := ["region AS from1", "SUM(sales", "b) AS c", ""]
    items ≠ [] ∧ (∀ item ∈ items, SelectItem.IsItemText item) ∧ Text.isName "t".toList = true ∧
      (items.head? = some "" → items = [""]) ∧
      (∀ first ∈ items.head?, (Text.skipWholeKeyword? .distinct first.toList).isSome = false) ∧
      (SelectItem.listed items).count '(' ≤ (SelectItem.listed items).count ')' ∧
      (∃ item ∈ items, ∃ e, SelectItem.read item = .error e) ∧ (selectText items "t").length ≤ 5000 ∧
      ∃ e, read 5000 (selectText items "t") = .error e ∧ e.clause = .select := by
  intro items
  have nonempty : items ≠ [] := by decide
  have texts : ∀ item ∈ items, SelectItem.IsItemText item := by decide +kernel
  have table : Text.isName "t".toList = true := by decide
  have first : items.head? = some "" → items = [""] := by decide
  have distinct : ∀ first ∈ items.head?, (Text.skipWholeKeyword? .distinct first.toList).isSome = false := by
    decide +kernel
  have closed : (SelectItem.listed items).count '(' ≤ (SelectItem.listed items).count ')' := by decide
  have rejected : ∃ item ∈ items, ∃ e, SelectItem.read item = .error e :=
    ⟨"SUM(sales", by decide, Except.exists_error_of_toOption (by decide +kernel)⟩
  have fits : (selectText items "t").length ≤ 5000 := by decide +kernel
  exact ⟨nonempty, texts, table, first, distinct, closed, rejected, fits,
    read_rejected_item nonempty texts table first distinct closed rejected fits⟩

/-- With a parenthesis left open, or without a first item, all columns are shown in place of an item
that cannot be read. -/
theorem read_rejected_item_ne_error :
    (SelectItem.IsItemText "SUM(sales" ∧ (Text.skipWholeKeyword? .distinct "SUM(sales".toList).isSome = false ∧
      (SelectItem.read "SUM(sales").toOption = none ∧ (selectText ["SUM(sales"] "t").length ≤ 5000 ∧
      (read 5000 (selectText ["SUM(sales"] "t")).toOption.any (fun q => decide (q.select = [.wildcard])) = true) ∧
    SelectItem.IsItemText "" ∧ SelectItem.IsItemText "region" ∧
      (Text.skipWholeKeyword? .distinct "".toList).isSome = false ∧ (SelectItem.read "").toOption = none ∧
      (selectText ["", "region"] "t").length ≤ 5000 ∧
      (read 5000 (selectText ["", "region"] "t")).toOption.any (fun q => decide (q.select = [.wildcard])) = true := by
  decide +kernel

end Query
end RecordQuery
