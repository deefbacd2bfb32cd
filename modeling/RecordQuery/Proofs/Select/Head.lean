import RecordQuery.Proofs.Query.Names
import RecordQuery.Proofs.Select.Items

/-! The start of a query text. The select list ends at the first FROM outside parentheses,
so that the FROM inside EXTRACT does not end it. -/
namespace RecordQuery

namespace SelectHead

/-- The select list goes on behind this text. -/
structure PassesFrom (s : List Char) : Prop where
  nonempty : s ≠ []
  start : Text.Stops Text.isBlank s
  absent : (Text.skipWholeKeyword? .from s).isSome = false
  passes : ∀ rest, Text.Stops Text.isWord rest →
    beforeFrom? 0 (s ++ rest) = (beforeFrom? 0 rest).map (s ++ ·)

theorem beforeFrom?_cons {opened : Int} {c : Char} {s : List Char}
    (other : (decide (opened ≤ 0) && startsFrom (c :: s)) = false) :
    beforeFrom? opened (c :: s) = (beforeFrom? (openAfter opened c) s).map (c :: ·) := by
  rw [beforeFrom?, if_neg (by simp [other])]

theorem startsFrom_of_solid {c : Char} (solid : Text.isBlank c = false) (s : List Char) :
    startsFrom (c :: s) = false := by
  simp [startsFrom, Text.skipBlanks?, solid]

theorem startsFrom_space {s : List Char} (start : Text.Stops Text.isBlank s) :
    startsFrom (' ' :: s) = (Text.skipWholeKeyword? .from s).isSome := by
  rw [startsFrom, Text.skipBlanks?_space start, Option.bind_some]

/-- In a text without blanks only the parentheses matter. -/
theorem beforeFrom?_solid {s : List Char} (solid : ∀ c ∈ s, Text.isBlank c = false) (opened : Int)
    (rest : List Char) :
    beforeFrom? opened (s ++ rest) = (beforeFrom? (s.foldl openAfter opened) rest).map (s ++ ·) := by
  induction s generalizing opened with
  | nil => simp
  | cons c s ih =>
    have later := ih (fun d member => solid d (List.mem_cons_of_mem _ member)) (openAfter opened c)
    have here := startsFrom_of_solid (solid c List.mem_cons_self) (s ++ rest)
    rw [List.cons_append, beforeFrom?_cons (by simp [here]), later, List.foldl_cons, Option.map_map]
    rfl

namespace PassesFrom

variable {s t : List Char}

theorem of_solid (nonempty : s ≠ []) (solid : ∀ c ∈ s, Text.isBlank c = false)
    (balanced : s.foldl openAfter 0 = 0) (absent : (Text.skipWholeKeyword? .from s).isSome = false) :
    PassesFrom s where
  nonempty := nonempty
  start := Text.stops_of_forall solid
  absent := absent
  passes := by
    intro rest _
    rw [beforeFrom?_solid solid, balanced]

theorem join (first : PassesFrom s) (second : PassesFrom t) {glue : List Char}
    (stop : ∀ rest, Text.Stops Text.isWord (glue ++ ' ' :: rest)) (solid : ∀ c ∈ glue, Text.isBlank c = false)
    (balanced : glue.foldl openAfter 0 = 0) : PassesFrom (s ++ (glue ++ ' ' :: t)) where
  nonempty := by simp
  start := Text.stops_append first.nonempty first.start _
  absent := by
    rw [Text.isSome_skipWholeKeyword?_append .from s (stop t)]
    exact first.absent
  passes := by
    intro rest later
    have here : startsFrom (' ' :: (t ++ rest)) = false := by
      rw [startsFrom_space (Text.stops_append second.nonempty second.start rest),
        Text.isSome_skipWholeKeyword?_append .from t later]
      exact second.absent
    rw [List.append_assoc, List.append_assoc, List.cons_append, first.passes _ (stop _), beforeFrom?_solid solid,
      balanced, beforeFrom?_cons (by simp [here])]
    have closed : openAfter 0 ' ' = 0 := by decide
    rw [closed, second.passes rest later]
    simp [Option.map_map, Function.comp_def]

theorem space (first : PassesFrom s) (second : PassesFrom t) : PassesFrom (s ++ ' ' :: t) := by
  have stop (rest : List Char) : Text.Stops Text.isWord ([] ++ ' ' :: rest) :=
    (Text.stops_cons ..).mpr (by decide)
  exact first.join second stop (by simp) rfl

theorem comma (first : PassesFrom s) (second : PassesFrom t) : PassesFrom (s ++ ([',', ' '] ++ t)) := by
  have stop (rest : List Char) : Text.Stops Text.isWord ([','] ++ ' ' :: rest) :=
    (Text.stops_cons ..).mpr (by decide)
  exact first.join second stop (by decide) rfl

end PassesFrom

/-- Text without parentheses leaves them as they are. -/
theorem foldl_openAfter {s : List Char} (none : ∀ c ∈ s, c ≠ '(' ∧ c ≠ ')') (opened : Int) :
    s.foldl openAfter opened = opened := by
  induction s with
  | nil => rfl
  | cons c s ih =>
    obtain ⟨left, right⟩ := none c List.mem_cons_self
    have kept : openAfter opened c = opened := by simp [openAfter, left, right]
    rw [List.foldl_cons, kept]
    exact ih fun d member => none d (List.mem_cons_of_mem _ member)

theorem foldl_openAfter_of_word {s : List Char} (word : ∀ c ∈ s, Text.isWord c = true) (opened : Int) :
    s.foldl openAfter opened = opened := by
  refine foldl_openAfter (fun c member => ?_) opened
  have inside := word c member
  constructor <;> rintro rfl <;> exact absurd inside (by decide)

theorem passesFrom_name {name : String} (free : Text.IsFreeName name) : PassesFrom name.toList :=
  .of_solid free.nonempty free.solid (foldl_openAfter_of_word free.word 0)
    (Text.skipWholeKeyword?_of_hasWholeKeyword (free.hasWholeKeyword (by decide)))

theorem passesFrom_text {call : Aggregate.Call} (free : call.IsFree) : PassesFrom call.text.toList := by
  obtain ⟨nonempty, solid⟩ := free.named.solid_text
  refine .of_solid nonempty solid ?_ (Text.skipWholeKeyword?_of_hasWholeKeyword (free.hasWholeKeyword (by decide)))
  have argument : ∀ c ∈ call.argument, c ≠ '(' ∧ c ≠ ')' := by
    intro c member
    have inside := Aggregate.Call.word_argument free.named.shape c member
    constructor <;> rintro rfl <;> exact absurd inside (by decide)
  rw [call.toList_text, List.foldl_append, foldl_openAfter_of_word call.function.isWord_name, List.foldl_cons,
    List.foldl_append, foldl_openAfter argument]
  rfl

/-- The FROM inside EXTRACT stands in parentheses. -/
theorem passesFrom_extract (part : DatePart) {field : String} (free : Text.IsFreeName field)
    (label : Option String) : PassesFrom (SelectItem.datePart part field label).writeBody where
  nonempty := by simp [SelectItem.writeBody]
  start := (Text.stops_cons ..).mpr (by decide)
  absent := rfl
  passes := by
    intro rest _
    have solid : ∀ c ∈ Text.Keyword.extract.letters ++ '(' :: part.name.toList, Text.isBlank c = false := by
      cases part <;> decide
    have opened : (Text.Keyword.extract.letters ++ '(' :: part.name.toList).foldl openAfter 0 = 1 := by
      cases part <;> decide
    have kept : Text.Keyword.from.letters.foldl openAfter 1 = 1 := rfl
    have closed : (field.toList ++ [')']).foldl openAfter 1 = 0 := by
      rw [List.foldl_append, foldl_openAfter_of_word free.word]
      rfl
    have space (s : List Char) : beforeFrom? 1 (' ' :: s) = (beforeFrom? 1 s).map (' ' :: ·) := beforeFrom?_cons rfl
    rw [SelectItem.writeBody, List.append_assoc, beforeFrom?_solid solid, opened, List.cons_append, space,
      List.append_assoc, beforeFrom?_solid (by decide), kept, List.cons_append, space,
      beforeFrom?_solid (SelectItem.solid_closed free), closed]
    simp [Option.map_map, Function.comp_def]

theorem passesFrom_write {item : SelectItem} (writable : item.IsWritable) : PassesFrom item.write := by
  have body : PassesFrom item.writeBody := by
    cases item with
    | wildcard => exact .of_solid (by decide) (by decide) (by decide) (by decide +kernel)
    | column name label => exact passesFrom_name writable.body
    | aggregate call label => exact passesFrom_text writable.body
    | datePart part field label => exact passesFrom_extract part writable.body label
  rw [SelectItem.write]
  cases same : item.label? with
  | none => simpa [SelectItem.writeLabel] using body
  | some label =>
    have word : PassesFrom Text.Keyword.as.letters :=
      .of_solid (by decide) (by decide) (by decide) (by decide +kernel)
    exact body.space (word.space (passesFrom_name (writable.label label same)))

/-- SELECT or SELECT DISTINCT, and a space. -/
def write (distinct : Bool) : List Char :=
  Text.Keyword.select.letters ++ ' ' :: (if distinct then Text.Keyword.distinct.letters ++ [' '] else [])

/-- What stands behind a select list. -/
def writeFrom (rest : List Char) : List Char := ' ' :: (Text.Keyword.from.letters ++ ' ' :: rest)

theorem beforeFrom?_writeFrom {opened : Int} (closed : opened ≤ 0) (rest : List Char) :
    beforeFrom? opened (writeFrom rest) = some [] := by
  have start : Text.Stops Text.isBlank (Text.Keyword.from.letters ++ ' ' :: rest) :=
    (Text.stops_cons ..).mpr (by decide)
  have whole : (Text.skipWholeKeyword? .from (Text.Keyword.from.letters ++ ' ' :: rest)).isSome = true := by
    rw [Text.skipWholeKeyword?, Text.skipKeyword?_letters]
    rfl
  rw [writeFrom, beforeFrom?, startsFrom_space start, whole, decide_eq_true closed]
  rfl

/-- The head of a text is found with the list behind it. -/
theorem find?_write (distinct : Bool) {list rest : List Char} (nonempty : list ≠ [])
    (start : Text.Stops Text.isBlank list) (absent : (Text.skipWholeKeyword? .distinct list).isSome = false)
    (stop : Text.Stops Text.isWord rest) :
    find? (write distinct ++ (list ++ rest)) = some ⟨write distinct ++ (list ++ rest), list ++ rest, distinct⟩ := by
  have start' : Text.Stops Text.isBlank (list ++ rest) := Text.stops_append nonempty start rest
  have read : read? (write distinct ++ (list ++ rest)) =
      some ⟨write distinct ++ (list ++ rest), list ++ rest, distinct⟩ := by
    have opened {s : List Char} (start : Text.Stops Text.isBlank s) :
        Clause.select.opening? (Text.Keyword.select.letters ++ ' ' :: s) = some s := by
      have phrase : Text.skipPhrase? Clause.select.phrase (Text.Keyword.select.letters ++ ' ' :: s) = some (' ' :: s) :=
        Text.skipKeyword?_letters .select (' ' :: s)
      rw [Clause.opening?, phrase, Option.bind_some, Text.skipBlanks?_space start]
    cases distinct with
    | true =>
      have shape : write true ++ (list ++ rest) =
          Text.Keyword.select.letters ++ ' ' :: (Text.Keyword.distinct.letters ++ ' ' :: (list ++ rest)) := by
        simp [write]
      have word : Text.Stops Text.isBlank (Text.Keyword.distinct.letters ++ ' ' :: (list ++ rest)) :=
        (Text.stops_cons ..).mpr (by decide)
      rw [read?, shape, opened word, Option.map_some, Text.skipKeyword?_letters,
        Option.bind_some, Text.skipBlanks?_space start']
    | false =>
      have shape : write false ++ (list ++ rest) = Text.Keyword.select.letters ++ ' ' :: (list ++ rest) := by
        simp [write]
      have absent' : (Text.skipWholeKeyword? .distinct (list ++ rest)).isSome = false :=
        (Text.isSome_skipWholeKeyword?_append .distinct list stop).trans absent
      rw [read?, shape, opened start', Option.map_some, Text.skipKeyword?_bind_skipBlanks? absent']
  have first : write distinct ++ (list ++ rest) = 'S' :: ((write distinct).tail ++ (list ++ rest)) := rfl
  rw [first] at read ⊢
  rw [find?, Text.findWord?_cons, if_neg (by decide), read, Option.some_or]

theorem listText?_of_beforeFrom? (distinct : Bool) {head list rest : List Char}
    (before : beforeFrom? 0 (head ++ (list ++ rest)) = some (head ++ list)) (trimmed : Text.trim list = list) :
    listText? ⟨head ++ (list ++ rest), list ++ rest, distinct⟩ = some list := by
  have size : (head ++ (list ++ rest)).length - (list ++ rest).length = head.length := by
    rw [List.length_append]
    omega
  rw [listText?]
  dsimp only
  rw [before, Option.map_some, size, List.drop_left, trimmed]

/-- The list goes up to FROM. -/
theorem listText?_write (distinct : Bool) {list : List Char} (passes : PassesFrom list)
    (trimmed : Text.trim list = list) (rest : List Char) :
    listText? ⟨write distinct ++ (list ++ writeFrom rest), list ++ writeFrom rest, distinct⟩ = some list := by
  have word {keyword : Text.Keyword} (member : keyword = .select ∨ keyword = .distinct) : PassesFrom keyword.letters := by
    rcases member with rfl | rfl <;> exact .of_solid (by decide) (by decide) (by decide) (by decide +kernel)
  have front : PassesFrom (write distinct ++ list) := by
    cases distinct with
    | true =>
      have passed := (word (.inl rfl)).space ((word (.inr rfl)).space passes)
      simpa [write] using passed
    | false =>
      have passed := (word (.inl rfl)).space passes
      simpa [write] using passed
  have stop : Text.Stops Text.isWord (writeFrom rest) := Text.stops_isWord_space _
  apply listText?_of_beforeFrom? _ _ trimmed
  rw [← List.append_assoc, front.passes _ stop, beforeFrom?_writeFrom (Int.le_refl 0)]
  simp

end SelectHead

namespace Query

/-- The items of a list are read one by one. -/
theorem readSelect_of_listText? {text list : List Char} {head : SelectHead} (found : SelectHead.find? text = some head)
    (listed : head.listText? = some list) (nonempty : list ≠ []) : readSelect text =
      ((Text.Separator.comma.split list).mapM SelectItem.readLetters).map (·, head.distinct) := by
  rw [readSelect, found]
  dsimp only
  rw [listed]
  split
  next none => cases none
  next empty => exact absurd (Option.some.inj empty) nonempty
  next other same =>
    obtain rfl := Option.some.inj same
    rfl

/-- The select items and DISTINCT are read back. -/
theorem readSelect_write (distinct : Bool) {items : List SelectItem} (nonempty : items ≠ [])
    (writable : ∀ item ∈ items, item.IsWritable) (rest : List Char) :
    readSelect (SelectHead.write distinct ++
      ([',', ' '].intercalate (items.map SelectItem.write) ++ SelectHead.writeFrom rest)) = .ok (items, distinct) := by
  have some : items.map SelectItem.write ≠ [] := by simpa using nonempty
  have fields : ∀ part ∈ items.map SelectItem.write, part ≠ [] ∧ Text.IsField part := by
    intro part member
    obtain ⟨item, found, rfl⟩ := List.mem_map.mp member
    exact SelectItem.isField_write (writable item found)
  have passes : SelectHead.PassesFrom ([',', ' '].intercalate (items.map SelectItem.write)) := by
    refine Text.intercalate_induction (fun s t first second => first.comma second) some ?_
    intro part member
    obtain ⟨item, found, rfl⟩ := List.mem_map.mp member
    exact SelectHead.passesFrom_write (writable item found)
  have passage : Text.IsPassage ([',', ' '].intercalate (items.map SelectItem.write)) :=
    .intercalate_comma some fun part member => .of_field (fields part member).2 (fields part member).1
  have absent : (Text.skipWholeKeyword? .distinct ([',', ' '].intercalate (items.map SelectItem.write))).isSome = false := by
    apply Text.skipWholeKeyword?_of_hasWholeKeyword
    apply Text.hasWholeKeyword_intercalate_comma
    intro part member
    obtain ⟨item, found, rfl⟩ := List.mem_map.mp member
    exact SelectItem.hasWholeKeyword_write (writable item found) (by decide) (by decide) (by decide)
  have stop : Text.Stops Text.isWord (SelectHead.writeFrom rest) := Text.stops_isWord_space _
  have trimmed := Text.trim_eq_self passes.start passage.finish
  have head := SelectHead.find?_write distinct passes.nonempty passes.start absent stop
  have read := mapM_map fun item member => SelectItem.readLetters_write (writable item member)
  rw [readSelect_of_listText? head (SelectHead.listText?_write distinct passes trimmed rest) passes.nonempty,
    Text.split_comma_intercalate some fun part member => (fields part member).2, read, List.map_id']
  rfl

end Query
end RecordQuery
