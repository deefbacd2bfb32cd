import RecordQuery.Proofs.Aggregate.ReadBack
import RecordQuery.Proofs.Text.FreeNames
import RecordQuery.Proofs.Text.NormalForm
import RecordQuery.SelectItem

/-! Select items in writing. An item is read back from its text. -/
namespace RecordQuery

namespace Aggregate.Call

/-- Only names that are no reserved words are called. -/
structure IsFree (call : Call) : Prop where
  named : call.WellNamed
  field : ∀ field ∈ call.field, Text.IsFreeName field

theorem hasWholeKeyword_name : ∀ keyword ∈ Text.reserved, ∀ function : Function,
    Text.hasWholeKeyword keyword function.name.toList = false := by
  intro keyword member function
  revert keyword
  cases function <;> decide +kernel

theorem IsFree.hasWholeKeyword {call : Call} (free : call.IsFree) {keyword : Text.Keyword}
    (member : keyword ∈ Text.reserved) : Text.hasWholeKeyword keyword call.text.toList = false := by
  refine hasWholeKeyword_text (hasWholeKeyword_name keyword member _) ?_
  obtain ⟨function, field⟩ := call
  cases field with
  | none =>
    have star : ∀ keyword ∈ Text.reserved, Text.hasWholeKeyword keyword "*".toList = false := by decide +kernel
    exact star keyword member
  | some field => exact (free.field field rfl).hasWholeKeyword member

end Aggregate.Call

namespace SelectItem

theorem splitLabel?_eq (s : List Char) : splitLabel? s = Text.splitBefore? labelAfter? s := by
  induction s with
  | nil => rfl
  | cons c s ih =>
    rw [splitLabel?, Text.splitBefore?, ih]
    cases labelAfter? s <;> rfl

/-- An item without its label. -/
def writeBody : SelectItem → List Char
  | wildcard => ['*']
  | column name _ => name.toList
  | aggregate call _ => call.text.toList
  | datePart part field _ =>
    Text.Keyword.extract.letters ++ '(' :: part.name.toList ++
      ' ' :: (Text.Keyword.from.letters ++ ' ' :: (field.toList ++ [')']))

/-- A label is written behind AS. -/
def writeLabel : Option String → List Char
  | none => []
  | some label => ' ' :: (Text.Keyword.as.letters ++ ' ' :: label.toList)

def write (item : SelectItem) : List Char := item.writeBody ++ writeLabel item.label?

/-- The names in an item are no reserved words. -/
structure IsWritable (item : SelectItem) : Prop where
  body : match item with
    | wildcard => True
    | column name _ => Text.IsFreeName name
    | aggregate call _ => call.IsFree
    | datePart _ field _ => Text.IsFreeName field
  label : ∀ label ∈ item.label?, Text.IsFreeName label

theorem labelAfter?_of_solid (c : Char) (s : List Char) (solid : Text.isBlank c = false) :
    labelAfter? (c :: s) = none := by
  simp [labelAfter?, Text.skipBlanks?, solid]

/-- Behind a space a label starts with AS only. -/
theorem labelAfter?_space {s : List Char} (start : Text.Stops Text.isBlank s)
    (absent : (Text.skipWholeKeyword? .as s).isSome = false) : labelAfter? (' ' :: s) = none := by
  have none := Text.skipKeyword?_bind_skipBlanks? absent
  rw [Option.bind_eq_none_iff] at none
  rw [labelAfter?, Text.skipBlanks?_space start, Option.bind_some, Option.bind_eq_none_iff]
  intro rest found
  rw [none rest found]
  rfl

theorem labelAfter?_writeLabel {label : String} (free : Text.IsFreeName label) :
    labelAfter? (writeLabel (some label)) = some label.toList := by
  have start : Text.Stops Text.isBlank label.toList := Text.stops_of_forall free.solid
  have start' : Text.Stops Text.isBlank (Text.Keyword.as.letters ++ ' ' :: label.toList) :=
    (Text.stops_cons ..).mpr (by decide)
  rw [writeLabel, labelAfter?, Text.skipBlanks?_space start', Option.bind_some, Text.skipKeyword?_letters,
    Option.bind_some, Text.skipBlanks?_space start, Option.filter_some, if_pos free.name]

theorem isField_name {name : String} (free : Text.IsFreeName name) : Text.IsField name.toList :=
  .of_solid free.solid fun member => absurd (free.word _ member) (by decide)

theorem isField_extract (part : DatePart) :
    Text.IsField (Text.Keyword.extract.letters ++ '(' :: part.name.toList) := by
  cases part <;> exact .of_solid (by decide) (by decide)

theorem isField_from : Text.IsField Text.Keyword.from.letters := .of_solid (by decide) (by decide)

theorem solid_closed {field : String} (free : Text.IsFreeName field) :
    ∀ c ∈ field.toList ++ [')'], Text.isBlank c = false := by
  intro c member
  rcases List.mem_append.mp member with member | member
  · exact free.solid c member
  · rw [List.mem_singleton.mp member]
    decide

theorem isField_closed {field : String} (free : Text.IsFreeName field) :
    Text.IsField (field.toList ++ [')']) := by
  refine .of_solid (solid_closed free) fun member => ?_
  rcases List.mem_append.mp member with member | member
  · exact absurd (free.word _ member) (by decide)
  · exact absurd member (by decide)

theorem isField_writeBody {item : SelectItem} (writable : item.IsWritable) :
    item.writeBody ≠ [] ∧ Text.IsField item.writeBody := by
  cases item with
  | wildcard => exact ⟨by decide, .of_solid (by decide) (by decide)⟩
  | column name label =>
    have free : Text.IsFreeName name := writable.body
    exact ⟨free.nonempty, isField_name free⟩
  | aggregate call label =>
    have free : call.IsFree := writable.body
    obtain ⟨nonempty, solid⟩ := free.named.solid_text
    exact ⟨nonempty, .of_solid solid fun member => absurd (free.named.mem_text _ member) (by decide)⟩
  | datePart part field label =>
    have free : Text.IsFreeName field := writable.body
    have target := isField_from.space (isField_closed free) (by decide) (by simp)
    exact ⟨by simp [writeBody], (isField_extract part).space target (by simp) (by simp)⟩

/-- No label is read inside an item. -/
theorem quiet_writeBody {item : SelectItem} (writable : item.IsWritable) (rest : List Char) :
    Text.Quiet labelAfter? item.writeBody rest := by
  have solid {s : List Char} (solid : ∀ c ∈ s, Text.isBlank c = false) (rest : List Char) :
      Text.Quiet labelAfter? s rest := Text.quiet_of_solid labelAfter?_of_solid solid rest
  cases item with
  | wildcard => exact solid (by decide) rest
  | column name label => exact solid (Text.IsFreeName.solid writable.body) rest
  | aggregate call label => exact solid (Aggregate.Call.IsFree.named writable.body).solid_text.2 rest
  | datePart part field label =>
    have free : Text.IsFreeName field := writable.body
    have stop (s : List Char) : Text.Stops Text.isWord (')' :: s) := (Text.stops_cons ..).mpr (by decide)
    have absent : (Text.skipWholeKeyword? .as (field.toList ++ ')' :: rest)).isSome = false := by
      rw [Text.isSome_skipWholeKeyword?_append .as _ (stop rest)]
      exact Text.skipWholeKeyword?_of_hasWholeKeyword (free.hasWholeKeyword (by decide))
    have start : Text.Stops Text.isBlank (field.toList ++ ')' :: rest) :=
      Text.stops_append free.nonempty (isField_name free).start _
    have opened : ∀ c ∈ Text.Keyword.extract.letters ++ '(' :: part.name.toList, Text.isBlank c = false := by
      cases part <;> decide
    rw [writeBody, Text.quiet_append]
    refine ⟨solid opened _, labelAfter?_space ((Text.stops_cons ..).mpr (by decide)) rfl, ?_⟩
    rw [Text.quiet_append]
    refine ⟨solid (by decide) _, ?_, solid (solid_closed free) _⟩
    rw [List.append_assoc]
    exact labelAfter?_space start absent

/-- A name alone is no call. -/
theorem readPrefix?_word {s : List Char} (word : ∀ c ∈ s, Text.isWord c = true) :
    Aggregate.Call.readPrefix? s = none := by
  simpa using Aggregate.Call.readPrefix?_eq_none word (Text.stops_nil _) (by simp [Text.trimStart])

/-- A name alone is no part of a date. -/
theorem readDatePart?_word {s : List Char} (word : ∀ c ∈ s, Text.isWord c = true) : readDatePart? s = none := by
  unfold readDatePart?
  cases skip : Text.skipKeyword? .extract s with
  | none => rfl
  | some rest =>
    obtain ⟨front, rfl⟩ := Text.exists_of_skipLetters? skip
    cases rest with
    | nil => rfl
    | cons c rest =>
      have inside : Text.isWord c = true := word c (by simp)
      have kept : Text.trimStart (c :: rest) = c :: rest := Text.trimStart_solid (Text.isBlank_of_isWord inside) rest
      have other : c ≠ '(' := by
        rintro rfl
        exact absurd inside (by decide)
      simp [kept, Text.skipChar?, other]

theorem readDatePart?_write (part : DatePart) {field : String} (free : Text.IsFreeName field)
    (label : Option String) :
    readDatePart? (writeBody (datePart part field label)) = some (part, field) := by
  have stop : Text.Stops Text.isWord [')'] := (Text.stops_cons ..).mpr (by decide)
  have start : Text.trimStart (field.toList ++ [')']) = field.toList ++ [')'] :=
    Text.dropWhile_stops (isField_closed free).start
  have taken : Text.takeWord (field.toList ++ [')']) = field.toList := Text.takeWhile_run free.word stop
  have left : Text.dropWord (field.toList ++ [')']) = [')'] := Text.dropWhile_run free.word stop
  -- All the text before the field is fixed but for the part.
  have front : readDatePart? (writeBody (datePart part field label)) =
      (Text.skipChar? ')' (Text.trimStart (Text.dropWord (Text.trimStart (field.toList ++ [')']))))).bind
        fun rest =>
          if (Text.takeWord (Text.trimStart (field.toList ++ [')']))).isEmpty || !rest.isEmpty then none
          else some (part, String.ofList (Text.takeWord (Text.trimStart (field.toList ++ [')'])))) := by
    cases part <;> rfl
  rw [front, start, taken, left, List.isEmpty_eq_false_iff.mpr free.nonempty, String.ofList_toList]
  rfl

/-- A name is a column as it is spelled. -/
theorem readBody_name {name : List Char} (isName : Text.isName name = true) (whole : List Char)
    (label : Option String) : readBody name whole label = .ok (column (String.ofList name) label) := by
  have word := (Text.isName_iff.mp isName).2
  have call : Aggregate.Call.read? name = none := by
    rw [Aggregate.Call.read?, Text.trim_of_solid (Text.solid_of_isName isName), readPrefix?_word word]
  have star : name ≠ ['*'] := by
    rintro rfl
    exact absurd (word '*' (by simp)) (by decide)
  rw [readBody, call, readDatePart?_word word]
  dsimp only
  rw [if_neg star, if_pos isName]

theorem readLetters_name {name : List Char} (isName : Text.isName name = true) :
    readLetters name = .ok (column (String.ofList name) none) := by
  have solid := Text.solid_of_isName isName
  have split : splitLabel? name = none := by
    rw [splitLabel?_eq]
    exact Text.splitBefore?_eq_none (Text.quiet_of_solid labelAfter?_of_solid solid _) rfl
  rw [readLetters, Text.trim_of_solid solid, split]
  exact readBody_name isName name none

theorem readBody_writeBody {item : SelectItem} (writable : item.IsWritable) (whole : List Char) :
    readBody item.writeBody whole item.label? = .ok item := by
  have trimmed : Text.trim item.writeBody = item.writeBody :=
    Text.trim_eq_self (isField_writeBody writable).2.start (isField_writeBody writable).2.finish
  cases item with
  | wildcard => rfl
  | column name label =>
    have free : Text.IsFreeName name := writable.body
    rw [writeBody, readBody_name free.name, String.ofList_toList]
    rfl
  | aggregate call label =>
    have free : call.IsFree := writable.body
    rw [readBody, writeBody, Aggregate.Call.read?_text free.named]
    rfl
  | datePart part field label =>
    have free : Text.IsFreeName field := writable.body
    have call : Aggregate.Call.read? (writeBody (datePart part field label)) = none := by
      rw [Aggregate.Call.read?, trimmed]
      cases part <;> rfl
    rw [readBody, call, readDatePart?_write part free]
    rfl

theorem isField_write {item : SelectItem} (writable : item.IsWritable) :
    item.write ≠ [] ∧ Text.IsField item.write := by
  obtain ⟨nonempty, field⟩ := isField_writeBody writable
  rw [write]
  cases same : item.label? with
  | none => simpa [writeLabel] using ⟨nonempty, field⟩
  | some label =>
    have free := writable.label label same
    have word : Text.IsField Text.Keyword.as.letters := .of_solid (by decide) (by decide)
    have named := word.space (isField_name free) (by decide) free.nonempty
    exact ⟨by simp [nonempty], field.space named nonempty (by simp)⟩

/-- The keywords in an item are those that its form has. -/
theorem hasWholeKeyword_writeBody {item : SelectItem} (writable : item.IsWritable) {keyword : Text.Keyword}
    (member : keyword ∈ Text.reserved) (other : keyword ≠ .from) :
    Text.hasWholeKeyword keyword item.writeBody = false := by
  cases item with
  | wildcard =>
    revert keyword
    decide +kernel
  | column name label => exact Text.IsFreeName.hasWholeKeyword writable.body member
  | aggregate call label => exact Aggregate.Call.IsFree.hasWholeKeyword writable.body member
  | datePart part field label =>
    have free : Text.IsFreeName field := writable.body
    have fixed : Text.hasWholeKeyword keyword Text.Keyword.extract.letters = false ∧
        Text.hasWholeKeyword keyword part.name.toList = false ∧
        Text.hasWholeKeyword keyword Text.Keyword.from.letters = false := by
      revert keyword
      cases part <;> decide +kernel
    obtain ⟨extract, name, target⟩ := fixed
    rw [writeBody, Text.hasWholeKeyword_append _ _ (by decide), Text.hasWholeKeyword_append _ _ (by decide),
      Text.hasWholeKeyword_append _ _ (by decide), Text.hasWholeKeyword_append _ _ (by decide), extract, name, target,
      free.hasWholeKeyword member]
    rfl

theorem hasWholeKeyword_write {item : SelectItem} (writable : item.IsWritable) {keyword : Text.Keyword}
    (member : keyword ∈ Text.reserved) (other : keyword ≠ .from) (other' : keyword ≠ .as) :
    Text.hasWholeKeyword keyword item.write = false := by
  have body := hasWholeKeyword_writeBody writable member other
  rw [write]
  cases same : item.label? with
  | none => simpa [writeLabel] using body
  | some label =>
    have fixed : ∀ keyword ∈ Text.reserved, keyword ≠ .as →
        Text.hasWholeKeyword keyword Text.Keyword.as.letters = false := by
      decide +kernel
    rw [writeLabel, Text.hasWholeKeyword_append _ _ (by decide), Text.hasWholeKeyword_append _ _ (by decide), body,
      fixed keyword member other', (writable.label label same).hasWholeKeyword member]
    rfl

/-- An item is read back from its text. -/
theorem readLetters_write {item : SelectItem} (writable : item.IsWritable) : readLetters item.write = .ok item := by
  obtain ⟨nonempty, field⟩ := isField_writeBody writable
  obtain ⟨_, field'⟩ := isField_write writable
  rw [readLetters, Text.trim_eq_self field'.start field'.finish, splitLabel?_eq]
  cases same : item.label? with
  | none =>
    have split : Text.splitBefore? labelAfter? item.write = none := by
      rw [write, same, writeLabel, List.append_nil]
      exact Text.splitBefore?_eq_none (quiet_writeBody writable []) rfl
    have body : item.write = item.writeBody := by rw [write, same, writeLabel, List.append_nil]
    rw [split]
    dsimp only
    rw [body, ← same]
    exact readBody_writeBody writable _
  | some label =>
    have free := writable.label label same
    have split : Text.splitBefore? labelAfter? item.write = some (item.writeBody, label.toList) := by
      rw [write, same]
      exact Text.splitBefore?_append nonempty field.spaced.oneLine (quiet_writeBody writable _)
        (labelAfter?_writeLabel free)
    rw [split]
    dsimp only
    rw [Text.trim_eq_self field.start field.finish, String.ofList_toList, ← same]
    exact readBody_writeBody writable _

end SelectItem
end RecordQuery
