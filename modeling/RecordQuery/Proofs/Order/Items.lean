import RecordQuery.OrderItem
import RecordQuery.Proofs.Condition.Writing
import RecordQuery.Proofs.Select.Items

/-! Order items in writing. An item is read back from its text, an aggregate call with the
field that shows it. -/
namespace RecordQuery

inductive Direction where
  | unwritten | ascending | descending
  deriving DecidableEq, Repr

namespace Direction

/-- Without a direction the order ascends. -/
def ascends : Direction → Bool
  | descending => false
  | _ => true

def write : Direction → List Char
  | unwritten => []
  | ascending => ' ' :: Text.Keyword.asc.letters
  | descending => ' ' :: Text.Keyword.desc.letters

theorem directionOf?_write (direction : Direction) :
    OrderItem.directionOf? direction.write = some direction.ascends := by
  cases direction <;> decide

end Direction

/-- An order item as it is written. -/
structure WrittenOrder where
  target : Operand
  direction : Direction

namespace WrittenOrder

def write (order : WrittenOrder) : List Char := order.target.write ++ order.direction.write

/-- The item that is meant, where these items are selected. -/
def item (order : WrittenOrder) (items : List SelectItem) : OrderItem :=
  match order.target with
  | .column name => ⟨name, order.direction.ascends, none⟩
  | .aggregate call =>
    ⟨(OrderItem.labelOf? call items).getD call.naturalKey, order.direction.ascends, some call⟩

/-- The names in an item are no reserved words, and are in lower case. -/
def IsWritable (order : WrittenOrder) : Prop :=
  match order.target with
  | .column name => Text.IsFreeName name ∧ Text.lower name = name
  | .aggregate call => call.IsFree

theorem solid_target {order : WrittenOrder} (writable : order.IsWritable) :
    order.target.write ≠ [] ∧ (∀ c ∈ order.target.write, Text.isBlank c = false) ∧ ',' ∉ order.target.write := by
  obtain ⟨target, direction⟩ := order
  cases target with
  | column name =>
    have free : Text.IsFreeName name := writable.1
    exact ⟨free.nonempty, free.solid, fun member => absurd (free.word _ member) (by decide)⟩
  | aggregate call =>
    have free : call.IsFree := writable
    obtain ⟨nonempty, solid⟩ := free.named.solid_text
    exact ⟨nonempty, solid, fun member => absurd (free.named.mem_text _ member) (by decide)⟩

theorem isField_write {order : WrittenOrder} (writable : order.IsWritable) :
    order.write ≠ [] ∧ Text.IsField order.write := by
  obtain ⟨nonempty, solid, noComma⟩ := solid_target writable
  have target : Text.IsField order.target.write := .of_solid solid noComma
  rw [write]
  cases order.direction with
  | unwritten => simpa [Direction.write] using ⟨nonempty, target⟩
  | ascending => exact ⟨by simp [nonempty], target.space (.of_solid (by decide) (by decide)) nonempty (by decide)⟩
  | descending => exact ⟨by simp [nonempty], target.space (.of_solid (by decide) (by decide)) nonempty (by decide)⟩

end WrittenOrder

namespace OrderItem

theorem splitDirection?_eq (s : List Char) : splitDirection? s = Text.splitBefore? directionOf? s := by
  induction s with
  | nil => rfl
  | cons c s ih =>
    rw [splitDirection?, Text.splitBefore?, ih]
    cases directionOf? s <;> rfl

theorem directionOf?_of_solid (c : Char) (s : List Char) (solid : Text.isBlank c = false) :
    directionOf? (c :: s) = none := by
  simp [directionOf?, Text.skipBlanks?, solid]

/-- The direction is split off a target without blanks. -/
theorem splitDirection?_write {target : List Char} (nonempty : target ≠ [])
    (solid : ∀ c ∈ target, Text.isBlank c = false) (direction : Direction) :
    splitDirection? (Text.trim (target ++ direction.write)) = some (target, direction.ascends) := by
  have finish : Text.Stops Text.isBlank (target ++ direction.write).reverse := by
    rw [List.reverse_append]
    cases direction with
    | unwritten => exact Text.stops_reverse_of_forall solid
    | ascending => exact (Text.stops_cons ..).mpr (by decide)
    | descending => exact (Text.stops_cons ..).mpr (by decide)
  have oneLine : '\n' ∉ target := fun member => absurd (solid _ member) (by decide)
  rw [Text.trim_eq_self (Text.stops_append nonempty (Text.stops_of_forall solid) _) finish, splitDirection?_eq]
  exact Text.splitBefore?_append nonempty oneLine (Text.quiet_of_solid directionOf?_of_solid solid _)
    direction.directionOf?_write

/-- A name is a field in lower case. -/
theorem readLetters_name {name : List Char} (isName : Text.isName name = true) (direction : Direction)
    (items : List SelectItem) : readLetters items (name ++ direction.write) =
      .ok ⟨Text.lower (String.ofList name), direction.ascends, none⟩ := by
  have solid := Text.solid_of_isName isName
  rw [readLetters, splitDirection?_write (Text.isName_iff.mp isName).1 solid]
  dsimp only
  rw [Text.trim_of_solid solid, if_pos isName]

/-- The field of an order item is shown by the first label, else by the natural key. -/
theorem readLetters_write {order : WrittenOrder} (writable : order.IsWritable) (items : List SelectItem) :
    readLetters items order.write = .ok (order.item items) := by
  obtain ⟨operand, direction⟩ := order
  cases operand with
  | column name =>
    obtain ⟨free, lower⟩ : Text.IsFreeName name ∧ Text.lower name = name := writable
    rw [WrittenOrder.write, Operand.write, readLetters_name free.name, String.ofList_toList, lower]
    rfl
  | aggregate call =>
    have free : call.IsFree := writable
    obtain ⟨nonempty, solid⟩ := free.named.solid_text
    have other : ¬Text.isName call.text.toList = true := by
      intro name
      have word := (Text.isName_iff.mp name).2 '('
      rw [Aggregate.Call.toList_text] at word
      exact absurd (word (by simp)) (by decide)
    rw [WrittenOrder.write, Operand.write, readLetters, splitDirection?_write nonempty solid]
    dsimp only
    rw [Text.trim_of_solid solid, if_neg other, Aggregate.Call.read?_text free.named]
    rfl

end OrderItem
end RecordQuery
