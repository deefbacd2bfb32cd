import RecordQuery.SelectItem

/-! Items of ORDER BY: a field, or an aggregate call with the field that shows it. -/
namespace RecordQuery

structure OrderItem where
  field : String
  ascending : Bool
  call : Option Aggregate.Call
  deriving DecidableEq, Repr

namespace OrderItem

/-- Whether the order ascends, where a text is empty or holds a direction after white
space. Only the letters A to Z make it descend. -/
def directionOf? (s : List Char) : Option Bool :=
  match Text.skipBlanks? s with
  | some word =>
    if Text.skipKeyword? .asc word = some [] then some true
    else if Text.skipKeyword? .desc word = some [] then
      some (word.map Char.toUpper != Text.Keyword.desc.letters)
    else none
  | none => if s.isEmpty then some true else none

/-- The shortest target that a direction may follow. The target is one line. -/
def splitDirection? : List Char → Option (List Char × Bool)
  | [] => none
  | c :: cs =>
    if c = '\n' then none
    else match directionOf? cs with
      | some ascending => some ([c], ascending)
      | none => (splitDirection? cs).map fun (target, ascending) => (c :: target, ascending)

/-- The first label that the select items give to a call. -/
def labelOf? (call : Aggregate.Call) (items : List SelectItem) : Option String :=
  items.findSome? fun
    | .aggregate selected label => if selected = call then label else none
    | _ => none

def readLetters (items : List SelectItem) (s : List Char) : Except ReadError OrderItem :=
  let whole := Text.trim s
  match splitDirection? whole with
  | none => .error .emptyOrderItem
  | some (body, ascending) =>
    let target := Text.trim body
    if Text.isName target then
      .ok ⟨Text.lower (String.ofList target), ascending, none⟩
    else match Aggregate.Call.read? target with
      | some call => .ok ⟨(labelOf? call items).getD call.naturalKey, ascending, some call⟩
      | none => .error (.unsupportedOrderItem (String.ofList whole))

def read (items : List SelectItem) (text : String) : Except ReadError OrderItem :=
  readLetters items text.toList

end OrderItem
end RecordQuery
