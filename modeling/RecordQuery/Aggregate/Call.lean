import RecordQuery.Text.Letters
import RecordQuery.Text.Keyword

/-! Aggregate calls: a function and the field it is applied to. Only COUNT is
applied to whole rows. -/
namespace RecordQuery.Aggregate

inductive Function where
  | sum | count | average | maximum | minimum
  deriving DecidableEq, Repr

namespace Function

def name : Function → String
  | sum => "SUM"
  | count => "COUNT"
  | average => "AVG"
  | maximum => "MAX"
  | minimum => "MIN"

/-- The function with this name, whose letter case does not matter. -/
def ofLetters? (letters : List Char) : Option Function :=
  match letters.map Char.toLower with
  | ['s', 'u', 'm'] => some sum
  | ['c', 'o', 'u', 'n', 't'] => some count
  | ['a', 'v', 'g'] => some average
  | ['m', 'a', 'x'] => some maximum
  | ['m', 'i', 'n'] => some minimum
  | _ => none

end Function

/-- Without a field the call is applied to whole rows. Field names are in lower case,
so that calls are equal when they differ in spelling only. -/
structure Call where
  function : Function
  field : Option String
  deriving DecidableEq, Repr

namespace Call

def ofField (function : Function) (field : String) : Call := ⟨function, some (Text.lower field)⟩

def text (call : Call) : String :=
  call.function.name ++ "(" ++ call.field.getD "*" ++ ")"

/-- The name of the result where no other is given: the field, and `count` for every count. -/
def naturalKey (call : Call) : String :=
  match call.function, call.field with
  | .count, _ | _, none => "count"
  | _, some field => field

/-- The call with this argument, if the function takes it. -/
def ofArgument? (function : Function) (argument : List Char) : Option Call :=
  if argument = ['*'] then
    if function = .count then some ⟨.count, none⟩ else none
  else some (ofField function (String.ofList argument))

/-- The argument that starts a text, a word or an asterisk, and what follows it. -/
def splitArgument? : List Char → Option (List Char × List Char)
  | '*' :: rest => some (['*'], rest)
  | s => if (Text.takeWord s).isEmpty then none else some (Text.takeWord s, Text.dropWord s)

/-- A function applied to an argument at the start of a text, and what follows it. The
call is missing where the function does not take the argument. -/
def readPrefix? (s : List Char) : Option (Option Call × List Char) :=
  (Function.ofLetters? (Text.takeWord s)).bind fun function =>
    match Text.trimStart (Text.dropWord s) with
    | '(' :: inner =>
      (splitArgument? (Text.trimStart inner)).bind fun (argument, rest) =>
        match Text.trimStart rest with
        | ')' :: after => some (ofArgument? function argument, after)
        | _ => none
    | _ => none

/-- A text that is one call. -/
def read? (s : List Char) : Option Call :=
  match readPrefix? (Text.trim s) with
  | some (call, []) => call
  | _ => none

end Call
end RecordQuery.Aggregate
