import RecordQuery.Text.Blank

/-! Splitting a text at separators. A separator is recognised at the place where
it starts, and the search for the next one begins where it ends. -/
namespace RecordQuery.Text

/-- The length of the separator that starts a text, if one does. -/
abbrev Separator := List Char → Option Nat

/-- One more character in front of the first field. -/
def extendFirst (c : Char) : List (List Char) → List (List Char)
  | [] => [[c]]
  | field :: fields => (c :: field) :: fields

namespace Separator

/-- The fields of a text of which `pending` characters still belong to a separator. -/
def splitFrom (sep : Separator) : (pending : Nat) → List Char → List (List Char)
  | _, [] => [[]]
  | pending + 1, _ :: cs => splitFrom sep pending cs
  | 0, c :: cs =>
    match sep (c :: cs) with
    | some length => [] :: splitFrom sep (length - 1) cs
    | none => extendFirst c (splitFrom sep 0 cs)

/-- The texts between the separators, at least one. -/
def split (sep : Separator) (s : List Char) : List (List Char) := splitFrom sep 0 s

/-- The texts before and after the first separator. -/
def cut? (sep : Separator) : List Char → Option (List Char × List Char)
  | [] => none
  | c :: cs =>
    match sep (c :: cs) with
    | some length => some ([], cs.drop (length - 1))
    | none => (sep.cut? cs).map fun (before, after) => (c :: before, after)

/-- A comma with the white space around it. -/
def comma : Separator := fun s =>
  match trimStart s with
  | ',' :: rest => some (blankRun s + 1 + blankRun rest)
  | _ => none

end Separator

theorem extendFirst_ne_nil (c : Char) (fields : List (List Char)) : extendFirst c fields ≠ [] := by
  cases fields <;> simp [extendFirst]

namespace Separator

theorem splitFrom_ne_nil (sep : Separator) (pending : Nat) (s : List Char) :
    sep.splitFrom pending s ≠ [] := by
  induction s generalizing pending with
  | nil => simp [splitFrom]
  | cons c cs ih =>
    cases pending with
    | succ pending => simpa [splitFrom] using ih pending
    | zero =>
      rw [splitFrom]
      split
      · simp
      · exact extendFirst_ne_nil c _

theorem split_ne_nil (sep : Separator) (s : List Char) : sep.split s ≠ [] :=
  splitFrom_ne_nil sep 0 s

@[simp] theorem split_nil (sep : Separator) : sep.split [] = [[]] := rfl

end Separator

/-- The form in which clauses are looked for: trimmed, each run of white space one
space, each comma followed by exactly one space and preceded by none. -/
def normalize (s : List Char) : List Char :=
  [',', ' '].intercalate (Separator.comma.split (collapse (trim s)))

end RecordQuery.Text
