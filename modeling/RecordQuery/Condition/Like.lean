import RecordQuery.Text.CaseFold

/-! Patterns of LIKE. A percent sign stands for any text, line breaks included;
every other character for itself up to case folding. A text fits when all of it
is covered. -/
namespace RecordQuery.Like

/-- What follows a piece that starts the text. -/
def skipPiece? : List Char → List Char → Option (List Char)
  | [], s => some s
  | _ :: _, [] => none
  | p :: ps, c :: cs => if p == c then skipPiece? ps cs else none

/-- What follows the first occurrence of a piece. -/
def skipThrough? (piece : List Char) : List Char → Option (List Char)
  | [] => skipPiece? piece []
  | c :: cs => (skipPiece? piece (c :: cs)).or (skipThrough? piece cs)

/-- The pieces occur one after another, each after some gap, the last one at the end. -/
def fits : List (List Char) → List Char → Bool
  | [], s => s.isEmpty
  | [last], s => last.isSuffixOf s
  | piece :: pieces, s => (skipThrough? piece s).any (fits pieces)

/-- The texts between the percent signs, at least one. -/
def pieces (pattern : String) : List (List Char) := pattern.toList.splitOn '%'

def acceptsPieces : List (List Char) → List Char → Bool
  | [], s => s.isEmpty
  | first :: rest, s => (skipPiece? first s).any (fits rest)

def accepts (pattern text : String) : Bool :=
  acceptsPieces ((pieces pattern).map (·.map Text.fold)) (text.toList.map Text.fold)

end RecordQuery.Like
