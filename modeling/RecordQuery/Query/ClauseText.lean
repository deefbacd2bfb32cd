import RecordQuery.ReadError
import RecordQuery.Text.Keyword

/-! Where the clauses of a normalized query text are. Each clause is looked for on
its own in the whole text; its body goes on to the first later clause, or to the
end of the text and its semicolon. -/
namespace RecordQuery

namespace Clause

def phrase : Clause → List Text.Keyword
  | query => []
  | select => [.select]
  | filter => [.where]
  | group => [.group, .by]
  | having => [.having]
  | order => [.order, .by]
  | limit => [.limit]
  | offset => [.offset]

/-- The clauses that end the body of a clause. -/
def later : Clause → List Clause
  | filter => [group, having, order, limit, offset]
  | group => [having, order, limit, offset]
  | having => [order, limit, offset]
  | order => [limit, offset]
  | _ => []

/-- What follows the words of a clause and white space. -/
def opening? (clause : Clause) (s : List Char) : Option (List Char) :=
  (Text.skipPhrase? clause.phrase s).bind Text.skipBlanks?

/-- White space and the words of a clause start the text. -/
def startsAfterBlanks (clause : Clause) (s : List Char) : Bool :=
  ((Text.skipBlanks? s).bind (Text.skipPhrase? clause.phrase)).any Text.wordEnds

/-- Only a semicolon and white space are left, or neither. -/
def isTail (s : List Char) : Bool :=
  match s with
  | ';' :: rest => rest.all Text.isBlank
  | rest => rest.all Text.isBlank

/-- The text up to the tail or the first of these clauses. -/
def takeBody (stops : List Clause) : List Char → List Char
  | [] => []
  | c :: cs =>
    if isTail (c :: cs) || stops.any (·.startsAfterBlanks (c :: cs)) then []
    else c :: takeBody stops cs

/-- The body without white space and semicolons at its ends. -/
def trimBody (body : List Char) : List Char :=
  Text.trimEnd ((Text.trim body).reverse.dropWhile (· = ';')).reverse

/-- The body of a clause, if the clause is written. -/
def body? (clause : Clause) (text : List Char) : Option (List Char) :=
  (Text.findWord? clause.opening? false text).map fun rest => trimBody (takeBody clause.later rest)

/-- The word after a clause: anything but white space and semicolons. -/
def word? (clause : Clause) (text : List Char) : Option (List Char) :=
  Text.findWord? (fun s => (clause.opening? s).bind fun rest =>
    let word := rest.takeWhile fun c => !Text.isBlank c && c ≠ ';'
    if word.isEmpty then none else some word) false text

end Clause

/-- The text from SELECT on, what follows SELECT or SELECT DISTINCT, and whether the
latter is written. -/
structure SelectHead where
  whole : List Char
  list : List Char
  distinct : Bool

namespace SelectHead

def read? (s : List Char) : Option SelectHead :=
  (Clause.select.opening? s).map fun rest =>
    match (Text.skipKeyword? .distinct rest).bind Text.skipBlanks? with
    | some list => ⟨s, list, true⟩
    | none => ⟨s, rest, false⟩

def find? (text : List Char) : Option SelectHead := Text.findWord? read? false text

def startsFrom (s : List Char) : Bool :=
  ((Text.skipBlanks? s).bind (Text.skipWholeKeyword? .from)).isSome

/-- The parentheses left open after a character. Those closed too often count as fewer than none. -/
def openAfter (opened : Int) (c : Char) : Int :=
  if c = '(' then opened + 1 else if c = ')' then opened - 1 else opened

/-- The text before the first FROM outside parentheses. -/
def beforeFrom? : (opened : Int) → List Char → Option (List Char)
  | _, [] => none
  | opened, c :: cs =>
    if opened ≤ 0 && startsFrom (c :: cs) then some []
    else (beforeFrom? (openAfter opened c) cs).map (c :: ·)

/-- The text of the select list. A query without FROM has none. -/
def listText? (head : SelectHead) : Option (List Char) :=
  (beforeFrom? 0 head.whole).map fun before =>
    Text.trim (before.drop (head.whole.length - head.list.length))

end SelectHead
end RecordQuery
