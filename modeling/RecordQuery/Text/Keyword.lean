import RecordQuery.Text.CaseFold
import RecordQuery.Text.Separator
import RecordQuery.Text.Word

/-! The words of the query language. Letter case is folded when a word is
recognised; readers below return what follows it. -/
namespace RecordQuery.Text

inductive Keyword where
  | select | distinct | «from» | «where» | group | «by» | having | order | limit | offset
  | «as» | asc | desc | extract | or | and | not | null | like | ilike | «in» | between | is
  deriving DecidableEq, Repr

namespace Keyword

def letters : Keyword → List Char
  | select => ['S', 'E', 'L', 'E', 'C', 'T']
  | distinct => ['D', 'I', 'S', 'T', 'I', 'N', 'C', 'T']
  | «from» => ['F', 'R', 'O', 'M']
  | «where» => ['W', 'H', 'E', 'R', 'E']
  | group => ['G', 'R', 'O', 'U', 'P']
  | «by» => ['B', 'Y']
  | having => ['H', 'A', 'V', 'I', 'N', 'G']
  | order => ['O', 'R', 'D', 'E', 'R']
  | limit => ['L', 'I', 'M', 'I', 'T']
  | offset => ['O', 'F', 'F', 'S', 'E', 'T']
  | «as» => ['A', 'S']
  | asc => ['A', 'S', 'C']
  | desc => ['D', 'E', 'S', 'C']
  | extract => ['E', 'X', 'T', 'R', 'A', 'C', 'T']
  | or => ['O', 'R']
  | and => ['A', 'N', 'D']
  | not => ['N', 'O', 'T']
  | null => ['N', 'U', 'L', 'L']
  | like => ['L', 'I', 'K', 'E']
  | ilike => ['I', 'L', 'I', 'K', 'E']
  | «in» => ['I', 'N']
  | between => ['B', 'E', 'T', 'W', 'E', 'E', 'N']
  | is => ['I', 'S']

end Keyword

/-- What follows the letters, each matched up to case folding. -/
def skipLetters? : List Char → List Char → Option (List Char)
  | [], s => some s
  | _ :: _, [] => none
  | k :: ks, c :: cs => if sameLetter k c then skipLetters? ks cs else none

def skipKeyword? (keyword : Keyword) (s : List Char) : Option (List Char) :=
  skipLetters? keyword.letters s

/-- What follows a keyword that is a whole word. -/
def skipWholeKeyword? (keyword : Keyword) (s : List Char) : Option (List Char) :=
  (skipKeyword? keyword s).filter wordEnds

/-- What follows keywords with white space between them. -/
def skipPhrase? : List Keyword → List Char → Option (List Char)
  | [], s => some s
  | [keyword], s => skipKeyword? keyword s
  | keyword :: keywords, s =>
    (skipKeyword? keyword s).bind fun rest => (skipBlanks? rest).bind (skipPhrase? keywords)

/-- The first reading that starts where no word goes on. The flag says whether the
character before the text is part of a word. -/
def findWord? (read : List Char → Option α) : (afterWord : Bool) → List Char → Option α
  | _, [] => none
  | afterWord, c :: cs =>
    (if afterWord then none else read (c :: cs)).or (findWord? read (isWord c) cs)

def hasWholeKeyword (keyword : Keyword) (s : List Char) : Bool :=
  (findWord? (skipWholeKeyword? keyword) false s).isSome

/-- A keyword with white space on both sides. -/
def Separator.keyword (keyword : Keyword) : Separator := fun s =>
  (skipBlanks? s).bind fun start => (skipKeyword? keyword start).bind fun rest =>
    if blankRun rest = 0 then none
    else some (blankRun s + keyword.letters.length + blankRun rest)

end RecordQuery.Text
