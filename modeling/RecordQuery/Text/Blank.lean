/-! White space is the twenty-five code points of the Unicode property. A text
is trimmed at both ends, and `collapse` writes each run of it as one space. -/
namespace RecordQuery.Text

def blanks : List Nat :=
  [0x20, 0x09, 0x0A, 0x0B, 0x0C, 0x0D, 0x85, 0xA0, 0x1680, 0x2000, 0x2001, 0x2002, 0x2003, 0x2004,
    0x2005, 0x2006, 0x2007, 0x2008, 0x2009, 0x200A, 0x2028, 0x2029, 0x202F, 0x205F, 0x3000]

def isBlank (c : Char) : Bool := blanks.contains c.toNat

def trimStart (s : List Char) : List Char := s.dropWhile isBlank

def trimEnd (s : List Char) : List Char := (s.reverse.dropWhile isBlank).reverse

def trim (s : List Char) : List Char := trimEnd (trimStart s)

/-- The length of the white space that starts a text. -/
def blankRun (s : List Char) : Nat := (s.takeWhile isBlank).length

/-- The last blank of each run stands for the run. -/
def collapse : List Char → List Char
  | [] => []
  | c :: cs =>
    if isBlank c then
      if cs.head?.any isBlank then collapse cs else ' ' :: collapse cs
    else c :: collapse cs

/-- What follows one or more blanks. -/
def skipBlanks? : List Char → Option (List Char)
  | [] => none
  | c :: cs => if isBlank c then some (trimStart cs) else none

/-- What follows this very character. -/
def skipChar? (expected : Char) : List Char → Option (List Char)
  | [] => none
  | c :: cs => if c = expected then some cs else none

end RecordQuery.Text
