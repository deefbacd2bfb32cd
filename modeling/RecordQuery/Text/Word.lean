import RecordQuery.Text.Blank
import RecordQuery.Text.WordRanges

/-! Names are made of word characters. A word ends where the next character is
none, and starts where the one before is none. -/
namespace RecordQuery.Text

def isWord (c : Char) : Bool :=
  if c.toNat < 0x80 then c.isAlphanum || c == '_'
  else wordRanges.any fun range => range.1 ≤ c.toNat && c.toNat ≤ range.2

/-- The text is one nonempty word. -/
def isName (s : List Char) : Bool := !s.isEmpty && s.all isWord

def wordEnds (rest : List Char) : Bool := !rest.head?.any isWord

def takeWord (s : List Char) : List Char := s.takeWhile isWord

def dropWord (s : List Char) : List Char := s.dropWhile isWord

theorem isAlphanum_iff (c : Char) : c.isAlphanum = true ↔
    (65 ≤ c.toNat ∧ c.toNat ≤ 90 ∨ 97 ≤ c.toNat ∧ c.toNat ≤ 122) ∨ 48 ≤ c.toNat ∧ c.toNat ≤ 57 := by
  delta Char.isAlphanum Char.isAlpha Char.isUpper Char.isLower Char.isDigit
  simp only [Bool.or_eq_true, Bool.and_eq_true, decide_eq_true_eq, ge_iff_le, UInt32.le_iff_toNat_le]
  rfl

theorem isWord_of_isAlphanum (c : Char) (h : c.isAlphanum = true) : isWord c = true := by
  have small : c.toNat < 0x80 := by
    have codes := (isAlphanum_iff c).mp h
    omega
  simp [isWord, small, h]

theorem takeWord_append_dropWord (s : List Char) : takeWord s ++ dropWord s = s :=
  List.takeWhile_append_dropWhile

end RecordQuery.Text
