import RecordQuery.Literal
import RecordQuery.Proofs.Number.Notation
import RecordQuery.Proofs.Text.Pieces

/-! Literals in writing. What is written reads back, and nothing in it would part a
condition. -/
namespace RecordQuery

/-- A text that reads back in quotes: on one line, with neither AND nor OR between blanks,
and without the word BETWEEN. -/
structure IsQuotable (s : String) : Prop where
  oneLine : '\n' ∉ s.toList
  noAnd : (Text.Separator.keyword .and).cut? s.toList = none
  noOr : (Text.Separator.keyword .or).cut? s.toList = none
  noBetween : Text.hasWholeKeyword .between s.toList = false

/-- The values that a literal stands for. -/
inductive IsLiteral : Value → Prop
  | null : IsLiteral .null
  | bool (b : Bool) : IsLiteral (.bool b)
  | whole {i : Int} (signed : IsSigned64 i) (fits : IsWhole64 i) : IsLiteral (.number (.whole i fits))
  | float (x : Binary64) : IsLiteral (.number (.float x))
  | text {s : String} : IsQuotable s → IsLiteral (.text s)

/-- A literal inside a list has no comma and no parenthesis. -/
structure IsListLiteral (v : Value) : Prop where
  literal : IsLiteral v
  plain : ∀ s, v = .text s → ',' ∉ s.toList ∧ '(' ∉ s.toList ∧ ')' ∉ s.toList

namespace Literal

def quote (s : String) : List Char := '\'' :: (s.toList ++ ['\''])

/-- Lists and objects have no literal. -/
def write : Value → List Char
  | .null => ['N', 'U', 'L', 'L']
  | .bool true => ['t', 'r', 'u', 'e']
  | .bool false => ['f', 'a', 'l', 's', 'e']
  | .number n => n.text
  | .text s => quote s
  | .list _ | .object _ => []

def writeList (literals : List Value) : List Char :=
  '(' :: ([',', ' '].intercalate (literals.map write) ++ [')'])

theorem toNat_of_isNumeral {c : Char} (numeral : isNumeral c = true) :
    48 ≤ c.toNat ∧ c.toNat ≤ 57 ∨ c.toNat = 45 ∨ c.toNat = 43 ∨ c.toNat = 46 ∨ c.toNat = 101 := by
  simp only [isNumeral, Char.isDigit, Bool.or_eq_true, Bool.and_eq_true, decide_eq_true_eq, beq_iff_eq,
    ge_iff_le, UInt32.le_iff_toNat_le] at numeral
  rcases numeral with (((digit | rfl) | rfl) | rfl) | rfl
  · exact .inl digit
  all_goals decide

theorem isBlank_of_isNumeral {c : Char} (numeral : isNumeral c = true) : Text.isBlank c = false := by
  have value := toNat_of_isNumeral numeral
  rw [Bool.eq_false_iff]
  intro blank
  simp only [Text.isBlank, Text.blanks, List.contains_eq_mem, decide_eq_true_eq, List.mem_cons,
    List.not_mem_nil, or_false] at blank
  omega

theorem sameLetter_of_isNumeral {k c : Char} (capital : Text.IsCapital k)
    (numeral : isNumeral c = true) (other : k ≠ 'E') : Text.sameLetter k c = false := by
  have value := toNat_of_isNumeral numeral
  rw [Bool.eq_false_iff]
  intro same
  have letter : k.toNat ≠ 69 := fun equal => other (Char.toNat_inj.mp equal)
  have cases := Text.sameLetter_cases capital same
  unfold Text.IsCapital at capital
  omega

theorem hasWholeKeyword_numeral {keyword : Text.Keyword} (member : keyword ∈ [.and, .or, .between])
    {s : List Char} (numeral : ∀ c ∈ s, isNumeral c = true) :
    Text.hasWholeKeyword keyword s = false := by
  have first {k : Char} {ks : List Char} (letters : keyword.letters = k :: ks) (other : k ≠ 'E') :
      Text.hasWholeKeyword keyword s = false := by
    have capital := Text.isCapital_letters keyword k (by rw [letters]; exact List.mem_cons_self)
    exact Text.hasWholeKeyword_of_letter letters fun c inside =>
      sameLetter_of_isNumeral capital (numeral c inside) other
  simp only [List.mem_cons, List.not_mem_nil, or_false] at member
  rcases member with rfl | rfl | rfl
  · exact first rfl (by decide)
  · exact first rfl (by decide)
  · exact first rfl (by decide)

/-- No literal holds the word BETWEEN. -/
theorem hasWholeKeyword_quote {s : String} (quotable : IsQuotable s) :
    Text.hasWholeKeyword .between (quote s) = false := by
  rw [quote, Text.hasWholeKeyword_cons .between (by decide), Text.hasWholeKeyword_append .between _ (by decide),
    quotable.noBetween, Text.hasWholeKeyword_nil]
  rfl

theorem hasWholeKeyword_write {v : Value} (literal : IsLiteral v) :
    Text.hasWholeKeyword .between (write v) = false := by
  cases literal with
  | null => decide +kernel
  | bool b => cases b <;> decide +kernel
  | @whole i signed fits =>
    exact hasWholeKeyword_numeral (by decide) (Number.isNumeral_text (.whole i fits))
  | float x => exact hasWholeKeyword_numeral (by decide) (Number.isNumeral_text (.float x))
  | text quotable => exact hasWholeKeyword_quote quotable

section

variable {keyword : Text.Keyword} (member : keyword = .and ∨ keyword = .or)

include member

theorem isPiece_quote {s : String} (quotable : IsQuotable s) : Text.IsPiece keyword (quote s) := by
  have uncut : (Text.Separator.keyword keyword).cut? s.toList = none := by
    rcases member with rfl | rfl
    · exact quotable.noAnd
    · exact quotable.noOr
  exact .enclosed (by decide) (by decide) (by decide) quotable.oneLine fun rest =>
    Text.Separator.quiet_of_cut? keyword uncut (by decide) (by decide) rest

theorem isPiece_number (n : Number) : Text.IsPiece keyword n.text := by
  refine .of_solid n.text_ne_nil (fun c inside => isBlank_of_isNumeral (n.isNumeral_text c inside)) ?_
  apply Text.skipWholeKeyword?_of_hasWholeKeyword
  rcases member with rfl | rfl
  · exact hasWholeKeyword_numeral (by decide) n.isNumeral_text
  · exact hasWholeKeyword_numeral (by decide) n.isNumeral_text

theorem isPiece_write {v : Value} (literal : IsLiteral v) : Text.IsPiece keyword (write v) := by
  cases literal with
  | null => rcases member with rfl | rfl <;> exact .of_solid (by decide) (by decide) (by decide +kernel)
  | bool b =>
    rcases member with rfl | rfl <;> cases b <;>
      exact .of_solid (by decide) (by decide) (by decide +kernel)
  | @whole i signed fits => exact isPiece_number member (.whole i fits)
  | float x => exact isPiece_number member (.float x)
  | text quotable => exact isPiece_quote member quotable

theorem isPiece_writeList {literals : List Value} (all : ∀ literal ∈ literals, IsLiteral literal) :
    Text.IsPiece keyword (writeList literals) := by
  cases literals with
  | nil => rcases member with rfl | rfl <;> exact .of_solid (by decide) (by decide) (by decide +kernel)
  | cons literal literals =>
    have items := Text.IsPiece.intercalate_comma (by simp) fun part (inside : part ∈
        (literal :: literals).map write) => by
      obtain ⟨v, found, rfl⟩ := List.mem_map.mp inside
      exact isPiece_write member (all v found)
    exact .enclosed (by decide) (by decide) (by decide) items.oneLine fun rest =>
      items.quiet _ ((Text.stops_cons ..).mpr (by decide))

end

theorem hasWholeKeyword_writeList {literals : List Value} (all : ∀ literal ∈ literals, IsLiteral literal) :
    Text.hasWholeKeyword .between (writeList literals) = false := by
  have items : Text.hasWholeKeyword .between ([',', ' '].intercalate (literals.map write)) = false := by
    apply Text.hasWholeKeyword_intercalate_comma
    intro part member
    obtain ⟨v, found, rfl⟩ := List.mem_map.mp member
    exact hasWholeKeyword_write (all v found)
  rw [writeList, Text.hasWholeKeyword_cons .between (by decide), Text.hasWholeKeyword_append .between _ (by decide),
    items]
  rfl

theorem unquote_quote (s : String) : unquote (quote s) = s.toList := by
  rw [quote, unquote, if_pos (by simp), List.dropLast_concat]

/-- A text in quotes is no number. -/
theorem readNumber?_quote (s : String) : readNumber? (quote s) = none := by
  have mark : '\'' ∈ quote s := List.mem_cons_self
  have whole : readInt? (quote s) = none := readInt?_eq_none mark (by decide) (by decide) (by decide)
  have sign : splitSign (quote s) = (false, quote s) := rfl
  have point : Decimal.splitPoint (quote s) = ([], [], quote s) := rfl
  have decimal : Decimal.read? (quote s) = none := by
    rw [Decimal.read?, sign]
    dsimp only
    rw [point]
    rfl
  rw [readNumber?, whole, Binary64.ofText?, decimal]
  rfl

theorem readTrimmed_number {n m : Number} (read : readNumber? n.text = some m) :
    readTrimmed n.text = .number m := by
  have word {s : List Char} (c : Char) (inside : c ∈ s) (plain : isNumeral c = false) : n.text ≠ s := by
    intro same
    rw [n.isNumeral_text c (by rw [same]; exact inside)] at plain
    cases plain
  have null : ¬ (n.text = ['N', 'U', 'L', 'L'] ∨ n.text = ['n', 'u', 'l', 'l']) := by
    rintro (same | same)
    · exact word 'N' (by simp) (by decide) same
    · exact word 'n' (by simp) (by decide) same
  rw [readTrimmed, if_neg null, if_neg (word 't' (by simp) (by decide)),
    if_neg (word 'f' (by simp) (by decide)), read]

theorem readTrimmed_write {v : Value} (literal : IsLiteral v) : readTrimmed (write v) = v := by
  cases literal with
  | null => rfl
  | bool b => cases b <;> rfl
  | @whole i signed fits =>
    refine readTrimmed_number (n := .whole i fits) ?_
    rw [readNumber?, show (Number.whole i fits).text = Number.intText i from rfl, readInt?_intText,
      Option.bind_some, if_pos signed, Number.ofInt?, dif_pos fits]
    rfl
  | float x =>
    refine readTrimmed_number (n := .float x) ?_
    rw [readNumber?, show (Number.float x).text = x.text from rfl, Binary64.readInt?_text,
      Binary64.ofText?_text]
    rfl
  | @text s quotable =>
    have word {s' : List Char} (first : s'.head? ≠ some '\'') : quote s ≠ s' := by
      rintro rfl
      exact first rfl
    have null : ¬ (quote s = ['N', 'U', 'L', 'L'] ∨ quote s = ['n', 'u', 'l', 'l']) := by
      rintro (same | same)
      · exact word (by decide) same
      · exact word (by decide) same
    show readTrimmed (quote s) = _
    rw [readTrimmed, if_neg null, if_neg (word (by decide)), if_neg (word (by decide)),
      readNumber?_quote]
    dsimp only
    rw [unquote_quote, String.ofList_toList]

theorem read_write {v : Value} (literal : IsLiteral v) : read (write v) = v := by
  rw [read, (isPiece_write (.inl rfl) literal).trim, readTrimmed_write literal]

/-- A list literal holds none of the marks of a list. -/
theorem marks_notMem_write {v : Value} (literal : IsListLiteral v) {c : Char}
    (mark : c = ',' ∨ c = '(' ∨ c = ')') : c ∉ write v := by
  have number (n : Number) : c ∉ n.text := by
    intro member
    have numeral := n.isNumeral_text c member
    rcases mark with rfl | rfl | rfl <;> exact absurd numeral (by decide)
  cases found : literal.literal with
  | null => rcases mark with rfl | rfl | rfl <;> decide
  | bool b => rcases mark with rfl | rfl | rfl <;> cases b <;> decide
  | @whole i signed fits => exact number (.whole i fits)
  | float x => exact number (.float x)
  | @text s quotable =>
    obtain ⟨comma, first, last⟩ := literal.plain s rfl
    rcases mark with rfl | rfl | rfl
    · simpa [write, quote] using comma
    · simpa [write, quote] using first
    · simpa [write, quote] using last

theorem intercalate_comma_space (first : List Char) (others : List (List Char)) :
    [',', ' '].intercalate (first :: others) =
      [','].intercalate (first :: others.map fun part => ' ' :: part) := by
  induction others generalizing first with
  | nil => rfl
  | cons next others ih =>
    rw [List.map_cons, List.intercalate_cons_cons, List.intercalate_cons_cons,
      List.intercalate_cons_cons_left, ih]
    simp

theorem filter_writeList {literals : List Value} (all : ∀ literal ∈ literals, IsListLiteral literal) :
    (writeList literals).filter (fun c => c ≠ '(' && c ≠ ')') =
      [',', ' '].intercalate (literals.map write) := by
  have kept : ([',', ' '].intercalate (literals.map write)).filter (fun c => c ≠ '(' && c ≠ ')') =
      [',', ' '].intercalate (literals.map write) := by
    rw [List.filter_eq_self]
    intro c member
    have plain : c ≠ '(' ∧ c ≠ ')' := by
      rcases Text.mem_intercalate member with glue | ⟨part, written, inside⟩
      · constructor <;> rintro rfl <;> exact absurd glue (by decide)
      · obtain ⟨v, found, rfl⟩ := List.mem_map.mp written
        constructor <;> rintro rfl <;> exact marks_notMem_write (all v found) (by decide) inside
    simp [plain]
  rw [writeList, List.filter_cons_of_neg (by decide), List.filter_append, kept]
  simp

/-- A list reads back, the empty one too. -/
theorem readList_writeList {literals : List Value} (all : ∀ literal ∈ literals, IsListLiteral literal) :
    readList (writeList literals) = literals := by
  have piece {v : Value} (member : v ∈ literals) : Text.IsPiece .and (write v) :=
    isPiece_write (.inl rfl) (all v member).literal
  rw [readList, filter_writeList all]
  cases literals with
  | nil => rfl
  | cons first others =>
    have comma : ∀ part ∈ write first :: (others.map write).map (' ' :: ·), ',' ∉ part := by
      intro part member
      rcases List.mem_cons.mp member with rfl | member
      · exact marks_notMem_write (all first List.mem_cons_self) (.inl rfl)
      · simp only [List.map_map, List.mem_map, Function.comp_apply] at member
        obtain ⟨v, found, rfl⟩ := member
        have absent := marks_notMem_write (all v (List.mem_cons_of_mem _ found)) (.inl rfl)
        simpa using absent
    have items : (write first :: (others.map write).map (' ' :: ·)).map Text.trim =
        (first :: others).map write := by
      rw [List.map_cons, List.map_cons, (piece List.mem_cons_self).trim, List.map_map, List.map_map]
      congr 1
      refine List.map_congr_left fun v member => ?_
      show Text.trim (' ' :: write v) = write v
      rw [Text.trim_space]
      exact (piece (List.mem_cons_of_mem _ member)).trim
    have full : ((first :: others).map write).filter (fun item => !item.isEmpty) =
        (first :: others).map write := by
      rw [List.filter_eq_self]
      intro part member
      obtain ⟨v, found, rfl⟩ := List.mem_map.mp member
      simpa using (piece found).nonempty
    rw [List.map_cons, intercalate_comma_space, List.splitOn_intercalate ',' comma (by simp), items, full,
      List.map_map]
    refine (List.map_congr_left fun v member => ?_).trans (List.map_id _)
    exact readTrimmed_write (all v member).literal

end Literal
end RecordQuery
