import Mathlib.Algebra.Group.Nat.Defs
import RecordQuery.Proofs.Literal.Writing
import RecordQuery.Proofs.Order.Items
import RecordQuery.Proofs.Query.Clauses
import RecordQuery.Proofs.Select.Head

/-! Queries in writing. The clauses that are there follow the source in their order, each
with its body, and a semicolon may end the text. -/
namespace RecordQuery

/-- The parts of a query text. Lists that are empty stand for clauses that are not written. -/
structure WrittenQuery where
  items : List SelectItem
  distinct : Bool
  source : String
  filter : Option String
  groupBy : List String
  having : Option String
  orderBy : List WrittenOrder
  limit : Option Nat
  offset : Option Nat
  semicolon : Bool

namespace WrittenQuery

/-- Texts behind each other, with commas. -/
def listed : List (List Char) → Option (List Char)
  | [] => none
  | parts => some ([',', ' '].intercalate parts)

/-- The body of each clause that is written. -/
def body (w : WrittenQuery) : Clause → Option (List Char)
  | .filter => w.filter.map String.toList
  | .group => listed (w.groupBy.map String.toList)
  | .having => w.having.map String.toList
  | .order => listed (w.orderBy.map WrittenOrder.write)
  | .limit => w.limit.map (Nat.toDigits 10)
  | .offset => w.offset.map (Nat.toDigits 10)
  | _ => none

def tail (w : WrittenQuery) : List Char := if w.semicolon then [';'] else []

def write (w : WrittenQuery) : List Char :=
  SelectHead.write w.distinct ++ ([',', ' '].intercalate (w.items.map SelectItem.write) ++
    SelectHead.writeFrom (w.source.toList ++ (Clause.writeAll w.body Clause.sequence ++ w.tail)))

/-- What stands before the clauses. -/
def front (w : WrittenQuery) : List Char :=
  SelectHead.write w.distinct ++ ([',', ' '].intercalate (w.items.map SelectItem.write) ++
    SelectHead.writeFrom w.source.toList)

theorem write_eq (w : WrittenQuery) :
    w.write = w.front ++ (Clause.writeAll w.body Clause.sequence ++ w.tail) := by
  simp [write, front, SelectHead.writeFrom]

/-- The query that is meant. -/
def query (w : WrittenQuery) : Query where
  select := w.items
  distinct := w.distinct
  filter := w.filter.map fun text => ⟨text, Condition.read text⟩
  groupBy := w.groupBy
  having := w.having.map fun text => ⟨text, Condition.read text⟩
  orderBy := w.orderBy.map fun order => order.item w.items
  limit := w.limit
  offset := w.offset.getD 0

end WrittenQuery

/-- A text that can be the condition of a clause: in normal form, with no comma at its
start, no blank and no semicolon at its end, and without the words of another clause. -/
structure IsConditionText (clause : Clause) (text : String) : Prop where
  nonempty : text.toList ≠ []
  normal : Text.normalize text.toList = text.toList
  start : text.toList.head? ≠ some ','
  finish : Text.Stops (fun c => Text.isBlank c || c == ';') text.toList.reverse
  free : ∀ other ∈ Clause.sequence, other ≠ clause → other.occursIn text.toList = false

/-- Names are no reserved words, the names in GROUP BY and ORDER BY and the arguments of calls
are in lower case, and counts have 64 bits. -/
structure WrittenQuery.IsWritable (w : WrittenQuery) : Prop where
  nonempty : w.items ≠ []
  items : ∀ item ∈ w.items, item.IsWritable
  source : Text.IsFreeName w.source
  filter : ∀ text ∈ w.filter, IsConditionText .filter text
  groupBy : ∀ name ∈ w.groupBy, Text.IsFreeName name ∧ Text.lower name = name
  having : ∀ text ∈ w.having, IsConditionText .having text
  orderBy : ∀ order ∈ w.orderBy, order.IsWritable
  limit : ∀ n ∈ w.limit, n < 2 ^ 64
  offset : ∀ n ∈ w.offset, n < 2 ^ 64

namespace Clause

/-- Without the first word of a clause the clause is not in a text. -/
theorem occursIn_eq_false {clause : Clause} {keyword : Text.Keyword} (first : keyword ∈ clause.phrase.head?)
    {s : List Char} (lacks : Text.hasWholeKeyword keyword s = false) : clause.occursIn s = false := by
  obtain ⟨keywords, phrase⟩ := List.head?_eq_some_iff.mp (Option.mem_def.mp first)
  rw [occursIn, (seeks_words phrase).findWord?_eq_none lacks]
  rfl

def firstWords : List Text.Keyword := [.where, .group, .having, .order, .limit, .offset]

theorem mem_firstWords : ∀ clause ∈ sequence, ∀ keyword ∈ clause.phrase.head?, keyword ∈ firstWords := by
  decide

theorem firstWords_reserved : ∀ keyword ∈ firstWords, keyword ∈ Text.reserved ∧ keyword ≠ .from ∧
    keyword ≠ .as ∧ keyword ≠ .asc ∧ keyword ≠ .desc := by
  decide

theorem isPassage_letters (clause : Clause) (member : clause ∈ sequence) : Text.IsPassage clause.letters := by
  simp only [sequence, List.mem_cons, List.not_mem_nil, or_false] at member
  rcases member with rfl | rfl | rfl | rfl | rfl | rfl
  · exact .keyword .where
  · exact .space (.keyword .group) (.keyword .by)
  · exact .keyword .having
  · exact .space (.keyword .order) (.keyword .by)
  · exact .keyword .limit
  · exact .keyword .offset

/-- A text that may be in the body of any clause. -/
structure IsPlain (s : List Char) : Prop where
  nonempty : s ≠ []
  field : Text.IsField s
  noSemicolon : ';' ∉ s
  lacks : ∀ keyword ∈ firstWords, Text.hasWholeKeyword keyword s = false

theorem IsPlain.of_free {name : String} (free : Text.IsFreeName name) : IsPlain name.toList where
  nonempty := free.nonempty
  field := SelectItem.isField_name free
  noSemicolon := fun member => absurd (free.word _ member) (by decide)
  lacks := fun keyword member => free.hasWholeKeyword (firstWords_reserved keyword member).1

theorem isPlain_digits (n : Nat) : IsPlain (Nat.toDigits 10 n) := by
  have numeral := (allDigits_toDigits n).isNumeral
  have value {c : Char} (member : c ∈ Nat.toDigits 10 n) := Literal.toNat_of_isNumeral (numeral c member)
  refine ⟨Nat.toDigits_ne_nil, .of_solid (fun c member => Literal.isBlank_of_isNumeral (numeral c member)) ?_, ?_, ?_⟩
  · exact fun member => absurd (numeral _ member) (by decide)
  · exact fun member => absurd (numeral _ member) (by decide)
  · intro keyword member
    have first {k : Char} {ks : List Char} (letters : keyword.letters = k :: ks) (other : k ≠ 'E') :
        Text.hasWholeKeyword keyword (Nat.toDigits 10 n) = false := by
      have capital := Text.isCapital_letters keyword k (by simp [letters])
      exact Text.hasWholeKeyword_of_letter letters fun c inside =>
        Literal.sameLetter_of_isNumeral capital (numeral c inside) other
    simp only [firstWords, List.mem_cons, List.not_mem_nil, or_false] at member
    rcases member with rfl | rfl | rfl | rfl | rfl | rfl <;> exact first rfl (by decide)

/-- Plain texts with commas between them. -/
theorem isBody_intercalate (clause : Clause) {parts : List (List Char)} (some : parts ≠ [])
    (all : ∀ part ∈ parts, IsPlain part) :
    Text.IsPassage ([',', ' '].intercalate parts) ∧ clause.IsBody ([',', ' '].intercalate parts) := by
  have passage : Text.IsPassage ([',', ' '].intercalate parts) :=
    .intercalate_comma some fun part member => .of_field (all part member).field (all part member).nonempty
  have noSemicolon : ';' ∉ [',', ' '].intercalate parts := by
    intro member
    rcases Text.mem_intercalate member with glue | ⟨part, found, inside⟩
    · exact absurd glue (by decide)
    · exact (all part found).noSemicolon inside
  refine ⟨passage, passage.nonempty, passage.solid_start, fun c member => ?_, fun other member _ => ?_⟩
  · have other : c ≠ ';' := by
      rintro rfl
      exact noSemicolon (List.mem_reverse.mp (List.mem_of_mem_head? member))
    simp [passage.finish c member, other]
  · obtain ⟨keyword, first, _⟩ := exists_keyword other member
    have word := mem_firstWords other member keyword first
    exact occursIn_eq_false first
      (Text.hasWholeKeyword_intercalate_comma fun part inside => (all part inside).lacks keyword word)

end Clause

theorem WrittenOrder.IsWritable.isPlain_write {order : WrittenOrder} (writable : order.IsWritable) :
    Clause.IsPlain order.write := by
  obtain ⟨nonempty, field⟩ := WrittenOrder.isField_write writable
  have target : ';' ∉ order.target.write ∧ ∀ keyword ∈ Text.reserved,
      Text.hasWholeKeyword keyword order.target.write = false := by
    obtain ⟨operand, direction⟩ := order
    cases operand with
    | column name =>
      have free : Text.IsFreeName name := writable.1
      exact ⟨fun member => absurd (free.word _ member) (by decide), fun keyword => free.hasWholeKeyword⟩
    | aggregate call =>
      have free : call.IsFree := writable
      exact ⟨fun member => absurd (free.named.mem_text _ member) (by decide), fun keyword => free.hasWholeKeyword⟩
  obtain ⟨noSemicolon, lacks⟩ := target
  refine ⟨nonempty, field, ?_, fun keyword member => ?_⟩
  · have direction : ';' ∉ order.direction.write := by cases order.direction <;> decide
    simp [WrittenOrder.write, noSemicolon, direction]
  · have target := lacks keyword (Clause.firstWords_reserved keyword member).1
    have direction : ∀ keyword ∈ Clause.firstWords,
        Text.hasWholeKeyword keyword Text.Keyword.asc.letters = false ∧
          Text.hasWholeKeyword keyword Text.Keyword.desc.letters = false := by
      decide +kernel
    rw [WrittenOrder.write]
    cases order.direction with
    | unwritten => simpa [Direction.write] using target
    | ascending =>
      rw [Direction.write, Text.hasWholeKeyword_append keyword _ (by decide), target, (direction keyword member).1]
      rfl
    | descending =>
      rw [Direction.write, Text.hasWholeKeyword_append keyword _ (by decide), target, (direction keyword member).2]
      rfl

theorem IsConditionText.isBody {clause : Clause} {text : String} (condition : IsConditionText clause text) :
    Text.IsPassage text.toList ∧ clause.IsBody text.toList := by
  have solid : Text.Stops Text.isBlank text.toList.reverse := (Text.stops_or.mp condition.finish).1
  have passage : Text.IsPassage text.toList :=
    .of_normalize condition.normal condition.nonempty condition.start solid
  exact ⟨passage, condition.nonempty, passage.solid_start, condition.finish, condition.free⟩

namespace WrittenQuery

theorem follows_tail (w : WrittenQuery) : Clause.Follows [] w.tail := by
  rw [tail]
  split
  · exact .semicolon
  · exact .nothing

variable {w : WrittenQuery} (writable : w.IsWritable)

include writable

theorem isBody_body {clause : Clause} {b : List Char} (written : w.body clause = some b) :
    Text.IsPassage b ∧ clause.IsBody b := by
  have count {n : Option Nat} (written : n.map (Nat.toDigits 10) = some b) : Text.IsPassage b ∧ clause.IsBody b := by
    obtain ⟨n, _, rfl⟩ := Option.map_eq_some_iff.mp written
    have single : ∀ part ∈ [Nat.toDigits 10 n], Clause.IsPlain part := by simpa using Clause.isPlain_digits n
    simpa using Clause.isBody_intercalate clause (by simp) single
  have list {parts : List (List Char)} (all : ∀ part ∈ parts, Clause.IsPlain part) (written : listed parts = some b) :
      Text.IsPassage b ∧ clause.IsBody b := by
    cases parts with
    | nil => cases written
    | cons part parts =>
      obtain rfl := Option.some.inj written
      exact Clause.isBody_intercalate clause (by simp) all
  cases clause with
  | filter =>
    obtain ⟨text, found, rfl⟩ := Option.map_eq_some_iff.mp written
    exact (writable.filter text found).isBody
  | group =>
    refine list (fun part member => ?_) written
    obtain ⟨name, found, rfl⟩ := List.mem_map.mp member
    exact .of_free (writable.groupBy name found).1
  | having =>
    obtain ⟨text, found, rfl⟩ := Option.map_eq_some_iff.mp written
    exact (writable.having text found).isBody
  | order =>
    refine list (fun part member => ?_) written
    obtain ⟨order, found, rfl⟩ := List.mem_map.mp member
    exact (writable.orderBy order found).isPlain_write
  | limit => exact count written
  | offset => exact count written
  | query => cases written
  | select => cases written

theorem isPassage_list : Text.IsPassage ([',', ' '].intercalate (w.items.map SelectItem.write)) := by
  refine .intercalate_comma (by simpa using writable.nonempty) fun part member => ?_
  obtain ⟨item, found, rfl⟩ := List.mem_map.mp member
  obtain ⟨nonempty, field⟩ := SelectItem.isField_write (writable.items item found)
  exact .of_field field nonempty

theorem isPassage_front : Text.IsPassage w.front := by
  have source : Text.IsPassage w.source.toList :=
    .of_field (SelectItem.isField_name writable.source) writable.source.nonempty
  have later := (isPassage_list writable).space (.space (.keyword .from) source)
  rw [front, SelectHead.write]
  cases w.distinct with
  | true =>
    have head := Text.IsPassage.space (.keyword .select) (.space (.keyword .distinct) later)
    simpa [SelectHead.writeFrom] using head
  | false =>
    have head := Text.IsPassage.space (.keyword .select) later
    simpa [SelectHead.writeFrom] using head

/-- The whole text is in normal form. -/
theorem isPassage_write : Text.IsPassage w.write := by
  have clauses {cs : List Clause} (subset : cs ⊆ Clause.sequence) {s : List Char} (passage : Text.IsPassage s) :
      Text.IsPassage (s ++ Clause.writeAll w.body cs) := by
    induction cs generalizing s with
    | nil => simpa [Clause.writeAll] using passage
    | cons clause cs ih =>
      rw [List.cons_subset] at subset
      rw [Clause.writeAll_cons, ← List.append_assoc]
      refine ih subset.2 ?_
      cases written : w.body clause with
      | none => simpa using passage
      | some b =>
        have words := Clause.isPassage_letters clause subset.1
        simpa [Clause.write] using passage.space (words.space (isBody_body writable written).1)
  have text := clauses (List.Subset.refl _) (isPassage_front writable)
  rw [write_eq, ← List.append_assoc, tail]
  split
  · exact text.append_mark (by decide) (by decide)
  · simpa using text

/-- What stands before the clauses holds none of their words. -/
theorem hasWholeKeyword_front : ∀ clause ∈ Clause.sequence, ∀ keyword ∈ clause.phrase.head?,
    Text.hasWholeKeyword keyword w.front = false := by
  intro clause inside keyword first
  have member := Clause.mem_firstWords clause inside keyword first
  obtain ⟨reserved, other, other', _⟩ := Clause.firstWords_reserved keyword member
  have fixed : ∀ keyword ∈ Clause.firstWords, Text.hasWholeKeyword keyword Text.Keyword.select.letters = false ∧
      Text.hasWholeKeyword keyword Text.Keyword.distinct.letters = false ∧
      Text.hasWholeKeyword keyword Text.Keyword.from.letters = false := by
    decide +kernel
  obtain ⟨select, distinct, source⟩ := fixed keyword member
  have list : Text.hasWholeKeyword keyword ([',', ' '].intercalate (w.items.map SelectItem.write)) = false := by
    apply Text.hasWholeKeyword_intercalate_comma
    intro part inside
    obtain ⟨item, found, rfl⟩ := List.mem_map.mp inside
    exact SelectItem.hasWholeKeyword_write (writable.items item found) reserved other other'
  have later : Text.hasWholeKeyword keyword ([',', ' '].intercalate (w.items.map SelectItem.write) ++
      SelectHead.writeFrom w.source.toList) = false := by
    rw [SelectHead.writeFrom, Text.hasWholeKeyword_append keyword _ (by decide),
      Text.hasWholeKeyword_append keyword _ (by decide), list, source, writable.source.hasWholeKeyword reserved]
    rfl
  rw [front, SelectHead.write, List.append_assoc, List.cons_append, Text.hasWholeKeyword_append keyword _ (by decide),
    select]
  split
  · rw [List.append_assoc, List.singleton_append, Text.hasWholeKeyword_append keyword _ (by decide), distinct, later]
    rfl
  · simpa using later

end WrittenQuery
end RecordQuery
