import RecordQuery.Condition.Reading
import RecordQuery.Proofs.Aggregate.ReadBack
import RecordQuery.Proofs.Literal.Writing
import RecordQuery.Proofs.Text.FreeNames

/-! The written form of conditions. Its parts hold neither AND nor OR between blanks, so that
it is parted where its parts were joined. -/
namespace RecordQuery

def Operand.write : Operand → List Char
  | column name => name.toList
  | aggregate call => call.text.toList

/-- The right side of a comparison. -/
def Test.write : Test → List Char
  | compare _ literal => Literal.write literal
  | oneOf literals => Literal.writeList literals
  | between low high => Literal.write low ++ (Text.Keyword.and.glue ++ Literal.write high)
  | like pattern | ilike pattern => Literal.quote pattern
  | null false => ['N', 'U', 'L', 'L']
  | null true => ['N', 'O', 'T', ' ', 'N', 'U', 'L', 'L']

namespace Condition

def writeTest (operand : Operand) (operator : Operator) (right : List Char) : List Char :=
  operand.write ++ ' ' :: (operator.text.toList ++ ' ' :: right)

mutual

/-- Comparisons are joined by AND, and arms by OR. -/
def write : Condition → List Char
  | any arms => Text.Keyword.or.glue.intercalate (writeMembers arms)
  | all parts => Text.Keyword.and.glue.intercalate (writeMembers parts)
  | test operand t => writeTest operand t.operator t.write
  | malformed text _ => text.toList

def writeMembers : List Condition → List (List Char)
  | [] => []
  | condition :: conditions => write condition :: writeMembers conditions

end

@[simp] theorem writeMembers_eq (conditions : List Condition) :
    writeMembers conditions = conditions.map write := by
  induction conditions with
  | nil => rfl
  | cons condition conditions ih => simp [writeMembers, ih]

end Condition

/-- A name in lower case that is no keyword where conditions are parted. -/
structure IsColumnName (s : String) : Prop extends Text.IsLowerName s where
  free : s ∉ ["and", "or", "between"]

inductive Operand.IsWritable : Operand → Prop
  | column {name : String} : IsColumnName name → IsWritable (.column name)
  | countRows : IsWritable (.aggregate ⟨.count, none⟩)
  | aggregate {function : Aggregate.Function} {field : String} :
      IsColumnName field → IsWritable (.aggregate ⟨function, some field⟩)

inductive Test.IsWritable : Test → Prop
  | compare {comparison : Comparison} {literal : Value} :
      IsLiteral literal → IsWritable (.compare comparison literal)
  | oneOf {literals : List Value} :
      (∀ literal ∈ literals, IsListLiteral literal) → IsWritable (.oneOf literals)
  | between {low high : Value} : IsLiteral low → IsLiteral high → IsWritable (.between low high)
  | like {pattern : String} : IsQuotable pattern → IsWritable (.like pattern)
  | ilike {pattern : String} : IsQuotable pattern → IsWritable (.ilike pattern)
  | null (negated : Bool) : IsWritable (.null negated)

namespace Condition

inductive IsAtom : Condition → Prop
  | test {operand : Operand} {t : Test} : operand.IsWritable → t.IsWritable → IsAtom (.test operand t)

/-- One comparison, or several joined by AND. -/
inductive IsArm : Condition → Prop
  | atom {condition : Condition} : condition.IsAtom → IsArm condition
  | all {parts : List Condition} :
      2 ≤ parts.length → (∀ part ∈ parts, part.IsAtom) → IsArm (.all parts)

/-- One arm, or several joined by OR. -/
inductive IsWritable : Condition → Prop
  | arm {condition : Condition} : condition.IsArm → IsWritable condition
  | any {arms : List Condition} :
      2 ≤ arms.length → (∀ arm ∈ arms, arm.IsArm) → IsWritable (.any arms)

end Condition

theorem IsColumnName.hasWholeKeyword {name : String} (column : IsColumnName name)
    {keyword : Text.Keyword} (member : keyword = .and ∨ keyword = .or ∨ keyword = .between) :
    Text.hasWholeKeyword keyword name.toList = false := by
  have word := (Text.isName_iff.mp column.name).2
  have lower : name.toList.map Char.toLower = name.toList := by
    rw [← Text.toList_lower, column.lower]
  have letters : ∀ k ∈ keyword.letters, Text.IsCapital k ∧ k ≠ 'S' ∧ k ≠ 'K' := by
    rcases member with rfl | rfl | rfl <;> decide
  have spelled : name.toList ≠ keyword.letters.map Char.toLower := by
    intro same
    refine column.free ?_
    rcases member with rfl | rfl | rfl
    · rw [show name = "and" from String.toList_inj.mp same]
      decide
    · rw [show name = "or" from String.toList_inj.mp same]
      decide
    · rw [show name = "between" from String.toList_inj.mp same]
      decide
  refine Text.hasWholeKeyword_of_word word fun skip => spelled ?_
  exact (Text.eq_of_skipLetters? letters lower skip).trans (List.append_nil _)

namespace Operand

theorem hasWholeKeyword_write {operand : Operand} (writable : operand.IsWritable)
    {keyword : Text.Keyword} (member : keyword = .and ∨ keyword = .or ∨ keyword = .between) :
    Text.hasWholeKeyword keyword operand.write = false := by
  have name (function : Aggregate.Function) :
      Text.hasWholeKeyword keyword function.name.toList = false := by
    rcases member with rfl | rfl | rfl <;> cases function <;> decide +kernel
  cases writable with
  | column column => exact column.hasWholeKeyword member
  | countRows =>
    refine Aggregate.Call.hasWholeKeyword_text (name .count) ?_
    rcases member with rfl | rfl | rfl <;> decide +kernel
  | aggregate column => exact Aggregate.Call.hasWholeKeyword_text (name _) (column.hasWholeKeyword member)

theorem solid_write {operand : Operand} (writable : operand.IsWritable) :
    operand.write ≠ [] ∧ ∀ c ∈ operand.write, Text.isBlank c = false := by
  cases writable with
  | column column =>
    obtain ⟨nonempty, word⟩ := Text.isName_iff.mp column.name
    exact ⟨nonempty, fun c member => Text.isBlank_of_isWord (word c member)⟩
  | countRows => decide
  | @aggregate function field column =>
    have named : Aggregate.Call.WellNamed ⟨function, some field⟩ := column.toIsLowerName
    exact named.solid_text

theorem isPiece_write {operand : Operand} (writable : operand.IsWritable) {keyword : Text.Keyword}
    (member : keyword = .and ∨ keyword = .or) : Text.IsPiece keyword operand.write := by
  obtain ⟨nonempty, solid⟩ := solid_write writable
  refine .of_solid nonempty solid (Text.skipWholeKeyword?_of_hasWholeKeyword ?_)
  exact hasWholeKeyword_write writable (member.imp_right .inl)

end Operand

theorem Operator.isPiece_text (operator : Operator) {keyword : Text.Keyword}
    (member : keyword = .and ∨ keyword = .or) : Text.IsPiece keyword operator.text.toList := by
  have solid : operator.text.toList ≠ [] ∧ ∀ c ∈ operator.text.toList, Text.isBlank c = false := by
    cases operator with
    | comparison comparison => cases comparison <;> decide
    | _ => decide
  refine .of_solid solid.1 solid.2 ?_
  rcases member with rfl | rfl
  · cases operator with
    | comparison comparison => cases comparison <;> decide +kernel
    | _ => decide +kernel
  · cases operator with
    | comparison comparison => cases comparison <;> decide +kernel
    | _ => decide +kernel

/-- The word BETWEEN is an operator and nothing else. -/
theorem Operator.hasWholeKeyword_text (operator : Operator) :
    Text.hasWholeKeyword .between operator.text.toList = (operator == .between) := by
  cases operator with
  | comparison comparison => cases comparison <;> decide +kernel
  | _ => decide +kernel

theorem isPiece_and : Text.IsPiece .or Text.Keyword.and.letters :=
  .of_solid (by decide) (by decide) (by decide +kernel)

/-- Only between bounds there is an AND. -/
theorem Test.IsWritable.isPiece_write {t : Test} (writable : t.IsWritable) {keyword : Text.Keyword}
    (member : keyword = .and ∨ keyword = .or) (bounds : t.operator = .between → keyword = .or) :
    Text.IsPiece keyword t.write := by
  cases writable with
  | compare literal => exact Literal.isPiece_write member literal
  | oneOf all => exact Literal.isPiece_writeList member fun v inside => (all v inside).literal
  | @between low high literal literal' =>
    obtain rfl := bounds rfl
    have joined : Text.Keyword.and.glue.intercalate [Literal.write low, Literal.write high] =
        (Test.between low high).write := by
      rw [List.intercalate_cons_cons, List.intercalate_singleton, List.append_assoc]
      rfl
    rw [← joined]
    refine .intercalate_glue isPiece_and (by simp) fun part inside => ?_
    rcases List.mem_cons.mp inside with rfl | inside
    · exact Literal.isPiece_write member literal
    · rw [List.mem_singleton.mp inside]
      exact Literal.isPiece_write member literal'
  | like quotable => exact Literal.isPiece_quote member quotable
  | ilike quotable => exact Literal.isPiece_quote member quotable
  | null negated =>
    have null : Text.IsPiece keyword ['N', 'U', 'L', 'L'] := by
      rcases member with rfl | rfl <;> exact .of_solid (by decide) (by decide) (by decide +kernel)
    have not : Text.IsPiece keyword ['N', 'O', 'T'] := by
      rcases member with rfl | rfl <;> exact .of_solid (by decide) (by decide) (by decide +kernel)
    cases negated with
    | false => exact null
    | true => exact not.space null

namespace Condition

theorem isPiece_writeTest {operand : Operand} (writable : operand.IsWritable) (operator : Operator)
    {keyword : Text.Keyword} (member : keyword = .and ∨ keyword = .or) {right : List Char}
    (piece : Text.IsPiece keyword right) : Text.IsPiece keyword (writeTest operand operator right) :=
  (operand.isPiece_write writable member).space ((operator.isPiece_text member).space piece)

theorem hasWholeKeyword_writeTest {operand : Operand} (writable : operand.IsWritable)
    (operator : Operator) (right : List Char) :
    Text.hasWholeKeyword .between (writeTest operand operator right) =
      (operator == .between || Text.hasWholeKeyword .between right) := by
  rw [writeTest, Text.hasWholeKeyword_append _ _ (by decide), Text.hasWholeKeyword_append _ _ (by decide),
    operand.hasWholeKeyword_write writable (.inr (.inr rfl)), operator.hasWholeKeyword_text]
  rfl

/-- The texts that a comparison falls into where AND is a separator. -/
def segments : Condition → List (List Char)
  | test operand (.between low high) =>
    [writeTest operand .between (Literal.write low), Literal.write high]
  | condition => [condition.write]

theorem segments_ne_nil (condition : Condition) : condition.segments ≠ [] := by
  unfold segments
  split <;> simp

theorem intercalate_segments (condition : Condition) :
    Text.Keyword.and.glue.intercalate condition.segments = condition.write := by
  unfold segments
  split
  next operand low high =>
    rw [List.intercalate_cons_cons, List.intercalate_singleton]
    simp [write, writeTest, Test.write, Test.operator]
  next => exact List.intercalate_singleton

theorem isPiece_segments {atom : Condition} (isAtom : atom.IsAtom) {keyword : Text.Keyword}
    (member : keyword = .and ∨ keyword = .or) :
    ∀ segment ∈ atom.segments, Text.IsPiece keyword segment := by
  obtain @⟨operand, t, writable, writable'⟩ := isAtom
  by_cases bounds : t.operator = .between
  · cases writable' with
    | between low high =>
      intro segment inside
      rcases List.mem_cons.mp inside with rfl | inside
      · exact isPiece_writeTest writable _ member (Literal.isPiece_write member low)
      · rw [List.mem_singleton.mp inside]
        exact Literal.isPiece_write member high
    | _ => cases bounds
  · have single : segments (test operand t) = [writeTest operand t.operator t.write] := by
      cases t with
      | between low high => exact absurd rfl bounds
      | _ => rfl
    intro segment inside
    rw [single, List.mem_singleton] at inside
    rw [inside]
    exact isPiece_writeTest writable _ member (writable'.isPiece_write member (absurd · bounds))

/-- The bounds of a comparison are joined again. -/
theorem joinBounds_segments {atom : Condition} (isAtom : atom.IsAtom) (rest : List (List Char)) :
    joinBounds (atom.segments ++ rest) = atom.write :: joinBounds rest := by
  obtain @⟨operand, t, writable, writable'⟩ := isAtom
  have single {right : List Char} {operator : Operator} (other : (operator == .between) = false)
      (lacks : Text.hasWholeKeyword .between right = false) :
      joinBounds (writeTest operand operator right :: rest) =
        writeTest operand operator right :: joinBounds rest := by
    cases rest with
    | nil => rfl
    | cons next rest =>
      rw [joinBounds, hasWholeKeyword_writeTest writable, other, lacks, if_neg (by decide)]
  cases writable' with
  | compare literal => exact single rfl (Literal.hasWholeKeyword_write literal)
  | oneOf all =>
    exact single rfl (Literal.hasWholeKeyword_writeList fun v inside => (all v inside).literal)
  | between low high =>
    rw [segments, List.cons_append, List.singleton_append, joinBounds, hasWholeKeyword_writeTest writable,
      beq_self_eq_true, Bool.true_or, if_pos rfl]
    simp [write, writeTest, Test.write, Test.operator, Text.Keyword.glue, Text.Keyword.letters]
  | like quotable => exact single rfl (Literal.hasWholeKeyword_quote quotable)
  | ilike quotable => exact single rfl (Literal.hasWholeKeyword_quote quotable)
  | null negated => cases negated <;> exact single rfl (by decide +kernel)

end Condition
end RecordQuery
