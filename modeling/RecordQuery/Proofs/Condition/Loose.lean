import RecordQuery.Condition.Reading
import RecordQuery.Proofs.Condition.Operands

/-! Conditions in which any operator may stand before a right side of any shape. A test fixes its
operator; here both are chosen apart when a text is read, and are matched again when a record is
decided. Conditions seen this way are read, rewritten and decided as before. -/
namespace RecordQuery

/-- What stands behind an operator. -/
inductive RightSide where
  | literal (value : Value)
  | list (values : List Value)
  | bounds (low high : Value)
  | pattern (source : String)
  | null (negated : Bool)

namespace RightSide

/-- The operator chooses the shape. -/
def read (operator : Operator) (right whole : List Char) : Except Fault RightSide :=
  match operator with
  | .oneOf => .ok (.list (Literal.readList right))
  | .between =>
    match Condition.readBounds? right with
    | some (low, high) => .ok (.bounds low high)
    | none => .error (.missingBound (String.ofList whole))
  | .like | .ilike => .ok (.pattern (String.ofList (Literal.unquote right)))
  | .is =>
    if Condition.isNull right then .ok (.null false)
    else if Condition.isNotNull right then .ok (.null true)
    else .error (.unsupportedIsOperand (String.ofList right))
  | .comparison _ => .ok (.literal (Literal.read right))

/-- An operator before a right side of another shape decides nothing. -/
def verdict (operator : Operator) (right : RightSide) (value : Value) : Except Fault Bool :=
  match operator, right with
  | .comparison .equal, literal l => .ok (value.equals l)
  | .comparison .different, literal l => .ok (!value.equals l)
  | .comparison c, literal l => .ok ((value.order? l).any c.accepts)
  | .oneOf, list ls => .ok (ls.any value.equals)
  | .between, bounds low high =>
    .ok ((value.order? low).any Ordering.isGE && (value.order? high).any Ordering.isLE)
  | .like, pattern source | .ilike, pattern source =>
    .ok ((Test.likeText? value).any (Like.accepts source))
  | .is, null negated => .ok (value.isNull != negated)
  | operator, _ => .error (.unknownOperator operator.text)

end RightSide

/-- An aggregate has no value in a single row. -/
def Operand.value (r : Record) : Operand → Except Fault Value
  | column name => .ok (r.lookupOrNull name)
  | aggregate call => .error (.aggregateOutsideGroup call)

namespace Test

def rightSide : Test → RightSide
  | compare _ literal => .literal literal
  | oneOf literals => .list literals
  | between low high => .bounds low high
  | like pattern | ilike pattern => .pattern pattern
  | null negated => .null negated

/-- The right side of a test has the shape that its operator expects. -/
theorem verdict_rightSide (t : Test) (value : Value) :
    t.rightSide.verdict t.operator value = .ok (t.holds value) := by
  cases t with
  | compare comparison literal => cases comparison <;> rfl
  | _ => rfl

-- Before a right side of another shape the operator IN would keep every record.
example (value : Value) : (RightSide.literal .null).verdict .oneOf value = .error (.unknownOperator "IN") := rfl

end Test

namespace Condition

/-- A condition whose operators and right sides are chosen apart. -/
inductive Loose where
  | any (arms : List Loose)
  | all (parts : List Loose)
  | compare (operand : Operand) (operator : Operator) (right : RightSide)
  | malformed (text : String) (fault : Fault)

namespace Loose

def readParts (s : List Char) : Except Fault Loose :=
  match Parts.read? s with
  | some ⟨some operand, token, right⟩ =>
    match Operator.ofLetters? token with
    | some operator => (RightSide.read operator right s).map (compare operand operator)
    | none => .error (.unknownOperator (String.ofList token))
  | _ => .error (.malformed (String.ofList s))

def readTrimmedComparison (s : List Char) : Loose :=
  match readParts s with
  | .ok leaf => leaf
  | .error fault => malformed (String.ofList s) fault

def readComparison (s : List Char) : Loose := readTrimmedComparison (Text.trim s)

def readConjunction (s : List Char) : Loose :=
  match (joinBounds ((Text.Separator.keyword .and).split s)).map readComparison with
  | [part] => part
  | parts => all parts

def readLetters (s : List Char) : Loose :=
  match ((Text.Separator.keyword .or).split (Text.trim s)).map readConjunction with
  | [arm] => arm
  | arms => any arms

def read (text : String) : Loose := readLetters text.toList

mutual

/-- Each call that has a key becomes a column of that name. Its operator and right side stay. -/
def withKeys (key? : Aggregate.Call → Option String) : Loose → Loose
  | any arms => any (withKeysOf key? arms)
  | all parts => all (withKeysOf key? parts)
  | compare (.aggregate call) operator right =>
    match key? call with
    | some key => compare (.column key) operator right
    | none => compare (.aggregate call) operator right
  | compare (.column name) operator right => compare (.column name) operator right
  | malformed text fault => malformed text fault

def withKeysOf (key? : Aggregate.Call → Option String) : List Loose → List Loose
  | [] => []
  | tree :: trees => withKeys key? tree :: withKeysOf key? trees

end

mutual

/-- What is neither joined by OR nor by AND. -/
def leaves : Loose → List Loose
  | any arms => leavesOf arms
  | all parts => leavesOf parts
  | compare operand operator right => [compare operand operator right]
  | malformed text fault => [malformed text fault]

def leavesOf : List Loose → List Loose
  | [] => []
  | tree :: trees => leaves tree ++ leavesOf trees

end

/-- The decision of a single comparison. -/
def verdict (tree : Loose) (r : Record) : Except Fault Bool :=
  match tree with
  | compare operand operator right => (operand.value r).bind (right.verdict operator)
  | malformed _ fault => .error fault
  | any _ | all _ => .error (.malformed "composite condition passed as a comparison")

@[simp] theorem withKeysOf_eq (key? : Aggregate.Call → Option String) (trees : List Loose) :
    withKeysOf key? trees = trees.map (withKeys key?) := by
  induction trees with
  | nil => rfl
  | cons tree trees ih => simp [withKeysOf, ih]

@[simp] theorem leavesOf_eq (trees : List Loose) : leavesOf trees = trees.flatMap leaves := by
  induction trees with
  | nil => rfl
  | cons tree trees ih => simp [leavesOf, ih]

end Loose

mutual

/-- The condition with each test taken apart. -/
def loosen : Condition → Loose
  | any arms => .any (loosenAll arms)
  | all parts => .all (loosenAll parts)
  | test operand t => .compare operand t.operator t.rightSide
  | malformed text fault => .malformed text fault

def loosenAll : List Condition → List Loose
  | [] => []
  | condition :: conditions => loosen condition :: loosenAll conditions

end

@[simp] theorem loosenAll_eq (conditions : List Condition) : loosenAll conditions = conditions.map loosen := by
  induction conditions with
  | nil => rfl
  | cons condition conditions ih => simp [loosenAll, ih]

/-- Taking the tests apart changes no decision. -/
theorem verdict_loosen (condition : Condition) (r : Record) :
    condition.loosen.verdict r = condition.verdict r := by
  cases condition with
  | test operand t =>
    cases operand with
    | column name => exact t.verdict_rightSide _
    | aggregate call => rfl
  | _ => rfl

theorem loosen_withKeys (key? : Aggregate.Call → Option String) (condition : Condition) :
    (condition.withKeys key?).loosen = condition.loosen.withKeys key? := by
  induction condition using memberInduction with
  | any arms ih => simpa [withKeys, loosen, Loose.withKeys] using ih
  | all parts ih => simpa [withKeys, loosen, Loose.withKeys] using ih
  | test operand t =>
    cases operand with
    | column name => rfl
    | aggregate call => cases named : key? call <;> simp [withKeys, loosen, Loose.withKeys, named]
  | malformed text fault => rfl

/-! Both readers cut a text at the same places, and differ at the leaves only. -/

/-- The operator chooses the test that consists of it and the right side it chooses. -/
theorem map_loosen_readTest (operand : Operand) (operator : Operator) (right whole : List Char) :
    (readTest operator right whole).map (fun t => (test operand t).loosen) =
      (RightSide.read operator right whole).map (Loose.compare operand operator) := by
  cases operator with
  | between =>
    rw [readTest, RightSide.read]
    cases readBounds? right <;> rfl
  | is =>
    rw [readTest, RightSide.read]
    cases isNull right <;> cases isNotNull right <;> rfl
  | _ => rfl

theorem map_loosen_readParts (s : List Char) :
    (readParts s).map (fun (operand, t) => (test operand t).loosen) = Loose.readParts s := by
  rw [readParts, Loose.readParts]
  rcases Parts.read? s with _ | ⟨_ | operand, token, right⟩
  · rfl
  · rfl
  · dsimp only
    cases Operator.ofLetters? token with
    | none => rfl
    | some operator =>
      dsimp only
      rw [← map_loosen_readTest operand operator right s]
      cases readTest operator right s <;> rfl

theorem loosen_readComparison (s : List Char) : (readComparison s).loosen = Loose.readComparison s := by
  rw [readComparison, Loose.readComparison, readTrimmedComparison, Loose.readTrimmedComparison,
    ← map_loosen_readParts]
  cases readParts (Text.trim s) <;> rfl

theorem loosen_readConjunction (s : List Char) : (readConjunction s).loosen = Loose.readConjunction s := by
  rw [readConjunction, Loose.readConjunction]
  rcases joinBounds ((Text.Separator.keyword .and).split s) with _ | ⟨part, _ | ⟨next, parts⟩⟩
  · rfl
  · exact loosen_readComparison part
  · simp [combine, loosen, loosen_readComparison]

theorem loosen_readLetters (s : List Char) : (readLetters s).loosen = Loose.readLetters s := by
  rw [readLetters, Loose.readLetters]
  rcases (Text.Separator.keyword .or).split (Text.trim s) with _ | ⟨arm, _ | ⟨next, arms⟩⟩
  · rfl
  · exact loosen_readConjunction arm
  · simp [combine, loosen, loosen_readConjunction]

/-- Whatever is read, each operator stands before a right side of its own shape. -/
theorem loosen_read (text : String) : (read text).loosen = Loose.read text :=
  loosen_readLetters text.toList

end Condition
end RecordQuery
