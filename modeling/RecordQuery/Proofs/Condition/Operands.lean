import RecordQuery.Condition.Basic

/-! Conditions by their operands: induction over the tree, and what a condition means when
its aggregate operands stand for given values. -/
namespace RecordQuery

theorem any_congr {l : List α} {p q : α → Bool} (same : ∀ a ∈ l, p a = q a) : l.any p = l.any q := by
  rw [Bool.eq_iff_iff, List.any_eq_true, List.any_eq_true]
  exact exists_congr fun a => and_congr_right fun member => by rw [same a member]

theorem all_congr {l : List α} {p q : α → Bool} (same : ∀ a ∈ l, p a = q a) : l.all p = l.all q := by
  rw [Bool.eq_iff_iff, List.all_eq_true, List.all_eq_true]
  exact forall₂_congr fun a member => by rw [same a member]

namespace Condition

/-- Induction over the tree, with all members of a list at once. -/
@[elab_as_elim]
theorem memberInduction {motive : Condition → Prop}
    (any : ∀ arms, (∀ arm ∈ arms, motive arm) → motive (any arms))
    (all : ∀ parts, (∀ part ∈ parts, motive part) → motive (all parts))
    (test : ∀ operand t, motive (test operand t))
    (malformed : ∀ text fault, motive (malformed text fault)) : ∀ condition, motive condition
  | .any arms => any arms fun arm _ => memberInduction any all test malformed arm
  | .all parts => all parts fun part _ => memberInduction any all test malformed part
  | .test operand t => test operand t
  | .malformed text fault => malformed text fault
termination_by condition => sizeOf condition
decreasing_by all_goals simp_wf; have := List.sizeOf_lt_of_mem ‹_ ∈ _›; omega

mutual

/-- The truth of a condition on a row, where an aggregate operand stands for the value of
its call. What could not be read counts as true. -/
def holdsWith (value : Aggregate.Call → Value) (r : Record) : Condition → Bool
  | any arms => holdsAnyWith value r arms
  | all parts => holdsAllWith value r parts
  | test (.column name) t => t.holds (r.lookupOrNull name)
  | test (.aggregate call) t => t.holds (value call)
  | malformed _ _ => true

def holdsAnyWith (value : Aggregate.Call → Value) (r : Record) : List Condition → Bool
  | [] => false
  | arm :: arms => holdsWith value r arm || holdsAnyWith value r arms

def holdsAllWith (value : Aggregate.Call → Value) (r : Record) : List Condition → Bool
  | [] => true
  | part :: parts => holdsWith value r part && holdsAllWith value r parts

end

@[simp] theorem holdsAnyWith_eq (value : Aggregate.Call → Value) (r : Record) (arms : List Condition) :
    holdsAnyWith value r arms = arms.any (holdsWith value r) := by
  induction arms with
  | nil => rfl
  | cons arm arms ih => simp [holdsAnyWith, ih]

@[simp] theorem holdsAllWith_eq (value : Aggregate.Call → Value) (r : Record) (parts : List Condition) :
    holdsAllWith value r parts = parts.all (holdsWith value r) := by
  induction parts with
  | nil => rfl
  | cons part parts ih => simp [holdsAllWith, ih]

theorem mem_operandCalls_any {call : Aggregate.Call} {arms : List Condition} :
    call ∈ (any arms).operandCalls ↔ ∃ arm ∈ arms, call ∈ arm.operandCalls := by
  simp [operandCalls]

theorem mem_operandCalls_all {call : Aggregate.Call} {parts : List Condition} :
    call ∈ (all parts).operandCalls ↔ ∃ part ∈ parts, call ∈ part.operandCalls := by
  simp [operandCalls]

/-- Columns that hold the values of the calls say what the calls say. -/
theorem holds_withKeys {key? : Aggregate.Call → Option String} {value : Aggregate.Call → Value}
    {r : Record} {condition : Condition}
    (found : ∀ call ∈ condition.operandCalls,
      ∃ key, key? call = some key ∧ r.lookup key = some (value call)) :
    (condition.withKeys key?).holds r = condition.holdsWith value r := by
  induction condition using memberInduction with
  | any arms ih =>
    rw [withKeys, holds, holdsWith, holdsAny_eq, holdsAnyWith_eq, withKeysOf_eq, List.any_map]
    exact any_congr fun arm member =>
      ih arm member fun call inside => found call (mem_operandCalls_any.mpr ⟨arm, member, inside⟩)
  | all parts ih =>
    rw [withKeys, holds, holdsWith, holdsAll_eq, holdsAllWith_eq, withKeysOf_eq, List.all_map]
    exact all_congr fun part member =>
      ih part member fun call inside => found call (mem_operandCalls_all.mpr ⟨part, member, inside⟩)
  | test operand t =>
    cases operand with
    | column name => rfl
    | aggregate call =>
      obtain ⟨key, named, held⟩ := found call (by simp [operandCalls])
      simp [withKeys, named, holds, passes, verdict, holdsWith, Record.lookupOrNull, held]
  | malformed text fault => rfl

/-- No call is left where each one has a key. -/
theorem operandCalls_withKeys {key? : Aggregate.Call → Option String} {condition : Condition}
    (found : ∀ call ∈ condition.operandCalls, (key? call).isSome = true) :
    (condition.withKeys key?).operandCalls = [] := by
  induction condition using memberInduction with
  | any arms ih =>
    rw [withKeys, withKeysOf_eq, operandCalls, operandCallsOf_eq, List.flatMap_eq_nil_iff]
    intro replaced found'
    obtain ⟨arm, member, rfl⟩ := List.mem_map.mp found'
    exact ih arm member fun call inside => found call (mem_operandCalls_any.mpr ⟨arm, member, inside⟩)
  | all parts ih =>
    rw [withKeys, withKeysOf_eq, operandCalls, operandCallsOf_eq, List.flatMap_eq_nil_iff]
    intro replaced found'
    obtain ⟨part, member, rfl⟩ := List.mem_map.mp found'
    exact ih part member fun call inside => found call (mem_operandCalls_all.mpr ⟨part, member, inside⟩)
  | test operand t =>
    cases operand with
    | column name => rfl
    | aggregate call =>
      obtain ⟨key, named⟩ := Option.isSome_iff_exists.mp (found call (by simp [operandCalls]))
      simp [withKeys, named, operandCalls]
  | malformed text fault => rfl

/-- A condition without calls stays as it is. -/
theorem withKeys_of_operandCalls_eq_nil (key? : Aggregate.Call → Option String) {condition : Condition}
    (columns : condition.operandCalls = []) : condition.withKeys key? = condition := by
  induction condition using memberInduction with
  | any arms ih =>
    simp only [operandCalls, operandCallsOf_eq, List.flatMap_eq_nil_iff] at columns
    rw [withKeys, withKeysOf_eq, List.map_congr_left fun arm member => ih arm member (columns arm member),
      List.map_id']
  | all parts ih =>
    simp only [operandCalls, operandCallsOf_eq, List.flatMap_eq_nil_iff] at columns
    rw [withKeys, withKeysOf_eq, List.map_congr_left fun part member => ih part member (columns part member),
      List.map_id']
  | test operand t =>
    cases operand with
    | column name => rfl
    | aggregate call => simp [operandCalls] at columns
  | malformed text fault => rfl

end Condition
end RecordQuery
