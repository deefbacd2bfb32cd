import RecordQuery.Proofs.Condition.Loose

/-! Which comparisons cannot be decided. In a condition that was read these are the malformed ones
and the calls of aggregates, and once calls have become columns, only the calls without a key. -/
namespace RecordQuery.Condition

/-- A call that is left has no key. -/
theorem key?_eq_none_of_mem_operandCalls_withKeys {key? : Aggregate.Call → Option String}
    {condition : Condition} {call : Aggregate.Call} (left : call ∈ (condition.withKeys key?).operandCalls) :
    key? call = none := by
  induction condition using memberInduction with
  | any arms ih =>
    rw [withKeys, withKeysOf_eq, mem_operandCalls_any] at left
    obtain ⟨replaced, found, inside⟩ := left
    obtain ⟨arm, member, rfl⟩ := List.mem_map.mp found
    exact ih arm member inside
  | all parts ih =>
    rw [withKeys, withKeysOf_eq, mem_operandCalls_all] at left
    obtain ⟨replaced, found, inside⟩ := left
    obtain ⟨part, member, rfl⟩ := List.mem_map.mp found
    exact ih part member inside
  | test operand t =>
    cases operand with
    | column name => cases left
    | aggregate used =>
      cases named : key? used with
      | none =>
        simp only [withKeys, named, operandCalls, List.mem_singleton] at left
        exact left ▸ named
      | some key => simp [withKeys, named, operandCalls] at left
  | malformed text fault => cases left

theorem mem_leaves_any {leaf : Loose} {arms : List Condition} :
    leaf ∈ (any arms).loosen.leaves ↔ ∃ arm ∈ arms, leaf ∈ arm.loosen.leaves := by
  simp [loosen, Loose.leaves, List.flatMap_map]

theorem mem_leaves_all {leaf : Loose} {parts : List Condition} :
    leaf ∈ (all parts).loosen.leaves ↔ ∃ part ∈ parts, leaf ∈ part.loosen.leaves := by
  simp [loosen, Loose.leaves, List.flatMap_map]

/-- A leaf is a test taken apart, or it is malformed. -/
theorem eq_loosen_of_mem_leaves {condition : Condition} {leaf : Loose} (member : leaf ∈ condition.loosen.leaves) :
    (∃ operand t, leaf = (test operand t).loosen ∧
      ∀ call, operand = .aggregate call → call ∈ condition.operandCalls) ∨
    ∃ text fault, leaf = (malformed text fault).loosen := by
  induction condition using memberInduction with
  | any arms ih =>
    obtain ⟨arm, inside, member⟩ := mem_leaves_any.mp member
    rcases ih arm inside member with ⟨operand, t, same, used⟩ | malformed
    · exact .inl ⟨operand, t, same, fun call is => mem_operandCalls_any.mpr ⟨arm, inside, used call is⟩⟩
    · exact .inr malformed
  | all parts ih =>
    obtain ⟨part, inside, member⟩ := mem_leaves_all.mp member
    rcases ih part inside member with ⟨operand, t, same, used⟩ | malformed
    · exact .inl ⟨operand, t, same, fun call is => mem_operandCalls_all.mpr ⟨part, inside, used call is⟩⟩
    · exact .inr malformed
  | test operand t =>
    refine .inl ⟨operand, t, List.mem_singleton.mp member, ?_⟩
    rintro call rfl
    exact List.mem_singleton_self call
  | malformed text fault => exact .inr ⟨text, fault, List.mem_singleton.mp member⟩

/-- An operator and a right side that come from one test match. -/
theorem exists_verdict_of_mem_leaves {condition : Condition} {operand : Operand} {operator : Operator}
    {right : RightSide} (member : .compare operand operator right ∈ condition.loosen.leaves) (value : Value) :
    ∃ decided, right.verdict operator value = .ok decided := by
  rcases eq_loosen_of_mem_leaves member with ⟨_, t, same, _⟩ | ⟨_, _, same⟩
  · cases same
    exact ⟨t.holds value, t.verdict_rightSide value⟩
  · cases same

/-- Which leaves of a tree cannot be decided, where `bare` are the calls that may be left in it. -/
structure Loose.FaultsAreKnown (bare : Aggregate.Call → Prop) (r : Record) (tree : Loose) : Prop where
  /-- Every operator decides about its right side. -/
  matched : ∀ operand operator right, compare operand operator right ∈ tree.leaves →
    ∀ value, ∃ decided, right.verdict operator value = .ok decided
  /-- Every comparison of a column is decided. -/
  column : ∀ name operator right, compare (.column name) operator right ∈ tree.leaves →
    ∃ decided, (compare (.column name) operator right).verdict r = .ok decided
  /-- What is not decided is malformed, or a call that may be left. -/
  faulty : ∀ leaf ∈ tree.leaves, ∀ fault, leaf.verdict r = .error fault ↔
    (∃ text, leaf = malformed text fault) ∨
    ∃ call operator right, leaf = compare (.aggregate call) operator right ∧ bare call ∧
      fault = .aggregateOutsideGroup call

/-- A tree of tests has no other faults than those of its calls and of what could not be read. -/
theorem faultsAreKnown_loosen {bare : Aggregate.Call → Prop} {condition : Condition}
    (left : ∀ call ∈ condition.operandCalls, bare call) (r : Record) :
    condition.loosen.FaultsAreKnown bare r := by
  refine ⟨fun _ _ _ => exists_verdict_of_mem_leaves, fun _ _ _ member => exists_verdict_of_mem_leaves member _, ?_⟩
  intro leaf member fault
  rcases eq_loosen_of_mem_leaves member with ⟨operand, t, rfl, used⟩ | ⟨text, reason, rfl⟩
  · cases operand with
    | column name =>
      have decided : (Loose.compare (.column name) t.operator t.rightSide).verdict r = _ :=
        t.verdict_rightSide (r.lookupOrNull name)
      simp [loosen, decided]
    | aggregate call =>
      have allowed : bare call := left call (used call rfl)
      simp [loosen, Loose.verdict, Operand.value, Except.bind, allowed, eq_comm]
  · simp [loosen, Loose.verdict, eq_comm]

/-- In a condition that was read, and in the one where calls have become columns, every comparison of
a column is decided. The other leaves are malformed, or calls: any call as it was read, and a call
without a key once the others are columns. -/
theorem faultsAreKnown_read_and_withKeys (text : String) (key? : Aggregate.Call → Option String) (r : Record) :
    (Loose.read text).FaultsAreKnown (fun _ => True) r ∧
      ((Loose.read text).withKeys key?).FaultsAreKnown (fun call => key? call = none) r ∧
      Loose.read text = (read text).loosen ∧
      (Loose.read text).withKeys key? = ((read text).withKeys key?).loosen ∧
      ∀ condition : Condition, condition.loosen.verdict r = condition.verdict r := by
  have rewritten : (Loose.read text).withKeys key? = ((read text).withKeys key?).loosen := by
    rw [loosen_withKeys, loosen_read]
  refine ⟨?_, ?_, (loosen_read text).symm, rewritten, fun condition => verdict_loosen condition r⟩
  · rw [← loosen_read]
    exact faultsAreKnown_loosen (fun _ _ => trivial) r
  · rw [rewritten]
    exact faultsAreKnown_loosen (fun call => key?_eq_none_of_mem_operandCalls_withKeys) r

end RecordQuery.Condition
