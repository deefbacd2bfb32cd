import RecordQuery.Proofs.Aggregate.RowOrder

/-! The extremes of a column. Each value puts up a candidate or none, and the tally holds the
first of the best candidates so far. The result is that candidate as it stands in the column, and
null without candidates. -/
namespace RecordQuery.Aggregate

namespace Extreme

variable {extreme : Extreme} {n m : Number}

/-- The function whose tally keeps this extreme. -/
def function : Extreme → Function
  | least => .minimum
  | greatest => .maximum

/-- A number that beats another one beats all that the other one is not beaten by. -/
theorem better_of_not_better {candidate : Number} (better : extreme.better n m = true)
    (kept : extreme.better candidate m = false) : extreme.better n candidate = true := by
  rw [← Bool.not_eq_true] at kept
  cases extreme <;> simp only [better_least, better_greatest] at * <;> omega

theorem not_better_of_better (better : extreme.better n m = true) : extreme.better m n = false := by
  rw [← Bool.not_eq_true]
  cases extreme <;> simp only [better_least, better_greatest] at * <;> omega

theorem not_better_self : extreme.better n n = false := by
  rw [← Bool.not_eq_true]
  cases extreme <;> simp [better_least, better_greatest]

/-- One number is beyond another in value: below it for the least, above it for the greatest. -/
def IsBeyond (extreme : Extreme) (n m : Number) : Prop :=
  match extreme with
  | least => n.toBinary64.units < m.toBinary64.units
  | greatest => m.toBinary64.units < n.toBinary64.units

theorem better_iff : extreme.better n m = true ↔ extreme.IsBeyond n m :=
  match extreme with
  | least => better_least
  | greatest => better_greatest

theorem IsBeyond.units_ne (beyond : extreme.IsBeyond n m) : m.toBinary64.units ≠ n.toBinary64.units :=
  match extreme with
  | least => Int.ne_of_gt beyond
  | greatest => Int.ne_of_lt beyond

/-- The first of the best candidates: it beats all before it, and none after it beats it. -/
def IsFirst (extreme : Extreme) (candidates : List Number) (n : Number) : Prop :=
  ∃ before after, candidates = before ++ n :: after ∧
    (∀ candidate ∈ before, extreme.better n candidate = true) ∧
    ∀ candidate ∈ after, extreme.better candidate n = false

namespace IsFirst

variable {candidates : List Number}

theorem mem (first : extreme.IsFirst candidates n) : n ∈ candidates := by
  obtain ⟨before, after, rfl, _⟩ := first
  simp

theorem best (first : extreme.IsFirst candidates n) :
    ∀ candidate ∈ candidates, extreme.better candidate n = false := by
  obtain ⟨before, after, rfl, beaten, kept⟩ := first
  intro candidate member
  rcases List.mem_append.mp member with member | member
  · exact not_better_of_better (beaten candidate member)
  · rcases List.mem_cons.mp member with rfl | member
    · exact not_better_self
    · exact kept candidate member

theorem singleton (n : Number) : extreme.IsFirst [n] n := ⟨[], [], by simp⟩

/-- One more candidate. -/
theorem append (first : extreme.IsFirst candidates n) (candidate : Number) :
    extreme.IsFirst (candidates ++ [candidate]) (extreme.choose (some n) candidate) := by
  dsimp only [choose]
  split
  next better =>
    refine ⟨candidates, [], rfl, fun other member => ?_, by simp⟩
    exact better_of_not_better better (first.best other member)
  next kept =>
    obtain ⟨before, after, rfl, beaten, later⟩ := first
    refine ⟨before, after ++ [candidate], by simp, beaten, fun other member => ?_⟩
    rcases List.mem_append.mp member with member | member
    · exact later other member
    · rw [List.mem_singleton.mp member]
      exact Bool.eq_false_iff.mpr kept

end IsFirst

/-- The number kept after further candidates. -/
def keep (extreme : Extreme) (current : Option Number) (candidates : List Number) : Option Number :=
  candidates.foldl (fun current candidate => some (extreme.choose current candidate)) current

/-- Further candidates keep the first of the best. -/
theorem exists_keep {seen : List Number} (first : extreme.IsFirst seen n) (candidates : List Number) :
    ∃ m, extreme.keep (some n) candidates = some m ∧ extreme.IsFirst (seen ++ candidates) m := by
  induction candidates generalizing seen n with
  | nil => exact ⟨n, rfl, by simpa using first⟩
  | cons candidate candidates ih =>
    obtain ⟨m, kept, first⟩ := ih (first.append candidate)
    exact ⟨m, kept, by simpa using first⟩

end Extreme

/-- The candidates that values put up. -/
def candidates (policy : MissingPolicy) (values : List (Option Value)) : List Number :=
  values.filterMap (MissingPolicy.candidate? policy)

/-- The numbers among values in order, with a whole zero in the place of every other value or
without these. -/
def numbersOf (policy : MissingPolicy) (values : List (Option Value)) : List Number :=
  match policy with
  | .zero => values.map fun value => (value.bind Value.number?).getD .zero
  | .skip => values.filterMap fun value => value.bind Value.number?

theorem candidates_eq (policy : MissingPolicy) (values : List (Option Value)) :
    candidates policy values = numbersOf policy values := by
  cases policy with
  | zero =>
    rw [candidates, numbersOf, ← List.filterMap_eq_map']
    refine List.filterMap_congr fun value _ => ?_
    cases number : value.bind Value.number? <;> simp [MissingPolicy.candidate?, number]
  | skip =>
    refine List.filterMap_congr fun value _ => ?_
    cases number : value.bind Value.number? <;> simp [MissingPolicy.candidate?, number]

namespace Tally

theorem foldl_add_extreme (extreme : Extreme) (policy : MissingPolicy) (current : Option Number)
    (values : List (Option Value)) : values.foldl add (.extreme extreme policy current) =
      .extreme extreme policy (extreme.keep current (candidates policy values)) := by
  induction values generalizing current with
  | nil => rfl
  | cons value values ih =>
    cases found : MissingPolicy.candidate? policy value <;>
      simp [add, found, ih, candidates, Extreme.keep]

theorem ofValues_extreme (extreme : Extreme) (policy : MissingPolicy) (values : List (Option Value)) :
    ofValues extreme.function policy values =
      .extreme extreme policy (extreme.keep none (candidates policy values)) := by
  rw [← foldl_add_extreme]
  cases extreme <;> rfl

/-- The extreme of values with a candidate is the first of the best candidates. -/
theorem exists_result_extreme (extreme : Extreme) {policy : MissingPolicy} {values : List (Option Value)}
    (nonempty : candidates policy values ≠ []) :
    ∃ n, (ofValues extreme.function policy values).result = .number n ∧
      extreme.IsFirst (candidates policy values) n := by
  rw [ofValues_extreme]
  obtain ⟨n, others, found⟩ := List.exists_cons_of_ne_nil nonempty
  have start : extreme.IsFirst [n] n := .singleton n
  obtain ⟨m, kept, first⟩ := Extreme.exists_keep start others
  refine ⟨m, ?_, by simpa [found] using first⟩
  have same : extreme.keep none (n :: others) = extreme.keep (some n) others := rfl
  rw [found, same, kept]
  rfl

/-- An extreme is null of no numbers only. Else it is one of the numbers as it stands there, none is
beyond it in value, and it is the first of those that have its value. -/
theorem result_first_extreme (extreme : Extreme) (policy : MissingPolicy) (values : List (Option Value)) :
    ((ofValues extreme.function policy values).result = .null ↔ numbersOf policy values = []) ∧
    (numbersOf policy values = [] ∨ ∃ before n after,
      numbersOf policy values = before ++ n :: after ∧
      (ofValues extreme.function policy values).result = .number n ∧
      (∀ m ∈ numbersOf policy values, ¬ extreme.IsBeyond m n) ∧
      ∀ m ∈ before, m.toBinary64.units ≠ n.toBinary64.units) := by
  rw [← candidates_eq]
  by_cases empty : candidates policy values = []
  · have null : (ofValues extreme.function policy values).result = .null := by
      rw [ofValues_extreme, empty]
      rfl
    exact ⟨iff_of_true null empty, .inl empty⟩
  · obtain ⟨n, result, first⟩ := exists_result_extreme extreme empty
    have best := first.best
    obtain ⟨before, after, split, beaten, _⟩ := first
    refine ⟨iff_of_false (by rw [result]; exact Value.noConfusion) empty, .inr ⟨before, n, after, split, result, ?_, ?_⟩⟩
    · intro m member beyond
      exact absurd (Extreme.better_iff.mpr beyond) (Bool.eq_false_iff.mp (best m member))
    · intro m member
      exact (Extreme.better_iff.mp (beaten m member)).units_ne

end Tally
end RecordQuery.Aggregate
