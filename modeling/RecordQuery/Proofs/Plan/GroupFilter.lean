import RecordQuery.Engine
import RecordQuery.Proofs.Condition.Operands
import RecordQuery.Proofs.Plan.Stages
import RecordQuery.Proofs.Value.Compact

/-! Conditions on group columns. Such a condition says the same of all members of a group
and of the group's row, so that it may be decided before rows are grouped or after. -/
namespace RecordQuery

/-- All operands are columns among these. What could not be read has none. -/
inductive Condition.OnColumns (names : List String) : Condition → Prop
  | any {arms : List Condition} : (∀ arm ∈ arms, arm.OnColumns names) → OnColumns names (.any arms)
  | all {parts : List Condition} :
      (∀ part ∈ parts, part.OnColumns names) → OnColumns names (.all parts)
  | test {name : String} {t : Test} : name ∈ names → OnColumns names (.test (.column name) t)
  | malformed {text : String} {fault : Fault} : OnColumns names (.malformed text fault)

namespace Condition.OnColumns

/-- A condition reads nothing but its columns. -/
theorem holds_congr {names : List String} {condition : Condition} (columns : condition.OnColumns names)
    {r r' : Record} (same : ∀ name ∈ names, r.lookupOrNull name = r'.lookupOrNull name) :
    condition.holds r = condition.holds r' := by
  induction columns with
  | any _ ih =>
    rw [holds, holds, holdsAny_eq, holdsAny_eq]
    exact any_congr ih
  | all _ ih =>
    rw [holds, holds, holdsAll_eq, holdsAll_eq]
    exact all_congr ih
  | test member => simp only [holds, passes, verdict, same _ member]
  | malformed => rfl

theorem operandCalls_eq_nil {names : List String} {condition : Condition}
    (columns : condition.OnColumns names) : condition.operandCalls = [] := by
  induction columns with
  | any _ ih => simpa [operandCalls] using ih
  | all _ ih => simpa [operandCalls] using ih
  | test => rfl
  | malformed => rfl

end Condition.OnColumns

namespace Group

/-- The notation of group values tells them apart. -/
theorem values_eq_of_key_eq {keys : List String} {r r' : Record}
    (same : (KeyedRow.ofRow keys r).key = (KeyedRow.ofRow keys r').key) :
    r.groupValues keys = r'.groupValues keys :=
  Value.list.inj (Value.compactText_inj.mp same)

/-- Every group has the values of one of its rows. -/
theorem exists_of_mem_ofRows {keys : List String} {rows : Relation} {group : Group}
    (member : group ∈ ofRows keys rows) : ∃ r ∈ rows, group.values = r.groupValues keys := by
  obtain ⟨first, found, rfl⟩ := List.mem_map.mp member
  obtain ⟨r, present, rfl⟩ := List.mem_map.mp ((firstOccurrences_sublist _ _).mem found)
  exact ⟨r, present, rfl⟩

/-- Rows chosen by their group values are the members of the groups with these values. -/
theorem ofRows_filter (keys : List String) (rows : Relation) (f : List Value → Bool) :
    ofRows keys (rows.filter fun r => f (r.groupValues keys)) =
      (ofRows keys rows).filter fun group => f group.values := by
  have keyed : (rows.filter fun r => f (r.groupValues keys)).map (KeyedRow.ofRow keys) =
      (rows.map (KeyedRow.ofRow keys)).filter fun row => f row.values := by
    rw [List.filter_map]
    rfl
  have together : ∀ a ∈ rows.map (KeyedRow.ofRow keys), ∀ b ∈ rows.map (KeyedRow.ofRow keys),
      a.key = b.key → f a.values = f b.values := by
    intro a member b member' same
    obtain ⟨r, _, rfl⟩ := List.mem_map.mp member
    obtain ⟨r', _, rfl⟩ := List.mem_map.mp member'
    exact congrArg f (values_eq_of_key_eq same)
  unfold ofRows ofKeyed
  rw [keyed, firstOccurrences_filter _ _ _ together,
    List.filter_map (p := fun group : Group => f group.values)]
  apply List.map_congr_left
  intro first found
  obtain ⟨found, passes⟩ := List.mem_filter.mp found
  have present := (firstOccurrences_sublist _ _).mem found
  rw [List.filter_filter]
  congr 2
  apply List.filter_congr
  intro other member
  by_cases same : other.key = first.key
  · have value : f other.values = true := (together other member first present same).trans passes
    simp [same, value]
  · simp [same]

end Group

namespace Record

/-- Group values written under their columns are found there, a column given twice too. -/
theorem get?_ofList_zip (r : Record) {keys : List String} {name : String} (column : name ∈ keys) :
    (ofList (keys.zip (r.groupValues keys))).get? name = some (r.lookupOrNull name) := by
  have zip : keys.zip (r.groupValues keys) = keys.map fun name => (name, r.lookupOrNull name) := by
    rw [groupValues, List.zip_map_right, List.zip_eq_zipWith, List.zipWith_self, List.map_map]
    rfl
  rw [zip]
  exact get?_insertAll_map empty r.lookupOrNull column

/-- A field stays when results are added, if only helpers have its name. -/
theorem get?_foldl_addResult {results r : Record} {calls : List NamedCall} {name : String}
    {value : Value} (present : r.get? name = some value)
    (helpers : ∀ named ∈ calls, named.key = name → named.helper = true) :
    (calls.foldl (addResult results) r).get? name = some value := by
  induction calls generalizing r with
  | nil => exact present
  | cons named calls ih =>
    refine ih ?_ fun other member => helpers other (List.mem_cons_of_mem _ member)
    unfold addResult
    split
    · exact present
    next written =>
      split
      · rw [get?_insert_of_ne _ _ ?_]
        · exact present
        · rintro rfl
          have has : r.has named.key = true := by rw [has, lookup_of_get? present]; rfl
          exact written (by rw [helpers named List.mem_cons_self rfl, has]; rfl)
      · exact present

end Record

namespace Group

/-- The row of a group has the group's values under the group columns. -/
theorem lookup_row {keys : List String} {calls : List NamedCall} {rows : Relation} {group : Group}
    (member : group ∈ ofRows keys rows)
    (helpers : ∀ named ∈ calls, named.key ∈ keys → named.helper = true) (policy : MissingPolicy)
    {name : String} (column : name ∈ keys) :
    (group.row policy keys calls).lookup name = (group.base keys).lookup name := by
  obtain ⟨r, _, values⟩ := exists_of_mem_ofRows member
  have present : (group.base keys).get? name = some (r.lookupOrNull name) := by
    rw [base, values]
    exact Record.get?_ofList_zip r column
  rw [Record.lookup_of_get? present]
  apply Record.lookup_of_get?
  apply Record.get?_foldl_addResult present
  rintro named found rfl
  exact helpers named found column

/-- A condition on group columns selects the same groups by their rows as by their members. -/
theorem groupRows_filter {keys : List String} {calls : List NamedCall} {condition : Condition}
    (grouped : keys ≠ []) (columns : condition.OnColumns keys)
    (helpers : ∀ named ∈ calls, named.key ∈ keys → named.helper = true) (policy : MissingPolicy)
    (rows : Relation) :
    groupRows policy keys calls (rows.filter fun r => condition.holds r) =
      (groupRows policy keys calls rows).filter fun r => condition.holds r := by
  -- The condition on a row as a test of its group values.
  let f (values : List Value) : Bool := condition.holds (Record.ofList (keys.zip values))
  have member (r : Record) : condition.holds r = f (r.groupValues keys) := by
    refine columns.holds_congr fun name column => ?_
    have found := Record.lookup_of_get? (Record.get?_ofList_zip r column)
    rw [Record.lookupOrNull.eq_def (Record.ofList _), found]
    rfl
  have whole : ∀ group ∈ ofRows keys rows,
      condition.holds (group.row policy keys calls) = f group.values := by
    intro group found
    refine columns.holds_congr fun name column => ?_
    rw [Record.lookupOrNull, lookup_row found helpers policy column]
    rfl
  have nonempty : ¬ keys.isEmpty := by simpa using grouped
  rw [groupRows_eq, groupRows_eq, all, all, if_neg nonempty, if_neg nonempty, List.filter_map]
  have chosen : (rows.filter fun r => condition.holds r) = rows.filter fun r => f (r.groupValues keys) :=
    List.filter_congr fun r _ => member r
  rw [chosen, ofRows_filter]
  congr 1
  exact List.filter_congr fun group found => (whole group found).symm

end Group

namespace Query

/-- Conditions without calls leave the calls of a query as they are. -/
theorem namedCalls_withHaving {q : Query} {written : WrittenCondition} (having : q.having = none)
    (columns : written.condition.operandCalls = []) :
    { q with having := some written }.namedCalls = q.namedCalls := by
  have later : { q with having := some written }.laterCalls = q.laterCalls := by
    simp [laterCalls, having, Condition.calls, columns, firstOccurrences]
  unfold namedCalls
  rw [later]
  rfl

theorem laterStages_withHaving {q : Query} {written : WrittenCondition} (mode : OrderMode)
    (having : q.having = none) (columns : written.condition.operandCalls = []) :
    { q with having := some written }.laterStages mode = q.laterStages mode := by
  have calls := namedCalls_withHaving having columns
  have order : { q with having := some written }.orderKey = q.orderKey := by
    funext item
    rw [orderKey, calls]
    rfl
  have hidden : { q with having := some written }.hiddenKeys = q.hiddenKeys := by
    rw [hiddenKeys, calls]
    rfl
  rw [laterStages, sortStages, order, hidden]
  rfl

/-- A condition on group columns means the same in WHERE as in HAVING. -/
theorem run_filter_eq_run_having {q : Query} {written : WrittenCondition} (config : Config)
    (rows : Relation) (grouped : q.groupBy ≠ []) (filter : q.filter = none) (having : q.having = none)
    (apart : ∀ named ∈ q.selectCalls, named.key ∉ q.groupBy)
    (columns : written.condition.OnColumns q.groupBy) :
    config.run { q with filter := some written } rows =
      config.run { q with having := some written } rows := by
  have calls := namedCalls_withHaving having columns.operandCalls_eq_nil
  have isGrouped : q.isGrouped = true := by simp [Query.isGrouped, grouped]
  have helpers : ∀ named ∈ q.namedCalls, named.key ∈ q.groupBy → named.helper = true := by
    intro named member column
    rw [namedCalls, if_pos isGrouped] at member
    rcases NamedCall.helper_of_mem_foldl_addHelper member with selected | helper
    · exact absurd column (apart named selected)
    · exact helper
  -- Both lead to the same rows of groups, and go on alike.
  have before : Plan.run config.missingValues { q with filter := some written }.groupStages
      ({ q with filter := some written }.passed config.missingValues rows) =
      groupRows config.missingValues q.groupBy q.namedCalls
        (rows.filter fun r => written.condition.holds r) := by
    have group : { q with filter := some written }.groupStages = [.group q.groupBy q.namedCalls] := by
      rw [groupStages, if_pos (by exact isGrouped)]
      show Stage.group q.groupBy q.namedCalls :: (q.having.map _).toList = _
      rw [having]
      rfl
    rw [group]
    rfl
  have after : Plan.run config.missingValues { q with having := some written }.groupStages
      ({ q with having := some written }.passed config.missingValues rows) =
      (groupRows config.missingValues q.groupBy q.namedCalls rows).filter fun r =>
        written.condition.holds r := by
    rw [groupStages, if_pos (by exact isGrouped), calls]
    simp only [Option.map_some, Option.toList_some, Plan.run_cons, Plan.run_nil,
      Condition.withKeys_of_operandCalls_eq_nil _ columns.operandCalls_eq_nil, passed, filterStages,
      filter, Option.map_none, Option.toList_none]
    rfl
  rw [run_eq, run_eq, before, after, laterStages_withHaving _ having columns.operandCalls_eq_nil,
    Group.groupRows_filter grouped columns helpers]
  rfl

/-- One group passes and the other does not; the helper of ORDER BY has its natural key taken. -/
theorem run_filter_eq_run_having_region :
    let q : Query := ⟨[.column "region" none, .aggregate ⟨.sum, some "sales"⟩ none], true, none,
      ["region"], none, [⟨"region", true, some ⟨.maximum, some "region"⟩⟩], some 3, 0⟩
    let written : WrittenCondition := ⟨"region <> 'south'",
      .test (.column "region") (.compare .different (.text "south"))⟩
    let rows : Relation := [⟨[("region", .text "north"), ("sales", .number .zero)]⟩,
      ⟨[("region", .text "south")]⟩, ⟨[("Region", .text "north")]⟩]
    Config.default.run { q with filter := some written } rows =
      Config.default.run { q with having := some written } rows := by
  intro q written rows
  exact run_filter_eq_run_having .default rows (by decide) rfl rfl
    (by decide) (.test (by decide))

end Query
end RecordQuery
