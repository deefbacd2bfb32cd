import RecordQuery.Proofs.Plan.DistinctColumns
import RecordQuery.Proofs.Plan.HelperFields

/-! Group columns in a select list. The values of a group and the results of its calls share
one row. A helper never takes the name of a group column, yet a call of the select list has the
key that the query gives it, and a column of that name shows the result in place of the value. -/
namespace RecordQuery

namespace Group

theorem members_ne_nil {keys : List String} {rows : Relation} {group : Group}
    (found : group ∈ ofRows keys rows) : group.members ≠ [] := by
  obtain ⟨⟨r, member, values⟩, members⟩ := mem_ofRows.mp found
  rw [members]
  exact List.ne_nil_of_mem (List.mem_filter.mpr ⟨member, by simpa using values⟩)

/-- In the row of a group that holds no result under its name, a group column has the value
that it has in each member. -/
theorem lookup_row_column {keys : List String} (lower : ∀ key ∈ keys, Text.lower key = key)
    {calls : List NamedCall} (apart : NamedCall.Apart keys calls) (policy : MissingPolicy)
    {rows : Relation} {group : Group} (found : group ∈ ofRows keys rows) {r : Record}
    (member : r ∈ group.members) {name : String} (column : Text.lower name ∈ keys)
    (free : ∀ named ∈ calls, named.key ≠ name ∧ named.key ≠ Text.lower name) :
    (group.row policy keys calls).lookup name = some (r.lookupOrNull (Text.lower name)) := by
  have values : group.values = r.groupValues keys := by
    rw [(mem_ofRows.mp found).2, List.mem_filter, decide_eq_true_eq] at member
    exact member.2.symm
  have kept {spelling : String} (unused : ∀ named ∈ calls, named.key ≠ spelling) :
      (group.row policy keys calls).get? spelling = (group.base keys).get? spelling := by
    rw [row, Record.withResults_eq (apart.mono (group.keys_base_subset keys))]
    apply Record.get?_insertAll_of_notMem
    simpa using unused
  have stored : (group.base keys).get? (Text.lower name) = some (r.lookupOrNull (Text.lower name)) := by
    rw [base, values]
    exact Record.get?_ofList_zip r column
  have exact_spelling := kept fun named member => (free named member).1
  have lower_spelling := kept fun named member => (free named member).2
  rw [Record.lookup, exact_spelling, lower_spelling, stored]
  cases present : (group.base keys).get? name with
  | none => rfl
  | some value =>
    have own : Text.lower name = name := by
      apply lower
      apply group.keys_base_subset keys
      rw [← Record.isSome_get?_iff, present]
      rfl
    rw [own, present] at stored
    rw [Option.some_or, stored, own]

end Group

theorem distinctRows_sublist (items : List SelectItem) (rows : Relation) :
    (distinctRows items rows).Sublist rows := by
  rw [distinctRows_eq]
  exact firstOccurrences_sublist _ rows

theorem sliceRows_sublist (limit : Option Nat) (offset : Nat) (rows : Relation) :
    (sliceRows limit offset rows).Sublist rows := by
  cases limit with
  | none => exact List.drop_sublist offset rows
  | some n => exact (List.take_sublist n _).trans (List.drop_sublist offset rows)

/-- Rows are shown one by one. -/
theorem projectRows_eq_flatMap (items : List SelectItem) (hidden : List String) (rows : Relation) :
    projectRows items hidden rows = rows.flatMap fun r => projectRows items hidden [r] := by
  unfold projectRows
  split <;> exact List.map_eq_flatMap

namespace Query

theorem run_distinctStages_sublist (policy : MissingPolicy) (q : Query) (rows : Relation) :
    (Plan.run policy q.distinctStages rows).Sublist rows := by
  unfold distinctStages
  split
  · exact distinctRows_sublist q.select rows
  · exact List.Sublist.refl rows

/-- Every row of the result shows the row of a group. -/
theorem exists_rowOf_of_mem_run {config : Config} {q : Query} (grouped : q.isGrouped = true)
    {rows : Relation} {shown : Record} (member : shown ∈ config.run q rows) :
    ∃ group ∈ q.groups config.missingValues rows,
      shown ∈ projectRows q.select q.hiddenKeys [q.rowOf config.missingValues group] := by
  rw [run_eq, laterStages, Plan.run_append, Plan.run_append, Plan.run_append, run_sliceStages, Plan.run_cons,
    Plan.run_nil, Stage.run, projectRows_eq_flatMap] at member
  obtain ⟨r, sliced, alone⟩ := List.mem_flatMap.mp member
  have distinct := (run_distinctStages_sublist _ q _).mem ((sliceRows_sublist _ _ _).mem sliced)
  rw [(run_sortStages_perm _ _ q _).mem_iff] at distinct
  obtain ⟨group, inside, rfl⟩ :=
    List.mem_map.mp ((run_groupStages_sublist grouped _ rows).mem distinct)
  exact ⟨group, inside, alone⟩

theorem exists_group_of_mem_run {config : Config} {q : Query} (grouped : q.isGrouped = true)
    (listed : q.isWildcard = false) {rows : Relation} {shown : Record}
    (member : shown ∈ config.run q rows) : ∃ group ∈ q.groups config.missingValues rows,
      shown = (q.rowOf config.missingValues group).project q.select := by
  obtain ⟨group, inside, alone⟩ := exists_rowOf_of_mem_run grouped member
  rw [projectRows, if_neg (by simpa [isWildcard] using listed)] at alone
  exact ⟨group, inside, List.mem_singleton.mp alone⟩

/-- The group column with this name is in lower case. -/
theorem lower_mem_groupBy {q : Query} (names : q.WellNamed) {name : String}
    (column : q.isGroupColumn name = true) : Text.lower name ∈ q.groupBy := by
  obtain ⟨key, found, same⟩ := List.any_eq_true.mp column
  rw [Text.sameName_iff, (names.groupBy key found).lower] at same
  rwa [← same]

/-- No call of the select list is shown under the name of a column, as written or in lower case. -/
def LeavesColumn (q : Query) (name : String) : Prop :=
  ∀ named ∈ q.selectCalls, named.key ≠ name ∧ named.key ≠ Text.lower name

instance (q : Query) (name : String) : Decidable (q.LeavesColumn name) :=
  inferInstanceAs (Decidable (∀ named ∈ _, _ ∧ _))

/-- No helper has the name of a group column. -/
theorem LeavesColumn.namedCalls {q : Query} {name : String} (left : q.LeavesColumn name)
    (grouped : q.isGrouped = true) (column : Text.lower name ∈ q.groupBy)
    (apart : NamedCall.Apart q.groupBy q.namedCalls) :
    ∀ named ∈ q.namedCalls, named.key ≠ name ∧ named.key ≠ Text.lower name := by
  intro named member
  have origin : named ∈ q.selectCalls ∨ named.helper = true := by
    rw [Query.namedCalls, if_pos grouped] at member
    exact NamedCall.helper_of_mem_foldl_addHelper member
  rcases origin with shown | helper
  · exact left named shown
  · have differ := apart.present named member helper _ column
    constructor
    · intro same
      simp [same, Text.sameName] at differ
    · intro same
      simp [same] at differ

/-- A column named like the key of a shown call shows the result of the call. -/
theorem get?_project_column_of_call {q : Query} (names : q.WellNamed) (grouped : q.isGrouped = true)
    (apart : (q.select.filterMap SelectItem.outputKey?).Nodup) (policy : MissingPolicy) (group : Group)
    {named : NamedCall} (shown : named ∈ q.selectCalls) {label : Option String}
    (item : .column named.key label ∈ q.select) :
    ((q.rowOf policy group).project q.select).get? (label.getD named.key) =
      some (named.call.over policy group.members) := by
  apply Record.get?_project_of_mem apart item rfl
  exact Record.lookup_of_get? (Group.get?_row (namedCalls_apart names grouped apart) policy group
    (selectCalls_subset_namedCalls grouped shown))

/-- A selected group column shows the value that it has in every row of the group, whatever else
is computed, unless a call is shown under its name. -/
theorem get?_groupColumn_of_mem_run {config : Config} {text : String} {q : Query}
    (done : config.read text = .ok q) (grouped : q.groupBy ≠ []) (listed : q.isWildcard = false)
    (apart : (q.select.filterMap SelectItem.outputKey?).Nodup) {rows : Relation} {shown : Record}
    (member : shown ∈ config.run q rows) :
    ∃ group ∈ q.groups config.missingValues rows, group.members ≠ [] ∧
      shown = (q.rowOf config.missingValues group).project q.select ∧
      ∀ name label, .column name label ∈ q.select → q.isGroupColumn name = true →
        q.LeavesColumn name → ∀ r ∈ group.members,
          shown.get? (label.getD name) = some (r.lookupOrNull (Text.lower name)) := by
  have names : q.WellNamed := wellNamed_of_read done
  have isGrouped : q.isGrouped = true := by simp [Query.isGrouped, grouped]
  obtain ⟨group, found, rfl⟩ := exists_group_of_mem_run isGrouped listed member
  have placed : group ∈ Group.ofRows q.groupBy (q.passed config.missingValues rows) := by
    simpa [groups, Group.all, grouped] using found
  refine ⟨group, found, Group.members_ne_nil placed, rfl, ?_⟩
  intro name label item column left r inside
  have keysApart := namedCalls_apart names isGrouped apart
  have lowered := lower_mem_groupBy names column
  apply Record.get?_project_of_mem apart item rfl
  exact Group.lookup_row_column (fun key found => (names.groupBy key found).lower) keysApart _ placed
    inside lowered (left.namedCalls isGrouped lowered keysApart)

/-- A shown call may have the name of the column in another spelling, and a helper is called
after the column. -/
theorem get?_groupColumn_region :
    let rows : Relation := [⟨[("region", .text "east"), ("n", .number .zero)]⟩,
      ⟨[("region", .text "west"), ("n", .text "none")]⟩,
      ⟨[("n", .number (.whole 8 (by decide))), ("region", .text "east")]⟩]
    let shown : Record := ⟨[("r", .text "east"), ("REGION", .number (.whole 8 (by decide)))]⟩
    ∃ q, Config.default.read
        "SELECT region AS r, SUM(n) AS REGION FROM t GROUP BY region HAVING MIN(region) < 1" = .ok q ∧
      q.groupBy ≠ [] ∧ q.isWildcard = false ∧ (q.select.filterMap SelectItem.outputKey?).Nodup ∧
      shown ∈ Config.default.run q rows ∧ .column "region" (some "r") ∈ q.select ∧
      q.isGroupColumn "region" = true ∧ q.LeavesColumn "region" ∧
      ∃ group ∈ q.groups .zero rows, group.members ≠ [] ∧
        shown = (q.rowOf .zero group).project q.select ∧
        ∀ name label, .column name label ∈ q.select → q.isGroupColumn name = true →
          q.LeavesColumn name → ∀ r ∈ group.members,
            shown.get? (label.getD name) = some (r.lookupOrNull (Text.lower name)) := by
  intro rows shown
  obtain ⟨q, done, conditions⟩ := Except.exists_of_any_toOption (show (Config.default.read
      "SELECT region AS r, SUM(n) AS REGION FROM t GROUP BY region HAVING MIN(region) < 1").toOption.any
    (fun q => decide (q.groupBy ≠ [] ∧ q.isWildcard = false ∧
      (q.select.filterMap SelectItem.outputKey?).Nodup ∧ shown ∈ Config.default.run q rows ∧
      .column "region" (some "r") ∈ q.select ∧ q.isGroupColumn "region" = true ∧
      q.LeavesColumn "region")) = true
    by decide +kernel)
  obtain ⟨grouped, listed, apart, member, item, column, left⟩ := of_decide_eq_true conditions
  exact ⟨q, done, grouped, listed, apart, member, item, column, left,
    get?_groupColumn_of_mem_run done grouped listed apart member⟩

/-- The sum of a group column is stored under the name of its argument, which is the column's, and
the column shows it although no two keys are the same. -/
theorem get?_ne_groupColumn_price :
    let rows : Relation := [⟨[("price", .number (.whole 10 (by decide)))]⟩,
      ⟨[("price", .number (.whole 10 (by decide)))]⟩]
    ∃ q, Config.default.read "SELECT price AS p, SUM(price) FROM t GROUP BY price" = .ok q ∧
      q.groupBy ≠ [] ∧ q.isWildcard = false ∧ (q.select.filterMap SelectItem.outputKey?).Nodup ∧
      .column "price" (some "p") ∈ q.select ∧ q.isGroupColumn "price" = true ∧
      ∃ shown ∈ Config.default.run q rows, ∀ r ∈ rows, shown.get? "p" ≠ some (r.lookupOrNull "price") := by
  intro rows
  obtain ⟨q, done, conditions⟩ := Except.exists_of_any_toOption (show (Config.default.read
      "SELECT price AS p, SUM(price) FROM t GROUP BY price").toOption.any
    (fun q => decide (q.groupBy ≠ [] ∧ q.isWildcard = false ∧
      (q.select.filterMap SelectItem.outputKey?).Nodup ∧ .column "price" (some "p") ∈ q.select ∧
      q.isGroupColumn "price" = true ∧
      ∃ shown ∈ Config.default.run q rows, ∀ r ∈ rows,
        shown.get? "p" ≠ some (r.lookupOrNull "price"))) = true
    by decide +kernel)
  exact ⟨q, done, of_decide_eq_true conditions⟩

end Query
end RecordQuery
