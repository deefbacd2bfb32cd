import RecordQuery.Proofs.Plan.Partition

/-! Different combinations of columns. They can be asked for by DISTINCT, which keeps the first
row of each, or by GROUP BY, which makes a new row for each. Where every column is there under
one name the two say the same. -/
namespace RecordQuery

/-- The notation of what makes rows the same decides as that itself does. -/
theorem distinctRows_eq (items : List SelectItem) (rows : Relation) :
    distinctRows items rows = firstOccurrences (·.identity items) rows := by
  rw [distinctRows, firstOccurrences_map, List.map_map]
  simp only [Function.comp_def, List.map_id']
  exact firstOccurrences_congr fun _ _ _ _ => Value.compactText_inj

/-- Without calls the row of a group has the group columns only. -/
theorem groupRows_nil {keys : List String} (grouped : keys ≠ []) (policy : MissingPolicy)
    (rows : Relation) : groupRows policy keys [] rows =
      (firstOccurrences (·.groupValues keys) rows).map fun r =>
        Record.ofList (keys.zip (r.groupValues keys)) := by
  rw [Group.groupRows_eq, Group.all, if_neg (by simpa using grouped), Group.ofRows_eq,
    ← map_firstOccurrences, List.map_map, List.map_map]
  rfl

namespace Record

/-- The value of a column is found in the row of its group, whatever the spelling. -/
theorem lookup_groupRow {r : Record} (unambiguous : r.Unambiguous) {columns : List String}
    {name : String} (column : name ∈ columns) :
    (ofList ((columns.map Text.lower).zip (r.groupValues (columns.map Text.lower)))).lookup name =
      some (r.lookupOrNull name) := by
  have lower : ∀ key ∈ (ofList ((columns.map Text.lower).zip
      (r.groupValues (columns.map Text.lower)))).keys, Text.lower key = key := by
    intro key member
    rw [mem_keys_ofList] at member
    obtain ⟨field, found, rfl⟩ := List.mem_map.mp member
    obtain ⟨column, _, same⟩ := List.mem_map.mp (List.of_mem_zip found).1
    rw [← same, Text.lower_lower]
  rw [lookup_of_lower_keys lower, get?_ofList_zip r (List.mem_map_of_mem column), lookupOrNull,
    lookup_lower unambiguous]
  rfl

/-- Where every column is present, it is shown alike of a row and of the row of its group. -/
theorem project_groupRow {r : Record} (unambiguous : r.Unambiguous) {columns : List String}
    (present : ∀ name ∈ columns, r.has name = true) :
    (ofList ((columns.map Text.lower).zip (r.groupValues (columns.map Text.lower)))).project
      (columns.map (.column · none)) = r.project (columns.map (.column · none)) := by
  apply project_congr
  intro item member
  obtain ⟨name, column, rfl⟩ := List.mem_map.mp member
  obtain ⟨value, found⟩ := Option.isSome_iff_exists.mp (present name column)
  rw [SelectItem.resolve, SelectItem.resolve, lookup_groupRow unambiguous column, lookupOrNull, found,
    Option.getD_some]

theorem identity_columns {r : Record} (unambiguous : r.Unambiguous) (columns : List String) :
    r.identity (columns.map (.column · none)) = .list (r.groupValues (columns.map Text.lower)) := by
  have plain : (columns.map (SelectItem.column · none)).any SelectItem.isWildcard = false := by
    simp [SelectItem.isWildcard]
  rw [identity, plain, groupValues, List.map_map, List.map_map]
  simp only [Bool.false_eq_true, if_false, Value.list.injEq]
  apply List.map_congr_left
  intro name _
  rw [Function.comp_apply, Function.comp_apply, lookupOrNull, lookup_lower unambiguous]
  rfl

end Record

/-- The first row of each combination is shown as the row of the group is. -/
theorem map_project_distinctRows {columns : List String} (nonempty : columns ≠ [])
    (policy : MissingPolicy) {rows : Relation} (unambiguous : ∀ r ∈ rows, r.Unambiguous)
    (present : ∀ r ∈ rows, ∀ name ∈ columns, r.has name = true) :
    (distinctRows (columns.map (.column · none)) rows).map (·.project (columns.map (.column · none))) =
      (groupRows policy (columns.map Text.lower) [] rows).map
        (·.project (columns.map (.column · none))) := by
  have firsts : firstOccurrences (·.identity (columns.map (.column · none))) rows =
      firstOccurrences (·.groupValues (columns.map Text.lower)) rows := by
    apply firstOccurrences_congr
    intro r member r' member'
    rw [Record.identity_columns (unambiguous r member), Record.identity_columns (unambiguous r' member'),
      Value.list.injEq]
  rw [distinctRows_eq, firsts, groupRows_nil (by simpa using nonempty), List.map_map]
  apply List.map_congr_left
  intro r found
  have member := (firstOccurrences_sublist _ _).mem found
  exact (Record.project_groupRow (unambiguous r member) (present r member)).symm

namespace Query

/-- SELECT DISTINCT of some columns. -/
def distinctColumns (columns : List String) (filter : Option WrittenCondition) (limit : Option Nat)
    (offset : Nat) : Query :=
  ⟨columns.map (.column · none), true, filter, [], none, [], limit, offset⟩

/-- SELECT of some columns with GROUP BY of the same. -/
def groupedColumns (columns : List String) (filter : Option WrittenCondition) (limit : Option Nat)
    (offset : Nat) : Query :=
  ⟨columns.map (.column · none), false, filter, columns.map Text.lower, none, [], limit, offset⟩

theorem selectCalls_columns {q : Query} {columns : List String}
    (plain : q.select = columns.map (.column · none)) : q.selectCalls = [] := by
  rw [selectCalls, plain, List.filterMap_map]
  exact List.filterMap_eq_nil_iff.mpr fun _ _ => rfl

theorem groupStages_distinctColumns (columns : List String) (filter : Option WrittenCondition)
    (limit : Option Nat) (offset : Nat) :
    (distinctColumns columns filter limit offset).groupStages = [] := by
  simp [groupStages, isGrouped, hasAggregates, distinctColumns, SelectItem.isAggregate]

theorem groupStages_groupedColumns {columns : List String} (nonempty : columns ≠ [])
    (filter : Option WrittenCondition) (limit : Option Nat) (offset : Nat) :
    (groupedColumns columns filter limit offset).groupStages =
      [.group (columns.map Text.lower) []] := by
  have grouped : (groupedColumns columns filter limit offset).isGrouped = true := by
    simp [isGrouped, groupedColumns, nonempty]
  have calls : (groupedColumns columns filter limit offset).namedCalls = [] := by
    rw [namedCalls, if_pos grouped, selectCalls_columns rfl]
    rfl
  rw [groupStages, if_pos grouped, calls]
  rfl

/-- The same combinations of columns come from DISTINCT and from GROUP BY. -/
theorem run_distinctColumns_eq_run_groupedColumns (config : Config) {columns : List String}
    (nonempty : columns ≠ []) (filter : Option WrittenCondition) (limit : Option Nat) (offset : Nat)
    {rows : Relation} (unambiguous : ∀ r ∈ rows, r.Unambiguous)
    (present : ∀ r ∈ rows, ∀ name ∈ columns, r.has name = true) :
    config.run (distinctColumns columns filter limit offset) rows =
      config.run (groupedColumns columns filter limit offset) rows := by
  have listed : (columns.map (SelectItem.column · none)).any SelectItem.isWildcard = false := by
    simp [SelectItem.isWildcard]
  -- Both filter alike, and what is left are rows of the relation.
  have fewer := (passed_sublist config.missingValues
    (distinctColumns columns filter limit offset) rows).subset
  have combinations := map_project_distinctRows nonempty config.missingValues
    (fun r member => unambiguous r (fewer member)) (fun r member => present r (fewer member))
  rw [run_listed config (by exact listed), run_listed config (by exact listed),
    groupStages_distinctColumns, groupStages_groupedColumns nonempty]
  exact congrArg (sliceRows limit offset) combinations

/-- A column may be asked for twice, in other letters than it is written with. -/
theorem run_distinctColumns_region :
    let columns := ["Region", "size", "REGION"]
    let written : WrittenCondition := ⟨"size > 0",
      .test (.column "size") (.compare .greater (.number .zero))⟩
    let one : Number := .whole 1 (by decide)
    let rows : Relation := [⟨[("REGION", .text "east"), ("size", .number one)]⟩,
      ⟨[("size", .number one), ("region", .null)]⟩, ⟨[("Size", .number .zero), ("region", .null)]⟩,
      ⟨[("Region", .text "east"), ("size", .number (.float .one))]⟩]
    columns ≠ [] ∧ (∀ r ∈ rows, r.Unambiguous) ∧ (∀ r ∈ rows, ∀ name ∈ columns, r.has name = true) ∧
      Config.default.run (distinctColumns columns (some written) (some 2) 1) rows =
        Config.default.run (groupedColumns columns (some written) (some 2) 1) rows := by
  intro columns written one rows
  have nonempty : columns ≠ [] := by decide
  have unambiguous : ∀ r ∈ rows, r.Unambiguous := by decide +kernel
  have present : ∀ r ∈ rows, ∀ name ∈ columns, r.has name = true := by
    simp only [Record.has_iff, Text.sameName_iff_letters]
    decide +kernel
  exact ⟨nonempty, unambiguous, present,
    run_distinctColumns_eq_run_groupedColumns .default nonempty _ _ _ unambiguous present⟩

end Query
end RecordQuery
