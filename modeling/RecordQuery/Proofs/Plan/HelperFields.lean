import Mathlib.Data.List.Perm.Subperm
import RecordQuery.Proofs.Plan.Stages

/-! Fields that only HAVING and ORDER BY need. They stand in the rows of groups beside the
fields that are shown, under keys of their own, so that a select list shows them only where it
has a column named like one of them. -/
namespace RecordQuery

namespace Record

theorem lookup_addResult {results r : Record} {named : NamedCall} {name : String}
    (differ : Text.sameName name named.key = false) :
    (addResult results r named).lookup name = r.lookup name := by
  unfold addResult
  split
  · rfl
  · split
    next value _ => exact lookup_insert_of_not_sameName r differ value
    next => rfl

theorem lookup_foldl_addResult {results r : Record} {calls : List NamedCall} {name : String}
    (differ : ∀ named ∈ calls, Text.sameName name named.key = false) :
    (calls.foldl (addResult results) r).lookup name = r.lookup name := by
  induction calls generalizing r with
  | nil => rfl
  | cons named calls ih =>
    rw [List.foldl_cons, ih fun later member => differ later (List.mem_cons_of_mem _ member),
      lookup_addResult (differ named List.mem_cons_self)]

theorem foldl_addResult_congr {results results' : Record} {calls : List NamedCall}
    (same : ∀ named ∈ calls, results.get? named.key = results'.get? named.key) (r : Record) :
    calls.foldl (addResult results) r = calls.foldl (addResult results') r := by
  apply List.foldl_ext
  intro r named member
  rw [addResult, addResult, same named member]

/-- Further calls whose keys are others leave what the calls before them have written. -/
theorem exists_withResults_append (policy : MissingPolicy) (base : Record) (members : Relation)
    {calls helpers : List NamedCall}
    (apart : ∀ added ∈ helpers, ∀ named ∈ calls, Text.sameName named.key added.key = false) :
    ∃ results, withResults policy base members (calls ++ helpers) =
      helpers.foldl (addResult results) (withResults policy base members calls) := by
  have same : ∀ named ∈ calls,
      (Aggregate.results policy members ((calls ++ helpers).map fun named => (named.call, named.key))).get?
        named.key =
      (Aggregate.results policy members (calls.map fun named => (named.call, named.key))).get?
        named.key := by
    intro named member
    have absent : named.key ∉ helpers.map NamedCall.key := by
      intro found
      obtain ⟨added, here, equal⟩ := List.mem_map.mp found
      have differ := apart added here named member
      rw [equal, Text.sameName_self] at differ
      cases differ
    rw [List.map_append, Aggregate.get?_results_append (by simpa [Function.comp_def] using absent)]
  refine ⟨Aggregate.results policy members ((calls ++ helpers).map fun named => (named.call, named.key)), ?_⟩
  rw [withResults, List.foldl_append, foldl_addResult_congr same]
  rfl

theorem lookup_withResults_append {policy : MissingPolicy} {base : Record} {members : Relation}
    {calls helpers : List NamedCall} {name : String}
    (apart : ∀ added ∈ helpers, ∀ named ∈ calls, Text.sameName named.key added.key = false)
    (differ : ∀ added ∈ helpers, Text.sameName name added.key = false) :
    (withResults policy base members (calls ++ helpers)).lookup name =
      (withResults policy base members calls).lookup name := by
  obtain ⟨results, rows⟩ := exists_withResults_append policy base members apart
  rw [rows, lookup_foldl_addResult differ]

theorem keys_subset_addResult (results r : Record) (named : NamedCall) :
    r.keys ⊆ (addResult results r named).keys := by
  intro key member
  unfold addResult
  split
  · exact member
  · split
    · exact (mem_keys_insert ..).mpr (.inl member)
    · exact member

theorem mem_keys_foldl_addResult {results r : Record} {calls : List NamedCall} {named : NamedCall}
    (member : named ∈ calls) (shown : named.helper = false) {value : Value}
    (stored : results.get? named.key = some value) :
    named.key ∈ (calls.foldl (addResult results) r).keys := by
  induction calls using List.reverseRecOn with
  | nil => cases member
  | append_singleton calls last ih =>
    rw [List.foldl_append, List.foldl_cons, List.foldl_nil]
    rcases List.mem_append.mp member with earlier | here
    · exact keys_subset_addResult results _ last (ih earlier)
    · obtain rfl := List.mem_singleton.mp here
      simp [addResult, shown, stored, mem_keys_insert]

/-- Every call has a result under its key. -/
theorem exists_result (policy : MissingPolicy) (members : Relation) {calls : List NamedCall}
    {named : NamedCall} (member : named ∈ calls) : ∃ value, (Aggregate.results policy members
      (calls.map fun named => (named.call, named.key))).get? named.key = some value := by
  rw [← Option.isSome_iff_exists, isSome_get?_iff, Aggregate.results_eq, mem_keys_ofList, List.map_map,
    List.map_map]
  exact List.mem_map.mpr ⟨named, member, rfl⟩

/-- A call that is shown has a field. -/
theorem mem_keys_withResults {policy : MissingPolicy} {base : Record} {members : Relation}
    {calls : List NamedCall} {named : NamedCall} (member : named ∈ calls) (shown : named.helper = false) :
    named.key ∈ (withResults policy base members calls).keys := by
  obtain ⟨value, stored⟩ := exists_result policy members member
  exact mem_keys_foldl_addResult member shown stored

end Record

namespace NamedCall

/-- The planner adds helpers behind the calls that are there, under keys that neither these nor the
group columns have. -/
theorem exists_helpers {groupBy : List String} {calls : List NamedCall} {later : List Aggregate.Call}
    (columns : ∀ name ∈ groupBy, Text.IsLowerName name) (named : ∀ named ∈ calls, named.WellNamed)
    (later_named : ∀ call ∈ later, call.WellNamed) :
    ∃ helpers, later.foldl (addHelper groupBy) calls = calls ++ helpers ∧
      ∀ added ∈ helpers, added.helper = true ∧ (∀ name ∈ groupBy, Text.sameName name added.key = false) ∧
        ∀ named ∈ calls, Text.sameName named.key added.key = false := by
  induction later generalizing calls with
  | nil => exact ⟨[], (List.append_nil calls).symm, fun _ member => by cases member⟩
  | cons call later ih =>
    have call_named := later_named call List.mem_cons_self
    obtain ⟨helpers, same, apart⟩ := ih (addHelper_wellNamed named call_named)
      fun other member => later_named other (List.mem_cons_of_mem _ member)
    cases found : keyOf? calls call with
    | some key =>
      have unchanged : addHelper groupBy calls call = calls := by simp [addHelper, found]
      rw [unchanged] at same apart
      exact ⟨helpers, by rw [List.foldl_cons, unchanged, same], apart⟩
    | none =>
      have added : addHelper groupBy calls call =
          calls ++ [⟨call, helperKey groupBy calls call, true⟩] := by simp [addHelper, found, helperKey]
      rw [added] at same apart
      refine ⟨⟨call, helperKey groupBy calls call, true⟩ :: helpers, ?_, ?_⟩
      · rw [List.foldl_cons, added, same, List.append_assoc, List.singleton_append]
      · intro other member
        rcases List.mem_cons.mp member with rfl | member
        · exact ⟨rfl, helperKey_new columns named call_named found⟩
        · obtain ⟨helper, column, differ⟩ := apart other member
          exact ⟨helper, column, fun earlier here => differ earlier (List.mem_append_left _ here)⟩

end NamedCall

/-- The column that an item reads from a row. A call is no column: it reads its own result. -/
def SelectItem.column? : SelectItem → Option String
  | column name _ | datePart _ name _ => some name
  | wildcard | aggregate _ _ => none

namespace Query

/-- No column of the select list has the name of a helper, in any spelling. -/
def NamesNoHelper (q : Query) : Prop :=
  ∀ item ∈ q.select, ∀ name ∈ item.column?, ∀ key ∈ q.hiddenKeys, Text.sameName name key = false

instance (q : Query) : Decidable q.NamesNoHelper :=
  inferInstanceAs (Decidable (∀ item ∈ q.select, ∀ name ∈ item.column?, ∀ key ∈ q.hiddenKeys,
    Text.sameName name key = false))

/-- The query without HAVING and ORDER BY. -/
def allGroups (q : Query) : Query := { q with having := none, orderBy := [] }

theorem namedCalls_allGroups {q : Query} (grouped : q.isGrouped = true) :
    q.allGroups.namedCalls = q.selectCalls := if_pos grouped

/-- The hidden keys are those of the helpers, and no group column or call that is shown has one of
them. -/
theorem exists_helpers {q : Query} (names : q.WellNamed) (grouped : q.isGrouped = true) :
    ∃ helpers, q.namedCalls = q.selectCalls ++ helpers ∧ q.hiddenKeys = helpers.map NamedCall.key ∧
      ∀ key ∈ q.hiddenKeys, (∀ name ∈ q.groupBy, Text.sameName name key = false) ∧
        ∀ named ∈ q.selectCalls, Text.sameName named.key key = false := by
  obtain ⟨helpers, calls, apart⟩ := NamedCall.exists_helpers names.groupBy (selectCalls_wellNamed names)
    (laterCalls_wellNamed names)
  have all : q.namedCalls = q.selectCalls ++ helpers := by rw [namedCalls, if_pos grouped, calls]
  have shown : q.selectCalls.filter NamedCall.helper = [] := by
    rw [List.filter_eq_nil_iff]
    intro named member
    obtain ⟨_, _, _, rfl⟩ := selectCalls_origin member
    exact Bool.false_ne_true
  have added : helpers.filter NamedCall.helper = helpers :=
    List.filter_eq_self.mpr fun added member => (apart added member).1
  have hidden : q.hiddenKeys = helpers.map NamedCall.key := by
    rw [hiddenKeys, all, List.filter_append, shown, added, List.nil_append]
  refine ⟨helpers, all, hidden, ?_⟩
  intro key member
  rw [hidden] at member
  obtain ⟨added, found, rfl⟩ := List.mem_map.mp member
  exact (apart added found).2

/-- Only a helper's own name finds what a helper has added. -/
theorem lookup_rowOf_allGroups {q : Query} (names : q.WellNamed) (grouped : q.isGrouped = true)
    {name : String} (differ : ∀ key ∈ q.hiddenKeys, Text.sameName name key = false)
    (policy : MissingPolicy) (group : Group) :
    (q.rowOf policy group).lookup name = (q.allGroups.rowOf policy group).lookup name := by
  obtain ⟨helpers, all, hidden, apart⟩ := exists_helpers names grouped
  have key {added : NamedCall} (member : added ∈ helpers) : added.key ∈ q.hiddenKeys := by
    rw [hidden]
    exact List.mem_map_of_mem member
  rw [rowOf, rowOf, all, namedCalls_allGroups grouped]
  exact Record.lookup_withResults_append (fun _ member => (apart _ (key member)).2)
    fun _ member => differ _ (key member)

/-- The call of a select item is found under its key, so that nothing else is tried. -/
theorem resolve_rowOf_allGroups {q : Query} (names : q.WellNamed) (grouped : q.isGrouped = true)
    {call : Aggregate.Call} {label : Option String} (member : .aggregate call label ∈ q.select)
    (policy : MissingPolicy) (group : Group) :
    (SelectItem.aggregate call label).resolve (q.rowOf policy group) =
      (SelectItem.aggregate call label).resolve (q.allGroups.rowOf policy group) := by
  obtain ⟨_, _, _, apart⟩ := exists_helpers names grouped
  have own := mem_selectCalls member
  have value := lookup_rowOf_allGroups names grouped (fun key hidden => (apart key hidden).2 _ own) policy group
  cases label with
  | none => exact value
  | some label =>
    have present : (q.allGroups.rowOf policy group).has label = true := by
      rw [Record.has_iff]
      refine ⟨label, ?_, Text.sameName_self label⟩
      rw [rowOf, namedCalls_allGroups grouped]
      exact Record.mem_keys_withResults own rfl
    obtain ⟨found, present⟩ := Option.isSome_iff_exists.mp present
    rw [Option.getD_some, present] at value
    simp [SelectItem.resolve, value, present]

/-- What is shown of a group does not depend on the helpers. -/
theorem project_rowOf {q : Query} (names : q.WellNamed) (grouped : q.isGrouped = true)
    (unnamed : q.NamesNoHelper) (policy : MissingPolicy) (group : Group) :
    (q.rowOf policy group).project q.select = (q.allGroups.rowOf policy group).project q.select := by
  apply Record.project_congr
  intro item member
  cases item with
  | wildcard => rfl
  | column name label =>
    exact lookup_rowOf_allGroups names grouped (unnamed _ member name rfl) policy group
  | datePart part name label =>
    rw [SelectItem.resolve, SelectItem.resolve,
      lookup_rowOf_allGroups names grouped (unnamed _ member name rfl) policy group]
  | aggregate call label => exact resolve_rowOf_allGroups names grouped member policy group

/-- HAVING keeps some of the groups, in their order. -/
theorem run_groupStages_sublist {q : Query} (grouped : q.isGrouped = true) (policy : MissingPolicy)
    (rows : Relation) : (Plan.run policy q.groupStages (q.passed policy rows)).Sublist
      ((q.groups policy rows).map (q.rowOf policy)) := by
  rw [groupStages, if_pos grouped, Plan.run_cons, Stage.run, Group.groupRows_eq]
  cases q.having with
  | none => exact List.Sublist.refl _
  | some written => exact List.filter_sublist

theorem run_groupStages_allGroups {q : Query} (grouped : q.isGrouped = true) (policy : MissingPolicy)
    (rows : Relation) : Plan.run policy q.allGroups.groupStages (q.allGroups.passed policy rows) =
      (q.groups policy rows).map (q.allGroups.rowOf policy) := by
  rw [groupStages, if_pos (show q.allGroups.isGrouped = true from grouped), Plan.run_cons, Stage.run,
    Group.groupRows_eq]
  rfl

/-- HAVING and ORDER BY choose and order the rows shown and leave them as they are, unless a
column of the select list has the name of a helper. -/
theorem run_subperm_run_allGroups {config : Config} {text : String} {q : Query}
    (done : config.read text = .ok q) (grouped : q.isGrouped = true) (listed : q.isWildcard = false)
    (repeated : q.distinct = false) (limit : q.limit = none) (offset : q.offset = 0)
    (unnamed : q.NamesNoHelper) (rows : Relation) :
    (config.run q rows).Subperm (config.run q.allGroups rows) := by
  have names : q.WellNamed := wellNamed_of_read done
  let shown (rows : Relation) := rows.map (·.project q.select)
  let kept := Plan.run config.missingValues q.groupStages (q.passed config.missingValues rows)
  let groups := q.groups config.missingValues rows
  have result : config.run q rows =
      shown (Plan.run config.missingValues (q.sortStages config.orderMode) kept) := by
    rw [run_listed config listed, limit, offset, distinctStages, repeated]
    simp [sliceRows, shown, kept]
  have unsorted : config.run q.allGroups rows = shown (groups.map (q.allGroups.rowOf config.missingValues)) := by
    rw [run_listed config (show q.allGroups.isWildcard = false from listed),
      run_groupStages_allGroups grouped]
    simp [sliceRows, shown, groups, distinctStages, sortStages, allGroups, repeated, limit, offset]
  have alike : shown (groups.map (q.rowOf config.missingValues)) =
      shown (groups.map (q.allGroups.rowOf config.missingValues)) := by
    simp only [shown, List.map_map, Function.comp_def]
    exact List.map_congr_left fun group _ => project_rowOf names grouped unnamed _ group
  have sorted : (Plan.run config.missingValues (q.sortStages config.orderMode) kept).Perm kept :=
    run_sortStages_perm ..
  rw [result, unsorted, ← alike]
  exact (sorted.map _).subperm.trans ((run_groupStages_sublist grouped _ rows).map _).subperm

/-- One helper has its natural key, the other the text of its call. The shown call has that
natural key too, but is shown under a label. -/
theorem run_subperm_run_allGroups_region : ∃ q,
    Config.default.read ("SELECT region, EXTRACT(YEAR FROM day), MAX(n) AS m FROM t GROUP BY region " ++
      "HAVING SUM(n) < 9 ORDER BY AVG(n)") = .ok q ∧
    q.isGrouped = true ∧ q.isWildcard = false ∧ q.distinct = false ∧ q.limit = none ∧ q.offset = 0 ∧
    q.NamesNoHelper ∧
    let rows : Relation := [⟨[("region", .text "east"), ("day", .text "2024-05-01"), ("n", .number .zero)]⟩,
      ⟨[("region", .text "west")]⟩, ⟨[("region", .text "west"), ("n", .number (.whole 8 (by decide)))]⟩]
    (Config.default.run q rows).Subperm (Config.default.run q.allGroups rows) := by
  obtain ⟨q, done, conditions⟩ := Except.exists_of_any_toOption (show (Config.default.read
      ("SELECT region, EXTRACT(YEAR FROM day), MAX(n) AS m FROM t GROUP BY region " ++
        "HAVING SUM(n) < 9 ORDER BY AVG(n)")).toOption.any
    (fun q => decide (q.isGrouped = true ∧ q.isWildcard = false ∧ q.distinct = false ∧
      q.limit = none ∧ q.offset = 0 ∧ q.NamesNoHelper)) = true
    by decide +kernel)
  obtain ⟨grouped, listed, repeated, limit, offset, unnamed⟩ := of_decide_eq_true conditions
  exact ⟨q, done, grouped, listed, repeated, limit, offset, unnamed,
    run_subperm_run_allGroups done grouped listed repeated limit offset unnamed _⟩

/-- A column that is no group column has no value in the row of a group, but the sum for HAVING
is stored under the name of its argument, and the column shows it. -/
theorem run_not_subset_run_allGroups_sales : ∃ q,
    Config.default.read "SELECT region, sales FROM t GROUP BY region HAVING SUM(sales) > 0" = .ok q ∧
    q.isGrouped = true ∧ q.isWildcard = false ∧ q.distinct = false ∧ q.limit = none ∧ q.offset = 0 ∧
    let rows : Relation :=
      [⟨[("region", .text "East"), ("sales", .number (.whole 100 (by decide)))]⟩]
    ¬ Config.default.run q rows ⊆ Config.default.run q.allGroups rows := by
  obtain ⟨q, done, conditions⟩ := Except.exists_of_any_toOption (show (Config.default.read
      "SELECT region, sales FROM t GROUP BY region HAVING SUM(sales) > 0").toOption.any
    (fun q => decide (q.isGrouped = true ∧ q.isWildcard = false ∧ q.distinct = false ∧
      q.limit = none ∧ q.offset = 0 ∧
      let rows : Relation :=
        [⟨[("region", .text "East"), ("sales", .number (.whole 100 (by decide)))]⟩]
      ¬ ∀ r ∈ Config.default.run q rows, r ∈ Config.default.run q.allGroups rows)) = true
    by decide +kernel)
  exact ⟨q, done, of_decide_eq_true conditions⟩

end Query
end RecordQuery
