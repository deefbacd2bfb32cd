import RecordQuery.Proofs.Plan.GroupColumns

/-! Rows of groups that a wildcard shows. They have the group columns and the calls of the select
list. The fields of helpers are there while groups are chosen and sorted, and are gone from the
rows shown. -/
namespace RecordQuery

namespace Record

/-- Calls that are shown are written whether their field is there or not. -/
theorem keys_foldl_addResult {results r : Record} {names : List String} {calls : List NamedCall}
    (keys : r.keys = names.eraseDups) (shown : ∀ named ∈ calls, named.helper = false)
    (stored : ∀ named ∈ calls, ∃ value, results.get? named.key = some value) :
    (calls.foldl (addResult results) r).keys = (names ++ calls.map NamedCall.key).eraseDups := by
  induction calls generalizing r names with
  | nil => simpa using keys
  | cons named calls ih =>
    obtain ⟨value, here⟩ := stored named List.mem_cons_self
    have written : addResult results r named = r.insert named.key value := by
      simp [addResult, shown named List.mem_cons_self, here]
    have later := ih (keys_insert_of_eraseDups keys named.key value)
      (fun other member => shown other (List.mem_cons_of_mem _ member))
      fun other member => stored other (List.mem_cons_of_mem _ member)
    rw [List.foldl_cons, written, later, List.append_assoc]
    rfl

theorem without_insert {names : List String} {name : String} (hidden : name ∈ names) (r : Record)
    (value : Value) : (r.insert name value).without names = r.without names := by
  obtain ⟨fields⟩ := r
  simp only [without, insert, mk.injEq]
  induction fields with
  | nil => simp [insertField, hidden]
  | cons field fields ih =>
    by_cases same : field.1 = name
    · simp [insertField, same, hidden]
    · rw [insertField, if_neg same, List.filter_cons, List.filter_cons, ih]

theorem without_addResult {results : Record} {names : List String} {named : NamedCall}
    (hidden : named.key ∈ names) (r : Record) : (addResult results r named).without names = r.without names := by
  unfold addResult
  split
  · rfl
  · split
    next value _ => exact without_insert hidden r value
    next => rfl

theorem without_foldl_addResult {results : Record} {names : List String} {calls : List NamedCall}
    (hidden : ∀ named ∈ calls, named.key ∈ names) (r : Record) :
    (calls.foldl (addResult results) r).without names = r.without names := by
  induction calls generalizing r with
  | nil => rfl
  | cons named calls ih =>
    rw [List.foldl_cons, ih fun later member => hidden later (List.mem_cons_of_mem _ member),
      without_addResult (hidden named List.mem_cons_self)]

theorem without_eq_self {r : Record} {names : List String} (absent : ∀ name ∈ r.keys, name ∉ names) :
    r.without names = r := by
  obtain ⟨fields⟩ := r
  simp only [without, mk.injEq, List.filter_eq_self]
  intro field member
  simpa using absent field.1 (List.mem_map_of_mem member)

end Record

theorem Group.keys_base {keys : List String} {rows : Relation} {group : Group}
    (found : group ∈ all keys rows) : (group.base keys).keys = keys.eraseDups := by
  have length : keys.length ≤ group.values.length := by
    unfold all at found
    split at found
    next empty => simp [List.isEmpty_iff.mp empty]
    next =>
      obtain ⟨⟨r, _, values⟩, _⟩ := mem_ofRows.mp found
      simp [← values, Record.groupValues]
  rw [base, Record.keys_ofList, List.map_fst_zip length]

namespace Query

/-- The group columns and the keys of the calls in the select list, each where it occurs first. -/
def visibleKeys (q : Query) : List String :=
  (q.groupBy ++ (q.select.filter SelectItem.isAggregate).filterMap SelectItem.outputKey?).eraseDups

theorem map_key_selectCalls (q : Query) : q.selectCalls.map NamedCall.key =
    (q.select.filter SelectItem.isAggregate).filterMap SelectItem.outputKey? := by
  rw [selectCalls, List.map_filterMap, List.filterMap_filter]
  apply List.filterMap_congr
  intro item _
  cases item <;> rfl

/-- A group that no helper is computed for has the visible keys. -/
theorem keys_rowOf_allGroups {q : Query} (grouped : q.isGrouped = true) (policy : MissingPolicy)
    {rows : Relation} {group : Group} (found : group ∈ q.groups policy rows) :
    (q.allGroups.rowOf policy group).keys = q.visibleKeys := by
  have shown : ∀ named ∈ q.selectCalls, named.helper = false := by
    intro named member
    obtain ⟨_, _, _, rfl⟩ := selectCalls_origin member
    rfl
  rw [rowOf, namedCalls_allGroups grouped, visibleKeys, ← map_key_selectCalls]
  exact Record.keys_foldl_addResult (Group.keys_base found) shown fun _ => Record.exists_result policy _

/-- No helper has the name of a visible field, in any spelling. -/
theorem sameName_visibleKeys {q : Query} (names : q.WellNamed) (grouped : q.isGrouped = true)
    {key name : String} (hidden : key ∈ q.hiddenKeys) (visible : name ∈ q.visibleKeys) :
    Text.sameName name key = false := by
  obtain ⟨_, _, _, apart⟩ := exists_helpers names grouped
  obtain ⟨column, call⟩ := apart key hidden
  rw [visibleKeys, ← map_key_selectCalls, List.mem_eraseDups] at visible
  rcases List.mem_append.mp visible with inside | inside
  · exact column name inside
  · obtain ⟨named, member, rfl⟩ := List.mem_map.mp inside
    exact call named member

/-- Hiding undoes what helpers have added, and nothing else. -/
theorem without_rowOf {q : Query} (names : q.WellNamed) (grouped : q.isGrouped = true) (policy : MissingPolicy)
    {rows : Relation} {group : Group} (found : group ∈ q.groups policy rows) :
    (q.rowOf policy group).without q.hiddenKeys = q.allGroups.rowOf policy group := by
  obtain ⟨helpers, all, hidden, apart⟩ := exists_helpers names grouped
  have key : ∀ added ∈ helpers, added.key ∈ q.hiddenKeys := by
    intro added member
    rw [hidden]
    exact List.mem_map_of_mem member
  obtain ⟨results, row⟩ := Record.exists_withResults_append policy (group.base q.groupBy) group.members
    fun added member => (apart _ (key added member)).2
  have absent : ∀ name ∈ (q.allGroups.rowOf policy group).keys, name ∉ q.hiddenKeys := by
    intro name visible member
    rw [keys_rowOf_allGroups grouped policy found] at visible
    have differ := sameName_visibleKeys names grouped member visible
    rw [Text.sameName_self] at differ
    cases differ
  have parts : q.rowOf policy group = helpers.foldl (Record.addResult results) (q.allGroups.rowOf policy group) := by
    rw [rowOf, rowOf, namedCalls_allGroups grouped, all]
    exact row
  rw [parts, Record.without_foldl_addResult key, Record.without_eq_self absent]

/-- What a wildcard shows of a grouped query are rows of groups with the visible keys, whatever HAVING
and ORDER BY compute besides. -/
theorem keys_of_mem_run_wildcard {config : Config} {text : String} {q : Query}
    (done : config.read text = .ok q) (grouped : q.isGrouped = true) (wildcard : q.isWildcard = true)
    {rows : Relation} {shown : Record} (member : shown ∈ config.run q rows) :
    shown.keys = q.visibleKeys ∧
      (∀ key ∈ q.hiddenKeys, ∀ name ∈ shown.keys, Text.sameName name key = false) ∧
      ∃ group ∈ q.groups config.missingValues rows, shown = q.allGroups.rowOf config.missingValues group := by
  have names : q.WellNamed := wellNamed_of_read done
  obtain ⟨group, found, alone⟩ := exists_rowOf_of_mem_run grouped member
  rw [projectRows, if_pos (by exact wildcard)] at alone
  obtain rfl : shown = q.allGroups.rowOf config.missingValues group :=
    (List.mem_singleton.mp alone).trans (without_rowOf names grouped _ found)
  have keys := keys_rowOf_allGroups grouped _ found
  refine ⟨keys, fun key hidden name visible => ?_, group, found, rfl⟩
  rw [keys] at visible
  exact sameName_visibleKeys names grouped hidden visible

/-- Two calls are shown under one key, one of them under the name of a group column, and the helpers
have a natural key and the text of a call. -/
theorem keys_of_mem_run_wildcard_region :
    let rows : Relation := [⟨[("region", .text "east"), ("n", .number .zero)]⟩, ⟨[("region", .text "west")]⟩]
    let shown : Record := ⟨[("region", .number .zero), ("size", .null), ("n", .number .zero)]⟩
    ∃ q, Config.default.read ("SELECT *, MAX(n), MIN(n), MIN(region) AS region FROM t GROUP BY region, size " ++
        "HAVING SUM(n) < 9 AND MAX(day) < 9 AND COUNT(*) < 9") = .ok q ∧
      q.isGrouped = true ∧ q.isWildcard = true ∧ q.hiddenKeys = ["SUM(n)", "day", "count"] ∧
      shown ∈ Config.default.run q rows ∧ shown.keys = q.visibleKeys ∧
      (∀ key ∈ q.hiddenKeys, ∀ name ∈ shown.keys, Text.sameName name key = false) ∧
      ∃ group ∈ q.groups .zero rows, shown = q.allGroups.rowOf .zero group := by
  intro rows shown
  obtain ⟨q, done, conditions⟩ := Except.exists_of_any_toOption (show (Config.default.read
      ("SELECT *, MAX(n), MIN(n), MIN(region) AS region FROM t GROUP BY region, size " ++
        "HAVING SUM(n) < 9 AND MAX(day) < 9 AND COUNT(*) < 9")).toOption.any
    (fun q => decide (q.isGrouped = true ∧ q.isWildcard = true ∧
      q.hiddenKeys = ["SUM(n)", "day", "count"] ∧ shown ∈ Config.default.run q rows)) = true
    by decide +kernel)
  obtain ⟨grouped, wildcard, hidden, member⟩ := of_decide_eq_true conditions
  exact ⟨q, done, grouped, wildcard, hidden, member, keys_of_mem_run_wildcard done grouped wildcard member⟩

end Query
end RecordQuery
