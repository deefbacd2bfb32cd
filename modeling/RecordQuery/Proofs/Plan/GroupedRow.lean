import RecordQuery.Engine
import RecordQuery.Proofs.Aggregate.Results
import RecordQuery.Proofs.Condition.Operands
import RecordQuery.Proofs.Plan.CallKeys

/-! The rows of groups. Every call that a grouped query uses has its result under its own
key, so that SELECT, HAVING and ORDER BY all read the result of that call over that group. -/
namespace RecordQuery

namespace Group

/-- The groups that rows fall into. Without group columns all of them are one group. -/
def all (keys : List String) (rows : Relation) : List Group :=
  if keys.isEmpty then [⟨[], rows⟩] else ofRows keys rows

/-- The row that stands for a group. -/
def row (policy : MissingPolicy) (keys : List String) (calls : List NamedCall) (group : Group) : Record :=
  Record.withResults policy (group.base keys) group.members calls

theorem groupRows_eq (policy : MissingPolicy) (keys : List String) (calls : List NamedCall)
    (rows : Relation) : groupRows policy keys calls rows = (all keys rows).map (row policy keys calls) := by
  unfold groupRows all
  split
  next empty =>
    rw [List.isEmpty_iff.mp empty]
    rfl
  next => rfl

theorem keys_base_subset (keys : List String) (group : Group) : (group.base keys).keys ⊆ keys := by
  intro name member
  rw [base, Record.mem_keys_ofList] at member
  obtain ⟨field, found, rfl⟩ := List.mem_map.mp member
  exact (List.of_mem_zip found).1

end Group

namespace Record

/-- Results under keys that keep apart are all written, the helpers' too. -/
theorem foldl_addResult {results r : Record} {calls : List NamedCall} {value : NamedCall → Value}
    (found : ∀ named ∈ calls, results.get? named.key = some (value named))
    (apart : NamedCall.Apart r.keys calls) :
    calls.foldl (addResult results) r =
      r.insertAll (calls.map fun named => (named.key, value named)) := by
  induction calls generalizing r with
  | nil => rfl
  | cons named calls ih =>
    have absent : (named.helper && r.has named.key) = false := by
      cases helper : named.helper with
      | false => rfl
      | true =>
        rw [Bool.true_and, Bool.eq_false_iff, ne_eq, has_iff]
        rintro ⟨key, member, same⟩
        rw [apart.present named List.mem_cons_self helper key member] at same
        cases same
    have written : addResult results r named = r.insert named.key (value named) := by
      rw [addResult, absent, found named List.mem_cons_self]
      rfl
    have apart' : NamedCall.Apart (r.insert named.key (value named)).keys calls := by
      refine ⟨(List.nodup_cons.mp apart.keys).2, (List.pairwise_cons.mp apart.earlier).2, ?_⟩
      intro later member helper key present
      rcases (mem_keys_insert ..).mp present with present | rfl
      · exact apart.present later (List.mem_cons_of_mem _ member) helper key present
      · exact (List.pairwise_cons.mp apart.earlier).1 later member helper
    rw [List.foldl_cons, written, ih (fun later member => found later (List.mem_cons_of_mem _ member)) apart']
    rfl

theorem withResults_eq {policy : MissingPolicy} {base : Record} {members : Relation}
    {calls : List NamedCall} (apart : NamedCall.Apart base.keys calls) :
    withResults policy base members calls =
      base.insertAll (calls.map fun named => (named.key, named.call.over policy members)) := by
  apply foldl_addResult _ apart
  intro named member
  apply Aggregate.get?_results
  · simpa [Function.comp_def] using apart.keys
  · exact List.mem_map.mpr ⟨named, member, rfl⟩

end Record

/-- Each call is found under its own key. -/
theorem Group.get?_row {keys : List String} {calls : List NamedCall}
    (apart : NamedCall.Apart keys calls) (policy : MissingPolicy) (group : Group) {named : NamedCall}
    (member : named ∈ calls) :
    (group.row policy keys calls).get? named.key = some (named.call.over policy group.members) := by
  rw [row, Record.withResults_eq (apart.mono (group.keys_base_subset keys))]
  apply Record.get?_insertAll_of_mem
  · simpa [Function.comp_def] using apart.keys
  · exact List.mem_map.mpr ⟨named, member, rfl⟩

namespace Query

/-- A query uses the calls it shows, compares and sorts by. -/
inductive Uses (q : Query) : Aggregate.Call → Prop
  | select {call : Aggregate.Call} {label : Option String} :
      .aggregate call label ∈ q.select → Uses q call
  | having {call : Aggregate.Call} {written : WrittenCondition} :
      q.having = some written → call ∈ written.condition.operandCalls → Uses q call
  | orderBy {call : Aggregate.Call} {item : OrderItem} :
      item ∈ q.orderBy → item.call = some call → Uses q call

theorem mem_selectCalls {q : Query} {call : Aggregate.Call} {label : Option String}
    (member : .aggregate call label ∈ q.select) :
    ⟨call, label.getD call.naturalKey, false⟩ ∈ q.selectCalls :=
  List.mem_filterMap.mpr ⟨_, member, rfl⟩

theorem selectCalls_origin {q : Query} {named : NamedCall} (member : named ∈ q.selectCalls) :
    ∃ call label, .aggregate call label ∈ q.select ∧
      named = ⟨call, label.getD call.naturalKey, false⟩ := by
  obtain ⟨item, found, same⟩ := List.mem_filterMap.mp member
  split at same
  next call label =>
    cases same
    exact ⟨call, label, found, rfl⟩
  · cases same

theorem keys_selectCalls_sublist (items : List SelectItem) :
    ((items.filterMap fun
      | .aggregate call label => some (⟨call, label.getD call.naturalKey, false⟩ : NamedCall)
      | _ => none).map NamedCall.key).Sublist (items.filterMap SelectItem.outputKey?) := by
  induction items with
  | nil => exact List.Sublist.slnil
  | cons item items ih =>
    cases item with
    | wildcard => exact ih
    | column name label => exact ih.cons _
    | aggregate call label => exact ih.cons_cons _
    | datePart part field label => exact ih.cons _

theorem selectCalls_wellNamed {q : Query} (names : q.WellNamed) :
    ∀ named ∈ q.selectCalls, named.WellNamed := by
  intro named member
  obtain ⟨call, label, found, rfl⟩ := selectCalls_origin member
  obtain ⟨call_named, label_named⟩ := names.select _ found
  refine ⟨call_named, .inl ?_⟩
  cases label with
  | none => exact (Aggregate.Call.naturalKey_isLowerName call_named).name
  | some label => exact label_named label rfl

theorem mem_laterCalls {q : Query} {call : Aggregate.Call} :
    call ∈ q.laterCalls ↔
      (∃ written, q.having = some written ∧ call ∈ written.condition.operandCalls) ∨
      (∃ item ∈ q.orderBy, item.call = some call) := by
  have once (condition : Condition) : call ∈ condition.calls ↔ call ∈ condition.operandCalls := by
    constructor
    · exact fun member => (firstOccurrences_sublist id _).mem member
    · intro member
      obtain ⟨other, found, same⟩ := exists_mem_firstOccurrences id member
      obtain rfl : other = call := same
      exact found
  rw [laterCalls, List.mem_append, List.mem_filterMap]
  cases q.having <;> simp [once]

theorem laterCalls_wellNamed {q : Query} (names : q.WellNamed) :
    ∀ call ∈ q.laterCalls, call.WellNamed := by
  intro call member
  rcases mem_laterCalls.mp member with ⟨written, found, inside⟩ | ⟨item, found, same⟩
  · exact names.having written found call inside
  · exact names.orderBy item found call same

/-- The keys of a query that is read keep apart when those it shows do. -/
theorem namedCalls_apart {q : Query} (names : q.WellNamed) (grouped : q.isGrouped = true)
    (apart : (q.select.filterMap SelectItem.outputKey?).Nodup) :
    NamedCall.Apart q.groupBy q.namedCalls := by
  rw [namedCalls, if_pos grouped]
  refine NamedCall.foldl_addHelper names.groupBy (selectCalls_wellNamed names)
    (laterCalls_wellNamed names) ⟨apart.sublist (keys_selectCalls_sublist q.select), ?_, ?_⟩
  · refine List.pairwise_of_forall_mem_list ?_
    intro _ _ later member helper
    obtain ⟨_, _, _, rfl⟩ := selectCalls_origin member
    cases helper
  · intro named member helper
    obtain ⟨_, _, _, rfl⟩ := selectCalls_origin member
    cases helper

theorem selectCalls_subset_namedCalls {q : Query} (grouped : q.isGrouped = true) :
    q.selectCalls ⊆ q.namedCalls := by
  rw [namedCalls, if_pos grouped]
  exact NamedCall.subset_foldl_addHelper ..

/-- Each call that is used has a key. -/
theorem exists_keyOf?_of_uses {q : Query} (grouped : q.isGrouped = true) {call : Aggregate.Call}
    (used : q.Uses call) : ∃ key, NamedCall.keyOf? q.namedCalls call = some key := by
  rw [← Option.isSome_iff_exists]
  have later (member : call ∈ q.laterCalls) : (NamedCall.keyOf? q.namedCalls call).isSome = true := by
    obtain ⟨named, found, rfl⟩ := NamedCall.exists_mem_foldl_addHelper q.groupBy q.selectCalls member
    rw [namedCalls, if_pos grouped]
    exact NamedCall.isSome_keyOf?_of_mem found
  cases used with
  | select member =>
    exact NamedCall.isSome_keyOf?_of_mem (selectCalls_subset_namedCalls grouped (mem_selectCalls member))
  | having found inside => exact later (mem_laterCalls.mpr (.inl ⟨_, found, inside⟩))
  | orderBy member same => exact later (mem_laterCalls.mpr (.inr ⟨_, member, same⟩))

/-- What a grouped row holds under the key of a call that is used. -/
theorem lookup_row_of_uses {q : Query} (names : q.WellNamed) (grouped : q.isGrouped = true)
    (apart : (q.select.filterMap SelectItem.outputKey?).Nodup) (policy : MissingPolicy) (group : Group)
    {call : Aggregate.Call} (used : q.Uses call) :
    ∃ key, NamedCall.keyOf? q.namedCalls call = some key ∧
      (group.row policy q.groupBy q.namedCalls).lookup key = some (call.over policy group.members) := by
  obtain ⟨key, found⟩ := exists_keyOf?_of_uses grouped used
  obtain ⟨named, member, rfl, rfl⟩ := NamedCall.exists_of_keyOf? found
  exact ⟨_, found, Record.lookup_of_get?
    (Group.get?_row (namedCalls_apart names grouped apart) policy group member)⟩

theorem resolve_aggregate {q : Query} (names : q.WellNamed) (grouped : q.isGrouped = true)
    (apart : (q.select.filterMap SelectItem.outputKey?).Nodup) (policy : MissingPolicy) (group : Group)
    {call : Aggregate.Call} {label : Option String} (member : .aggregate call label ∈ q.select) :
    (SelectItem.aggregate call label).resolve (group.row policy q.groupBy q.namedCalls) =
      some (call.over policy group.members) := by
  have named := selectCalls_subset_namedCalls grouped (mem_selectCalls member)
  have held := Record.lookup_of_get?
    (Group.get?_row (namedCalls_apart names grouped apart) policy group named)
  cases label with
  | none => exact held
  | some label =>
    have held : (group.row policy q.groupBy q.namedCalls).lookup label = _ := held
    simp [SelectItem.resolve, held]

/-- The rows that pass WHERE. -/
def passed (policy : MissingPolicy) (q : Query) (rows : Relation) : Relation :=
  Plan.run policy q.filterStages rows

/-- The groups of the rows that pass WHERE. -/
def groups (policy : MissingPolicy) (q : Query) (rows : Relation) : List Group :=
  Group.all q.groupBy (q.passed policy rows)

/-- The row of a group, with the results of all calls under their keys. -/
def rowOf (policy : MissingPolicy) (q : Query) (group : Group) : Record :=
  group.row policy q.groupBy q.namedCalls

/-- HAVING is true of a group when each call stands for its result over the group. -/
def keeps (policy : MissingPolicy) (q : Query) (group : Group) : Bool :=
  q.having.all fun written =>
    written.condition.holdsWith (·.over policy group.members) (q.rowOf policy group)

/-- Wherever a call is used, what is read is the result of that call. -/
structure ReadsOwnResults (policy : MissingPolicy) (q : Query) (rows : Relation) : Prop where
  /-- The key of a call holds its result. -/
  stored : ∀ group ∈ q.groups policy rows, ∀ call, q.Uses call →
    ∃ key, NamedCall.keyOf? q.namedCalls call = some key ∧
      (q.rowOf policy group).lookup key = some (call.over policy group.members)
  /-- HAVING decides by the results. -/
  kept : Plan.run policy q.groupStages (q.passed policy rows) =
    ((q.groups policy rows).filter (q.keeps policy)).map (q.rowOf policy)
  /-- HAVING reads columns only, once its calls have their keys. -/
  columns : ∀ written ∈ q.having,
    (written.condition.withKeys (NamedCall.keyOf? q.namedCalls)).operandCalls = []
  /-- ORDER BY sorts by the results. -/
  sorted : ∀ group ∈ q.groups policy rows, ∀ item ∈ q.orderBy, ∀ call ∈ item.call,
    (q.rowOf policy group).lookup (q.orderKey item).field = some (call.over policy group.members)
  /-- Without a wildcard each call of SELECT is shown with its result. -/
  shown : q.isWildcard = false → ∀ group ∈ q.groups policy rows,
    ∃ row, (Stage.project q.select q.hiddenKeys).run policy [q.rowOf policy group] = [row] ∧
      ∀ call label, .aggregate call label ∈ q.select →
        row.get? (label.getD call.naturalKey) = some (call.over policy group.members)

theorem holds_withKeys_rowOf {q : Query} (names : q.WellNamed) (grouped : q.isGrouped = true)
    (apart : (q.select.filterMap SelectItem.outputKey?).Nodup) (policy : MissingPolicy) (group : Group)
    {written : WrittenCondition} (found : q.having = some written) :
    (written.condition.withKeys (NamedCall.keyOf? q.namedCalls)).holds (q.rowOf policy group) =
      written.condition.holdsWith (·.over policy group.members) (q.rowOf policy group) :=
  Condition.holds_withKeys fun _ inside =>
    lookup_row_of_uses names grouped apart policy group (.having found inside)

theorem run_groupStages {q : Query} (names : q.WellNamed) (grouped : q.isGrouped = true)
    (apart : (q.select.filterMap SelectItem.outputKey?).Nodup) (policy : MissingPolicy)
    (rows : Relation) :
    Plan.run policy q.groupStages (q.passed policy rows) =
      ((q.groups policy rows).filter (q.keeps policy)).map (q.rowOf policy) := by
  rw [groupStages, if_pos grouped, Plan.run_cons, Stage.run, Group.groupRows_eq]
  show Plan.run policy _ ((q.groups policy rows).map (q.rowOf policy)) = _
  cases found : q.having with
  | none =>
    have all : q.keeps policy = fun _ => true := by
      funext group
      rw [keeps, found, Option.all_none]
    rw [all, List.filter_true]
    rfl
  | some written =>
    have decides (group : Group) : q.keeps policy group =
        (written.condition.withKeys (NamedCall.keyOf? q.namedCalls)).holds (q.rowOf policy group) := by
      rw [holds_withKeys_rowOf names grouped apart policy group found, keeps, found, Option.all_some]
    show ((q.groups policy rows).map (q.rowOf policy)).filter _ = _
    rw [List.filter_map, funext decides]
    rfl

end Query

theorem Record.get?_project_of_mem {items : List SelectItem}
    (apart : (items.filterMap SelectItem.outputKey?).Nodup) {r : Record} {item : SelectItem}
    (member : item ∈ items) {key : String} (named : item.outputKey? = some key) {value : Value}
    (resolved : item.resolve r = some value) : (r.project items).get? key = some value := by
  have keys : ((items.filterMap fun item =>
      item.outputKey?.bind fun key => (item.resolve r).map fun value => (key, value)).map
        Prod.fst).Sublist (items.filterMap SelectItem.outputKey?) := by
    clear member apart
    induction items with
    | nil => exact List.Sublist.slnil
    | cons first items ih =>
      cases outputKey : first.outputKey? with
      | none => simpa [outputKey] using ih
      | some key =>
        cases value : first.resolve r with
        | none => simpa [outputKey, value] using ih.cons key
        | some value => simpa [outputKey, value] using ih.cons_cons key
  apply get?_ofList_of_mem (apart.sublist keys)
  exact List.mem_filterMap.mpr ⟨item, member, by simp [named, resolved]⟩

namespace Query

theorem lookup_orderKey {q : Query} (names : q.WellNamed) (grouped : q.isGrouped = true)
    (apart : (q.select.filterMap SelectItem.outputKey?).Nodup) (policy : MissingPolicy) (group : Group)
    {item : OrderItem} (member : item ∈ q.orderBy) {call : Aggregate.Call} (same : item.call = some call) :
    (q.rowOf policy group).lookup (q.orderKey item).field = some (call.over policy group.members) := by
  obtain ⟨key, found, held⟩ :=
    lookup_row_of_uses names grouped apart policy group (.orderBy member same)
  have field : (q.orderKey item).field = key := by simp [orderKey, same, found]
  rw [field]
  exact held

/-- A grouped query that was read, with different keys for the items it shows, reads every
result from the call that it names. -/
theorem readsOwnResults_of_read {config : Config} {text : String} {q : Query}
    (done : config.read text = .ok q) (grouped : q.isGrouped = true)
    (apart : (q.select.filterMap SelectItem.outputKey?).Nodup) (rows : Relation) :
    q.ReadsOwnResults config.missingValues rows := by
  have names : q.WellNamed := wellNamed_of_read done
  refine ⟨?_, run_groupStages names grouped apart _ rows, ?_, ?_, ?_⟩
  · intro group _ call used
    exact lookup_row_of_uses names grouped apart _ group used
  · intro written found
    refine Condition.operandCalls_withKeys fun call inside => ?_
    obtain ⟨key, named⟩ := exists_keyOf?_of_uses grouped (.having found inside)
    rw [named]
    rfl
  · intro group _ item member call same
    exact lookup_orderKey names grouped apart _ group member same
  · intro listed group _
    refine ⟨(q.rowOf config.missingValues group).project q.select, ?_, ?_⟩
    · rw [Stage.run, projectRows, if_neg (by simpa [isWildcard] using listed)]
      rfl
    · intro call label member
      exact Record.get?_project_of_mem apart member rfl
        (resolve_aggregate names grouped apart _ group member)

/-- The greatest sale is shown under the name of the group column, and HAVING and ORDER BY
use further calls on the same field. -/
theorem exists_readsOwnResults : ∃ q,
    Config.default.read
      "SELECT MAX(n) AS g, SUM(n) FROM t GROUP BY g HAVING MIN(n) < 9 ORDER BY AVG(n)" = .ok q ∧
    q.isGrouped = true ∧ (q.select.filterMap SelectItem.outputKey?).Nodup ∧
    q.ReadsOwnResults .zero [⟨[("g", .text "north"), ("n", .number .zero)]⟩, ⟨[("g", .text "south")]⟩] := by
  obtain ⟨q, done, both⟩ := Except.exists_of_any_toOption (show (Config.default.read
      "SELECT MAX(n) AS g, SUM(n) FROM t GROUP BY g HAVING MIN(n) < 9 ORDER BY AVG(n)").toOption.any
    (fun q => q.isGrouped && decide (q.select.filterMap SelectItem.outputKey?).Nodup) = true
    by decide +kernel)
  obtain ⟨grouped, apart⟩ := Bool.and_eq_true_iff.mp both
  have apart := of_decide_eq_true apart
  exact ⟨q, done, grouped, apart, readsOwnResults_of_read done grouped apart _⟩

end Query
end RecordQuery
