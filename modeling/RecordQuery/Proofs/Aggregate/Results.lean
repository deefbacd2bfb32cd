import RecordQuery.Aggregate.Tally
import RecordQuery.Proofs.Record.Lookup

/-! The calls of a group are tallied in one pass over its rows, yet each result is that of
its own call alone. -/
namespace RecordQuery.Aggregate

/-- One row goes to each tally on its own. -/
theorem addRow_map (calls : List (Call × String)) (tally : Call × String → Tally) (r : Record) :
    addRow calls (calls.map tally) r =
      calls.map fun call => (tally call).add (call.1.field.bind r.lookup) := by
  simp [addRow, List.zipWith_map_right]

theorem foldl_addRow_map (calls : List (Call × String)) (tally : Call × String → Tally)
    (rows : Relation) :
    rows.foldl (addRow calls) (calls.map tally) =
      calls.map fun call => (call.1.values rows).foldl Tally.add (tally call) := by
  induction rows generalizing tally with
  | nil => simp [Call.values]
  | cons r rows ih =>
    rw [List.foldl_cons, addRow_map, ih]
    simp [Call.values]

theorem tallies_eq (policy : MissingPolicy) (rows : Relation) (calls : List (Call × String)) :
    tallies policy rows calls =
      calls.map fun call => Tally.ofValues call.1.function policy (call.1.values rows) :=
  foldl_addRow_map calls _ rows

theorem results_eq (policy : MissingPolicy) (rows : Relation) (calls : List (Call × String)) :
    results policy rows calls =
      .ofList (calls.map fun call => (call.2, call.1.over policy rows)) := by
  rw [results, tallies_eq, List.zipWith_map_right]
  simp [Call.over]

/-- Under keys that differ each call finds its own result. -/
theorem get?_results {policy : MissingPolicy} {rows : Relation} {calls : List (Call × String)}
    (apart : (calls.map Prod.snd).Nodup) {call : Call} {key : String} (member : (call, key) ∈ calls) :
    (results policy rows calls).get? key = some (call.over policy rows) := by
  rw [results_eq]
  apply Record.get?_ofList_of_mem
  · simpa [Function.comp_def] using apart
  · exact List.mem_map.mpr ⟨_, member, rfl⟩

/-- Further calls change the results under their own keys only. -/
theorem get?_results_append {policy : MissingPolicy} {rows : Relation}
    {calls later : List (Call × String)} {key : String} (absent : key ∉ later.map Prod.snd) :
    (results policy rows (calls ++ later)).get? key = (results policy rows calls).get? key := by
  rw [results_eq, results_eq, List.map_append, Record.ofList_eq, Record.insertAll, List.foldl_append]
  exact Record.get?_insertAll_of_notMem _ _ key (by simpa [Function.comp_def] using absent)

theorem foldl_add_count (rows : Nat) (values : List (Option Value)) :
    values.foldl Tally.add (.count rows) = .count (rows + values.length) := by
  induction values generalizing rows with
  | nil => rfl
  | cons value values ih =>
    rw [List.foldl_cons, Tally.add, ih, List.length_cons]
    congr 1
    omega

/-- COUNT gives the number of rows, whatever it is applied to. -/
theorem Call.over_count {call : Call} (count : call.function = .count) (policy : MissingPolicy)
    (rows : Relation) : call.over policy rows = .ofInt rows.length := by
  rw [Call.over, Tally.ofValues, count, Tally.start, foldl_add_count, values, List.length_map, Nat.zero_add]
  rfl

end RecordQuery.Aggregate
