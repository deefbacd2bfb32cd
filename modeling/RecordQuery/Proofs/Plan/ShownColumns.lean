import RecordQuery.Proofs.Plan.Stages

/-! Rows that show columns under their own names. Each column that is there is shown once, with the
value that its name finds in the row. In what is shown every listed name finds what it found in the
row, or again nothing, whatever the letter case of other names, so that columns shown a second time
are as they were. -/
namespace RecordQuery

namespace Record

/-- The columns that are there, each with what its name finds. -/
theorem project_columns (r : Record) (names : List String) :
    r.project (names.map (.column · none)) =
      ofList ((names.filter r.has).map fun name => (name, r.lookupOrNull name)) := by
  rw [project, List.filterMap_map, ← List.filterMap_eq_map, List.filterMap_filter]
  congr 1
  refine List.filterMap_congr fun name _ => ?_
  cases found : r.lookup name <;>
    simp [SelectItem.outputKey?, SelectItem.resolve, has, lookupOrNull, found]

theorem keys_project_columns (r : Record) (names : List String) :
    (r.project (names.map (.column · none))).keys = (names.filter r.has).eraseDups := by
  rw [project_columns, keys_ofList, List.map_map]
  exact congrArg List.eraseDups (List.map_id _)

/-- No name is found in what is shown that is not found in the row. -/
theorem has_of_has_project {r : Record} {names : List String} {name : String}
    (shown : (r.project (names.map (.column · none))).has name = true) : r.has name = true := by
  obtain ⟨key, member, same⟩ := (has_iff _ _).mp shown
  rw [keys_project_columns, List.mem_eraseDups, List.mem_filter] at member
  obtain ⟨origin, present, same'⟩ := (has_iff _ _).mp member.2
  exact (has_iff _ _).mpr ⟨origin, present, Text.sameName_trans same' same⟩

/-- A listed name finds in what is shown what it finds in the row. -/
theorem lookup_project_columns (r : Record) {names : List String} {name : String} (listed : name ∈ names) :
    (r.project (names.map (.column · none))).lookup name = r.lookup name := by
  cases present : r.has name with
  | true =>
    obtain ⟨value, found⟩ := Option.isSome_iff_exists.mp present
    have shown : (r.project (names.map (.column · none))).get? name = some (r.lookupOrNull name) := by
      rw [project_columns]
      exact get?_insertAll_map empty r.lookupOrNull (List.mem_filter.mpr ⟨listed, present⟩)
    rw [lookup_of_get? shown, lookupOrNull, found, Option.getD_some]
  | false =>
    have absent : (r.project (names.map (.column · none))).has name = false :=
      Bool.eq_false_iff.mpr fun shown => Bool.eq_false_iff.mp present (has_of_has_project shown)
    rw [has, Option.isSome_eq_false_iff, Option.isNone_iff_eq_none] at absent present
    rw [absent, present]

theorem project_project_columns (r : Record) (names : List String) :
    (r.project (names.map (.column · none))).project (names.map (.column · none)) =
      r.project (names.map (.column · none)) := by
  apply project_congr
  intro item member
  obtain ⟨name, listed, rfl⟩ := List.mem_map.mp member
  exact lookup_project_columns r listed

end Record

/-- Columns under their own names are shown once each, where they are there, with the values that the
names find in the row, and shown again they are the same rows. -/
theorem projectRows_columns_twice (names hidden : List String) (rows : Relation) :
    let items := names.map (SelectItem.column · none)
    (projectRows items hidden rows = rows.map (·.project items)) ∧
    (∀ r : Record, (r.project items).keys = (names.filter r.has).eraseDups ∧
      ∀ name ∈ names, (r.project items).lookup name = r.lookup name) ∧
    projectRows items hidden (projectRows items hidden rows) = projectRows items hidden rows := by
  intro items
  have shown (rows : Relation) : projectRows items hidden rows = rows.map (·.project items) := by
    rw [projectRows, if_neg (by simp [items, SelectItem.isWildcard])]
  refine ⟨shown rows, fun r => ⟨r.keys_project_columns names, fun name => r.lookup_project_columns⟩, ?_⟩
  rw [shown, shown, List.map_map]
  exact List.map_congr_left fun r _ => r.project_project_columns names

end RecordQuery
