import RecordQuery.Proofs.Aggregate.RowOrder
import RecordQuery.Proofs.Plan.Partition

/-! Grouping of rows in another order. The same combinations of values are met, in another order,
each with the same members in another order, and the members give the same results. -/
namespace RecordQuery

namespace Group

/-- The row of a group does not depend on which member comes first. -/
theorem row_perm {calls : List NamedCall} {members members' : Relation} (policy : MissingPolicy)
    (keys : List String) (values : List Value) (perm : members.Perm members')
    (exact : ∀ named ∈ calls, named.call.IsExactOver members) :
    row policy keys calls ⟨values, members⟩ = row policy keys calls ⟨values, members'⟩ := by
  have results : Aggregate.results policy members (calls.map fun named => (named.call, named.key)) =
      Aggregate.results policy members' (calls.map fun named => (named.call, named.key)) := by
    apply Aggregate.results_perm policy perm
    intro call member
    obtain ⟨named, found, rfl⟩ := List.mem_map.mp member
    exact exact named found
  simp only [row, Record.withResults, base, results]

/-- Grouping gives the same rows, in another order, for rows in another order. -/
theorem run_group_perm {calls : List NamedCall} {rows rows' : Relation} (policy : MissingPolicy)
    (keys : List String) (perm : rows.Perm rows')
    (exact : ∀ named ∈ calls, named.call.IsExactOver rows) :
    ((Stage.group keys calls).run policy rows).Perm ((Stage.group keys calls).run policy rows') := by
  rw [Stage.run, Stage.run, groupRows_eq, groupRows_eq, all, all]
  split
  · rw [List.map_singleton, List.map_singleton, row_perm policy keys [] perm exact]
  · rw [ofRows_eq, ofRows_eq, List.map_map, List.map_map]
    have same : ∀ values, row policy keys calls ⟨values, rows.filter (·.groupValues keys = values)⟩ =
        row policy keys calls ⟨values, rows'.filter (·.groupValues keys = values)⟩ := by
      intro values
      apply row_perm policy keys values (perm.filter _)
      exact fun named member => (exact named member).mono (List.filter_subset_self rows)
    simp only [Function.comp_def, same]
    exact (eraseDups_perm (perm.map _)).map _

/-- Two groups trade places, and the greatest of five members, of which two have no number, comes
last. -/
theorem run_group_perm_region :
    let whole (i : Int) (fits : IsWhole64 i) : Value := .number (.whole i fits)
    let rows : Relation := [⟨[("region", .text "east"), ("n", whole 9007199254740992 (by decide))]⟩,
      ⟨[("region", .text "east"), ("n", .text "7")]⟩,
      ⟨[("n", whole (-4) (by decide)), ("region", .text "east")]⟩, ⟨[("region", .text "east"), ("n", .null)]⟩,
      ⟨[("n", whole 0 (by decide)), ("region", .text "east")]⟩, ⟨[("region", .null), ("n", whole 5 (by decide))]⟩]
    let calls : List NamedCall := [⟨⟨.sum, some "n"⟩, "sum", false⟩, ⟨⟨.average, some "n"⟩, "mean", false⟩,
      ⟨⟨.maximum, some "n"⟩, "region", false⟩, ⟨⟨.minimum, some "n"⟩, "n", true⟩, ⟨⟨.count, none⟩, "count", false⟩]
    rows.Perm rows.reverse ∧ (∀ named ∈ calls, named.call.IsExactOver rows) ∧
      (Stage.group ["region"] calls).run .zero rows ≠ (Stage.group ["region"] calls).run .zero rows.reverse ∧
      ((Stage.group ["region"] calls).run .zero rows).Perm
        ((Stage.group ["region"] calls).run .zero rows.reverse) := by
  intro whole rows calls
  have perm : rows.Perm rows.reverse := (List.reverse_perm rows).symm
  have exact : ∀ named ∈ calls, named.call.IsExactOver rows := by decide +kernel
  exact ⟨perm, exact, by decide +kernel, run_group_perm .zero ["region"] perm exact⟩

/-- One beyond the exact numbers, the first of two that are ordered as equal decides. -/
example :
    let large : Value := .number (.whole 9007199254740992 (by decide))
    let larger : Value := .number (.whole 9007199254740993 (by decide))
    let rows : Relation := [⟨[("n", large)]⟩, ⟨[("n", larger)]⟩]
    let calls : List NamedCall := [⟨⟨.maximum, some "n"⟩, "n", false⟩]
    (Stage.group [] calls).run .zero rows = [⟨[("n", large)]⟩] ∧
      (Stage.group [] calls).run .zero rows.reverse = [⟨[("n", larger)]⟩] := by
  decide +kernel

end Group
end RecordQuery
