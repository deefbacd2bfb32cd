import RecordQuery.Proofs.Order.Sorting
import RecordQuery.Proofs.Plan.GroupedRow

/-! The stages before and after grouping. Rows that pass WHERE are rows of the input, sorting
puts rows in another order, and showing them item by item may be left to the end. -/
namespace RecordQuery

theorem map_sliceRows (f : Record → Record) (limit : Option Nat) (offset : Nat) (rows : Relation) :
    (sliceRows limit offset rows).map f = sliceRows limit offset (rows.map f) := by
  cases limit with
  | none => exact List.map_drop
  | some n => rw [sliceRows, List.map_take, List.map_drop, sliceRows]

theorem Record.project_congr {items : List SelectItem} {r r' : Record}
    (same : ∀ item ∈ items, item.resolve r = item.resolve r') : r.project items = r'.project items := by
  rw [project, project]
  congr 1
  apply List.filterMap_congr
  intro item member
  rw [same item member]

namespace Query

theorem passed_sublist (policy : MissingPolicy) (q : Query) (rows : Relation) :
    (q.passed policy rows).Sublist rows := by
  rw [passed, filterStages]
  cases q.filter with
  | none => exact List.Sublist.refl rows
  | some written => exact List.filter_sublist

/-- The stages after those that filter and group. -/
def laterStages (mode : OrderMode) (q : Query) : List Stage :=
  q.sortStages mode ++ q.distinctStages ++ q.sliceStages ++ [.project q.select q.hiddenKeys]

theorem run_eq (config : Config) (q : Query) (rows : Relation) :
    config.run q rows = Plan.run config.missingValues (q.laterStages config.orderMode)
      (Plan.run config.missingValues q.groupStages (q.passed config.missingValues rows)) := by
  simp only [Config.run, Config.planOf, plan, laterStages, passed, Plan.run_append]

theorem run_sortStages_perm (policy : MissingPolicy) (mode : OrderMode) (q : Query) (rows : Relation) :
    (Plan.run policy (q.sortStages mode) rows).Perm rows := by
  unfold sortStages
  split
  · exact List.Perm.refl rows
  · exact sortRows_perm mode _ rows

/-- Slicing that leaves everything need not be a stage. -/
theorem run_sliceStages (policy : MissingPolicy) (q : Query) (rows : Relation) :
    Plan.run policy q.sliceStages rows = sliceRows q.limit q.offset rows := by
  unfold sliceStages
  split
  · rfl
  next whole =>
    simp only [Bool.or_eq_true, decide_eq_true_eq, not_or, Bool.not_eq_true,
      Option.isSome_eq_false_iff, Option.isNone_iff_eq_none, Nat.pos_iff_ne_zero, not_not] at whole
    rw [whole.1, whole.2]
    rfl

/-- Without a wildcard rows are shown item by item, and the slice may be taken at the end. -/
theorem run_listed (config : Config) {q : Query} (listed : q.isWildcard = false) (rows : Relation) :
    config.run q rows = sliceRows q.limit q.offset
      ((Plan.run config.missingValues (q.sortStages config.orderMode ++ q.distinctStages)
        (Plan.run config.missingValues q.groupStages (q.passed config.missingValues rows))).map
          (·.project q.select)) := by
  have shown (rows : Relation) : Plan.run config.missingValues [.project q.select q.hiddenKeys] rows =
      rows.map (·.project q.select) := by
    rw [Plan.run_cons, Plan.run_nil, Stage.run, projectRows, if_neg (by simpa [isWildcard] using listed)]
  rw [run_eq, laterStages, Plan.run_append, Plan.run_append, shown, run_sliceStages, map_sliceRows]

end Query
end RecordQuery
