import RecordQuery.Proofs.Plan.Stages

/-! Pages of a result. A slice is taken of rows that are filtered, grouped, sorted and free of
repetitions already, and it leaves their showing as it is, so that pages one behind the other are
the whole result. -/
namespace RecordQuery

theorem projectRows_sliceRows (items : List SelectItem) (hidden : List String) (limit : Option Nat)
    (offset : Nat) (rows : Relation) : projectRows items hidden (sliceRows limit offset rows) =
      sliceRows limit offset (projectRows items hidden rows) := by
  unfold projectRows
  split <;> exact map_sliceRows ..

/-- Slices of one size, the first ones of a relation. -/
theorem flatMap_sliceRows (size pages : Nat) (rows : Relation) :
    ((List.range pages).flatMap fun number => sliceRows (some size) (number * size) rows) =
      rows.take (pages * size) := by
  induction pages with
  | zero => simp
  | succ pages ih =>
    rw [List.range_succ, List.flatMap_append, ih, Nat.succ_mul, List.take_add]
    simp [sliceRows]

namespace Query

/-- The query without LIMIT and OFFSET. -/
def unsliced (q : Query) : Query := { q with limit := none, offset := 0 }

theorem unsliced_eq_self {q : Query} (limit : q.limit = none) (offset : q.offset = 0) : q.unsliced = q := by
  simp [unsliced, ← limit, ← offset]

/-- LIMIT and OFFSET slice the whole result, whichever stages the plan has. -/
theorem run_eq_sliceRows (config : Config) (q : Query) (rows : Relation) :
    config.run q rows = sliceRows q.limit q.offset (config.run q.unsliced rows) := by
  have unslicedStages : q.unsliced.sliceStages = [] := rfl
  rw [run_eq, run_eq]
  simp only [laterStages, Plan.run_append, run_sliceStages, unslicedStages, Plan.run_nil, Plan.run_cons,
    Stage.run, projectRows_sliceRows]
  rfl

/-- The query for one page of the result, the pages being counted from zero. -/
def page (q : Query) (size number : Nat) : Query := { q with limit := some size, offset := number * size }

/-- A page is a stretch of the result, and enough pages are all of it. -/
theorem run_page_and_flatMap_run_page {q : Query} (limit : q.limit = none) (offset : q.offset = 0)
    (config : Config) (rows : Relation) (size : Nat) {pages : Nat}
    (enough : (config.run q rows).length ≤ pages * size) :
    (∀ number, config.run (q.page size number) rows =
      ((config.run q rows).drop (number * size)).take size) ∧
    ((List.range pages).flatMap fun number => config.run (q.page size number) rows) =
      config.run q rows := by
  have slice (number : Nat) : config.run (q.page size number) rows =
      sliceRows (some size) (number * size) (config.run q rows) := by
    have whole : (q.page size number).unsliced = q := unsliced_eq_self (q := q) limit offset
    rw [run_eq_sliceRows, whole]
    rfl
  refine ⟨slice, ?_⟩
  simp only [slice]
  rw [flatMap_sliceRows, List.take_of_length_le enough]

/-- Of five rows four pass, in three groups; the second page is not full. -/
theorem run_page_region :
    let q : Query := ⟨[.column "region" none, .aggregate ⟨.sum, some "n"⟩ none], true,
      some ⟨"n > 0", .test (.column "n") (.compare .greater (.number .zero))⟩, ["region"],
      some ⟨"COUNT(*) > 0", .test (.aggregate ⟨.count, none⟩) (.compare .greater (.number .zero))⟩, [], none, 0⟩
    let one : Number := .whole 1 (by decide)
    let rows : Relation := [⟨[("region", .text "east"), ("n", .number one)]⟩,
      ⟨[("region", .text "west"), ("n", .number .zero)]⟩, ⟨[("n", .number (.float .one))]⟩,
      ⟨[("region", .text "east"), ("n", .number one)]⟩, ⟨[("region", .text "west"), ("n", .number one)]⟩]
    q.limit = none ∧ q.offset = 0 ∧ (Config.default.run q rows).length ≤ 2 * 2 ∧
      (∀ number, Config.default.run (q.page 2 number) rows =
        ((Config.default.run q rows).drop (number * 2)).take 2) ∧
      ((List.range 2).flatMap fun number => Config.default.run (q.page 2 number) rows) =
        Config.default.run q rows := by
  intro q one rows
  have enough : (Config.default.run q rows).length ≤ 2 * 2 := by decide +kernel
  exact ⟨rfl, rfl, enough, run_page_and_flatMap_run_page rfl rfl .default rows 2 enough⟩

end Query
end RecordQuery
