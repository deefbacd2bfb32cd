import Mathlib.Data.List.Pairwise
import RecordQuery.Proofs.Plan.DistinctColumns

/-! What DISTINCT leaves of rows. It tells rows apart by the values of the select items, before
they are shown. Where the items have different keys the row that is shown has all of these values,
so that exactly the repetitions among the shown rows are left out. -/
namespace RecordQuery

namespace Record

/-- The values of the items, null for an item without one. -/
def itemValues (items : List SelectItem) (r : Record) : List Value :=
  items.map fun item => (item.resolve r).getD .null

/-- A shown row with null under the keys of the items that it does not show. -/
def filled (items : List SelectItem) (shown : Record) : Record :=
  .ofList (items.filterMap fun item =>
    item.outputKey?.map fun key => (key, (shown.get? key).getD .null))

theorem identity_listed {items : List SelectItem} (listed : items.any SelectItem.isWildcard = false)
    (r : Record) : r.identity items = .list (r.itemValues items) := by
  rw [identity, listed]
  rfl

end Record

namespace SelectItem

/-- Only the wildcard has no key of its own. -/
theorem exists_outputKey {items : List SelectItem} (listed : items.any isWildcard = false)
    {item : SelectItem} (member : item ∈ items) : ∃ key, item.outputKey? = some key := by
  have plain := List.any_eq_false.mp listed item member
  cases item with
  | wildcard => exact absurd rfl plain
  | column name label => exact ⟨_, rfl⟩
  | aggregate call label => exact ⟨_, rfl⟩
  | datePart part field label => exact ⟨_, rfl⟩

/-- Where no key is repeated an item is known by its key. -/
theorem eq_of_outputKey_eq {items : List SelectItem} (apart : (items.filterMap outputKey?).Nodup)
    {item other : SelectItem} (member : item ∈ items) (member' : other ∈ items) {key : String}
    (named : item.outputKey? = some key) (named' : other.outputKey? = some key) : item = other := by
  by_contra differ
  have keys : items.Pairwise fun a b =>
      ∀ key, a.outputKey? = some key → ∀ key', b.outputKey? = some key' → key ≠ key' :=
    List.pairwise_filterMap.mp apart
  have symmetric : Std.Symm fun a b : SelectItem =>
      ∀ key, a.outputKey? = some key → ∀ key', b.outputKey? = some key' → key ≠ key' :=
    ⟨fun a b unlike key found key' found' => (unlike key' found' key found).symm⟩
  exact keys.forall member member' differ key named key named' rfl

end SelectItem

section

variable {items : List SelectItem} (apart : (items.filterMap SelectItem.outputKey?).Nodup)

include apart

namespace Record

/-- A shown row has under the key of an item what the item stands for, or nothing. -/
theorem get?_project (r : Record) {item : SelectItem} (member : item ∈ items) {key : String}
    (named : item.outputKey? = some key) : (r.project items).get? key = item.resolve r := by
  cases resolved : item.resolve r with
  | some value => exact get?_project_of_mem apart member named resolved
  | none =>
    rw [← Option.not_isSome_iff_eq_none, isSome_get?_iff, project, mem_keys_ofList]
    intro present
    obtain ⟨⟨_, value⟩, shown, rfl⟩ := List.mem_map.mp present
    obtain ⟨other, member', field⟩ := List.mem_filterMap.mp shown
    obtain ⟨key, named', field⟩ := Option.bind_eq_some_iff.mp field
    obtain ⟨value, resolved', same⟩ := Option.map_eq_some_iff.mp field
    obtain ⟨rfl, rfl⟩ := Prod.mk.inj same
    rw [SelectItem.eq_of_outputKey_eq apart member member' named named', resolved'] at resolved
    cases resolved

theorem get?_filled_project (r : Record) {item : SelectItem} (member : item ∈ items) {key : String}
    (named : item.outputKey? = some key) :
    ((r.project items).filled items).get? key = some ((item.resolve r).getD .null) := by
  have keys (shown : Record) : (items.filterMap fun item =>
      item.outputKey?.map fun key => (key, (shown.get? key).getD Value.null)).map Prod.fst =
        items.filterMap SelectItem.outputKey? := by
    rw [List.map_filterMap]
    simp only [Option.map_map, Function.comp_def, Option.map_id']
  rw [← get?_project apart r member named]
  refine get?_ofList_of_mem (by rwa [keys]) ?_
  exact List.mem_filterMap.mpr ⟨item, member, by rw [named, Option.map_some]⟩

/-- Filled up, rows are shown alike when the items have the same values. -/
theorem filled_project_eq_iff (listed : items.any SelectItem.isWildcard = false) (r r' : Record) :
    (r.project items).filled items = (r'.project items).filled items ↔
      r.itemValues items = r'.itemValues items := by
  constructor
  · intro same
    apply List.map_congr_left
    intro item member
    obtain ⟨key, named⟩ := SelectItem.exists_outputKey listed member
    have found := congrArg (get? · key) same
    simpa only [get?_filled_project apart _ member named, Option.some.injEq] using found
  · intro same
    have values := List.map_inj_left.mp same
    unfold filled
    congr 1
    apply List.filterMap_congr
    intro item member
    cases named : item.outputKey? with
    | none => rfl
    | some key =>
      rw [Option.map_some, Option.map_some, get?_project apart r member named,
        get?_project apart r' member named, values item member]

/-- Rows of different values are shown with something else under one of the keys. -/
theorem exists_get?_project_ne (listed : items.any SelectItem.isWildcard = false) {r r' : Record}
    (differ : r.itemValues items ≠ r'.itemValues items) :
    ∃ key, (r.project items).get? key ≠ (r'.project items).get? key := by
  by_contra! same
  apply differ
  apply List.map_congr_left
  intro item member
  obtain ⟨key, named⟩ := SelectItem.exists_outputKey listed member
  rw [← get?_project apart r member named, ← get?_project apart r' member named, same key]

end Record
end

/-- The rows kept of a relation are the first ones that are shown as they are. -/
structure KeepsFirst (items : List SelectItem) (rows kept : Relation) : Prop where
  /-- No two are shown alike, whatever the order of the fields. -/
  apart : ∀ hidden, (projectRows items hidden kept).Pairwise fun shown other =>
    ∃ key, shown.get? key ≠ other.get? key
  /-- A row is kept at each place before which the values of the items do not occur. -/
  first : kept = (rows.zipIdx.filter fun place : Record × Nat =>
    ∀ earlier ∈ rows.take place.2, earlier.itemValues items ≠ place.1.itemValues items).map Prod.fst
  /-- Filled up, every row is shown like one kept row. -/
  once : ∀ r ∈ rows, (kept.map fun r => (r.project items).filled items).count
    ((r.project items).filled items) = 1

theorem distinctRows_listed {items : List SelectItem} (listed : items.any SelectItem.isWildcard = false)
    (rows : Relation) : distinctRows items rows = firstOccurrences (·.itemValues items) rows := by
  rw [distinctRows_eq]
  apply firstOccurrences_congr
  intro r _ r' _
  rw [Record.identity_listed listed, Record.identity_listed listed, Value.list.injEq]

/-- What DISTINCT has left it leaves again. -/
theorem distinctRows_distinctRows (items : List SelectItem) (rows : Relation) :
    distinctRows items (distinctRows items rows) = distinctRows items rows := by
  rw [distinctRows_eq, distinctRows_eq]
  exact firstOccurrences_of_nodup (nodup_map_firstOccurrences _ rows)

/-- DISTINCT leaves out the rows that would be shown again, and nothing else. -/
theorem keepsFirst_distinctRows {items : List SelectItem}
    (listed : items.any SelectItem.isWildcard = false)
    (apart : (items.filterMap SelectItem.outputKey?).Nodup) (rows : Relation) :
    KeepsFirst items rows (distinctRows items rows) ∧
      distinctRows items (distinctRows items rows) = distinctRows items rows := by
  have values : ((distinctRows items rows).map (·.itemValues items)).Nodup := by
    rw [distinctRows_listed listed]
    exact nodup_map_firstOccurrences _ rows
  refine ⟨⟨fun hidden => ?_, ?_, fun r member => ?_⟩, distinctRows_distinctRows items rows⟩
  · rw [projectRows, if_neg (by simp [listed]), List.pairwise_map]
    exact (List.pairwise_map.mp values).imp fun differ =>
      Record.exists_get?_project_ne apart listed differ
  · rw [distinctRows_listed listed]
    exact firstOccurrences_eq_filter_zipIdx (·.itemValues items) rows
  · obtain ⟨first, found, same⟩ := exists_mem_firstOccurrences (·.itemValues items) member
    rw [← distinctRows_listed listed] at found
    apply List.count_eq_one_of_mem
    · rw [List.Nodup, List.pairwise_map]
      exact (List.pairwise_map.mp values).imp fun differ alike =>
        differ ((Record.filled_project_eq_iff apart listed _ _).mp alike)
    · exact List.mem_map.mpr ⟨first, found, (Record.filled_project_eq_iff apart listed _ _).mpr same⟩

/-- A missing field repeats null, the two zeros are apart, and a label may be the name of another
column. -/
theorem keepsFirst_distinctRows_size :
    let items : List SelectItem := [.column "size" (some "n"), .column "N" none,
      .datePart .year "day" none, .aggregate ⟨.count, none⟩ (some "Size")]
    let negativeZero : Binary64 := ⟨true, 0, 0, by decide, .inl rfl, by decide⟩
    let rows : Relation := [⟨[("size", .number (.float .zero)), ("day", .text "2024-02-29")]⟩,
      ⟨[("size", .number (.float negativeZero)), ("day", .text "2024-02-29")]⟩,
      ⟨[("SIZE", .number (.float .zero)), ("n", .null), ("day", .text "2024-12-01")]⟩]
    items.any SelectItem.isWildcard = false ∧ (items.filterMap SelectItem.outputKey?).Nodup ∧
      KeepsFirst items rows (distinctRows items rows) ∧
      distinctRows items (distinctRows items rows) = distinctRows items rows := by
  intro items negativeZero rows
  have listed : items.any SelectItem.isWildcard = false := by decide
  have apart : (items.filterMap SelectItem.outputKey?).Nodup := by decide
  exact ⟨listed, apart, keepsFirst_distinctRows listed apart rows⟩

end RecordQuery
