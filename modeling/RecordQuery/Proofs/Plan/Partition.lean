import Mathlib.Algebra.GroupWithZero.Nat
import RecordQuery.Proofs.FirstOccurrences
import RecordQuery.Proofs.Plan.GroupFilter

/-! Grouping parts the rows of a relation. A group is made of all rows that have the same
values under the group columns, and there is one for each combination of values. -/
namespace RecordQuery

namespace Group

/-- The notation of group values tells apart what the values do. -/
theorem key_eq_iff {keys : List String} {r r' : Record} :
    (KeyedRow.ofRow keys r).key = (KeyedRow.ofRow keys r').key ↔
      r.groupValues keys = r'.groupValues keys := by
  refine ⟨values_eq_of_key_eq, fun same => ?_⟩
  rw [KeyedRow.ofRow, same]
  rfl

/-- One group for each combination of values, in the order in which they are met. -/
theorem ofRows_eq (keys : List String) (rows : Relation) :
    ofRows keys rows = (rows.map (·.groupValues keys)).eraseDups.map fun values =>
      ⟨values, rows.filter fun r => r.groupValues keys = values⟩ := by
  have firsts : firstOccurrences KeyedRow.key (rows.map (KeyedRow.ofRow keys)) =
      (firstOccurrences (·.groupValues keys) rows).map (KeyedRow.ofRow keys) := by
    rw [firstOccurrences_map]
    congr 1
    exact firstOccurrences_congr fun _ _ _ _ => key_eq_iff
  rw [ofRows, ofKeyed, firsts, List.map_map, ← map_firstOccurrences, List.map_map]
  apply List.map_congr_left
  intro first _
  have members : ((rows.map (KeyedRow.ofRow keys)).filter fun other =>
      other.key = (KeyedRow.ofRow keys first).key).map KeyedRow.row =
      rows.filter fun r => r.groupValues keys = first.groupValues keys := by
    rw [List.filter_map, List.map_map]
    simp only [Function.comp_def, key_eq_iff]
    exact List.map_id _
  exact congrArg (Group.mk _) members

theorem mem_ofRows {keys : List String} {rows : Relation} {group : Group} :
    group ∈ ofRows keys rows ↔ (∃ r ∈ rows, r.groupValues keys = group.values) ∧
      group.members = rows.filter fun r => r.groupValues keys = group.values := by
  rw [ofRows_eq]
  simp only [List.mem_map, List.mem_eraseDups]
  constructor
  · rintro ⟨values, found, rfl⟩
    exact ⟨found, rfl⟩
  · rintro ⟨found, members⟩
    exact ⟨group.values, found, by rw [← members]⟩

/-! Rows placed one after another. -/

/-- The groups, with their notation, after one more row: it joins the group of its notation,
or starts one at the end. -/
def place (groups : List (String × Group)) (row : KeyedRow) : List (String × Group) :=
  match groups with
  | [] => [(row.key, ⟨row.values, [row.row]⟩)]
  | (key, group) :: groups =>
    if key = row.key then (key, ⟨group.values, group.members ++ [row.row]⟩) :: groups
    else (key, group) :: place groups row

/-- A row changes the members of its own group only, and starts a group if there is none. -/
theorem place_map {firsts : List KeyedRow} (members : KeyedRow → Relation) (row : KeyedRow)
    (apart : (firsts.map KeyedRow.key).Nodup) :
    place (firsts.map fun first => (first.key, ⟨first.values, members first⟩)) row =
      (firsts.map fun first =>
        (first.key, ⟨first.values, members first ++ if row.key = first.key then [row.row] else []⟩)) ++
      if row.key ∈ firsts.map KeyedRow.key then [] else [(row.key, ⟨row.values, [row.row]⟩)] := by
  induction firsts with
  | nil => rfl
  | cons first firsts ih =>
    rw [List.map_cons, List.nodup_cons] at apart
    rw [List.map_cons, place]
    by_cases same : first.key = row.key
    · have others : ∀ other ∈ firsts, row.key ≠ other.key := by
        intro other member equal
        exact apart.1 (same.trans equal ▸ List.mem_map_of_mem member)
      rw [if_pos same, List.map_cons, if_pos same.symm, List.map_cons,
        if_pos (List.mem_cons.mpr (.inl same.symm)), List.append_nil]
      congr 1
      apply List.map_congr_left
      intro other member
      rw [if_neg (others other member), List.append_nil]
    · rw [if_neg same, ih apart.2, List.map_cons, if_neg (Ne.symm same), List.append_nil,
        List.map_cons, List.cons_append]
      simp only [List.mem_cons, Ne.symm same, false_or]

/-- One pass over the rows makes the groups, and neither loses a row nor takes one twice. -/
theorem foldl_place (rows : List KeyedRow) :
    rows.foldl place [] = (firstOccurrences KeyedRow.key rows).map fun first =>
      (first.key, ⟨first.values, (rows.filter fun other => other.key = first.key).map KeyedRow.row⟩) := by
  induction rows using List.reverseRecOn with
  | nil => rfl
  | append_singleton rows row ih =>
    have occurs : row.key ∈ (firstOccurrences KeyedRow.key rows).map KeyedRow.key ↔
        row.key ∈ rows.map KeyedRow.key := by
      rw [map_firstOccurrences, List.mem_eraseDups]
    rw [List.foldl_append, ih, List.foldl_cons, List.foldl_nil,
      place_map _ _ (nodup_map_firstOccurrences _ rows), firstOccurrences_append_singleton,
      List.map_append]
    congr 1
    · apply List.map_congr_left
      intro first _
      by_cases same : row.key = first.key <;> simp [same]
    · by_cases found : row.key ∈ rows.map KeyedRow.key
      · rw [if_pos (occurs.mpr found), if_pos found]
        rfl
      · have none : rows.filter (fun other => other.key = row.key) = [] := by
          rw [List.filter_eq_nil_iff]
          intro other member same
          exact found (of_decide_eq_true same ▸ List.mem_map_of_mem member)
        rw [if_neg (mt occurs.mp found), if_neg found]
        simp [none]

theorem ofRows_eq_foldl (keys : List String) (rows : Relation) :
    ofRows keys rows = ((rows.map (KeyedRow.ofRow keys)).foldl place []).map Prod.snd := by
  rw [foldl_place, List.map_map]
  rfl

/-- How groups part rows, and what the rows that stand for them say. -/
structure IsPartition (policy : MissingPolicy) (keys : List String) (calls : List NamedCall)
    (rows : Relation) (groups : List Group) : Prop where
  /-- Rows share a group when all group columns have the same values in both. -/
  together : ∀ r ∈ rows, ∀ r' ∈ rows,
    (∃ group ∈ groups, r ∈ group.members ∧ r' ∈ group.members) ↔
      ∀ name ∈ keys, r.lookupOrNull name = r'.lookupOrNull name
  /-- Every row is in one group. -/
  once : ∀ r ∈ rows, (groups.countP fun group => r ∈ group.members) = 1
  /-- No row is lost, and none is taken twice. -/
  complete : (groups.flatMap Group.members).Perm rows
  /-- The members of a group stand in the order of the rows. -/
  members : ∀ group ∈ groups, group.members = rows.filter fun r => r.groupValues keys = group.values
  /-- There is one group for each combination of values, in the order in which they are met. -/
  values : groups.map Group.values = (rows.map (·.groupValues keys)).eraseDups
  /-- One pass over the rows makes the groups. -/
  placed : groups = ((rows.map (KeyedRow.ofRow keys)).foldl place []).map Prod.snd
  /-- One row stands for each group. -/
  emitted : (Stage.group keys calls).run policy rows = groups.map (row policy keys calls)
  /-- COUNT gives the members of a group, which makes all rows in total. -/
  counted : ∀ call : Aggregate.Call, call.function = .count → ∀ group ∈ groups,
    call.over policy group.members = .ofInt group.members.length
  total : (groups.map fun group => group.members.length).sum = rows.length
  /-- What COUNT gives is in the row of the group, under a key that is its own. -/
  shown : NamedCall.Apart keys calls → ∀ named ∈ calls, named.call.function = .count →
    ∀ group ∈ groups, (group.row policy keys calls).get? named.key = some (.ofInt group.members.length)

theorem flatMap_members_perm (keys : List String) (rows : Relation) :
    ((ofRows keys rows).flatMap Group.members).Perm rows := by
  rw [ofRows_eq, List.flatMap_map]
  apply flatMap_filter_perm _ (nodup_eraseDups _)
  intro r member
  rw [List.mem_eraseDups]
  exact List.mem_map_of_mem member

theorem countP_members {keys : List String} {rows : Relation} {r : Record} (member : r ∈ rows) :
    ((ofRows keys rows).countP fun group => r ∈ group.members) = 1 := by
  have met : r.groupValues keys ∈ (rows.map (·.groupValues keys)).eraseDups := by
    rw [List.mem_eraseDups]
    exact List.mem_map_of_mem member
  rw [ofRows_eq, List.countP_map, ← List.count_eq_one_of_mem (nodup_eraseDups _) met, List.count]
  apply List.countP_congr
  intro values _
  simp only [Function.comp_apply, List.mem_filter, member, true_and, decide_eq_true_eq, beq_iff_eq]
  exact eq_comm

theorem together_iff {keys : List String} {rows : Relation} {r r' : Record} (member : r ∈ rows)
    (member' : r' ∈ rows) :
    (∃ group ∈ ofRows keys rows, r ∈ group.members ∧ r' ∈ group.members) ↔
      ∀ name ∈ keys, r.lookupOrNull name = r'.lookupOrNull name := by
  have values : r.groupValues keys = r'.groupValues keys ↔
      ∀ name ∈ keys, r.lookupOrNull name = r'.lookupOrNull name := List.map_inj_left
  rw [← values]
  constructor
  · rintro ⟨group, found, inside, inside'⟩
    rw [(mem_ofRows.mp found).2, List.mem_filter, decide_eq_true_eq] at inside inside'
    exact inside.2.trans inside'.2.symm
  · intro same
    refine ⟨⟨r.groupValues keys, rows.filter fun other => other.groupValues keys = r.groupValues keys⟩,
      mem_ofRows.mpr ⟨⟨r, member, rfl⟩, rfl⟩, ?_, ?_⟩
    · simpa using member
    · simpa [same] using member'

/-- The groups of rows by one column or more are a partition of the rows. -/
theorem isPartition_ofRows {keys : List String} (grouped : keys ≠ []) (policy : MissingPolicy)
    (calls : List NamedCall) (rows : Relation) :
    IsPartition policy keys calls rows (ofRows keys rows) := by
  have complete := flatMap_members_perm keys rows
  refine ⟨fun _ member _ member' => together_iff member member', fun _ member => countP_members member,
    complete, fun _ found => (mem_ofRows.mp found).2, ?_, ofRows_eq_foldl keys rows, ?_, ?_, ?_, ?_⟩
  · rw [ofRows_eq, List.map_map]
    exact List.map_id _
  · rw [Stage.run, groupRows_eq, all, if_neg (by simpa using grouped)]
  · exact fun call count group _ => Aggregate.Call.over_count count policy group.members
  · rw [← List.length_flatMap, complete.length_eq]
  · intro apart named member count group _
    rw [get?_row apart policy group member, Aggregate.Call.over_count count]

/-- The whole number, the double-precision number and the text of one are apart, a missing value
is null, and the order of fields does not matter. -/
theorem isPartition_region_size :
    let one : Number := .whole 1 (by decide)
    let rows : Relation := [⟨[("region", .text "east"), ("size", .number one)]⟩,
      ⟨[("region", .text "east"), ("size", .number (.float .one))]⟩, ⟨[("size", .text "1")]⟩,
      ⟨[("size", .number one), ("region", .text "east")]⟩, ⟨[("region", .null), ("size", .text "1")]⟩]
    ["region", "size"] ≠ [] ∧
      (ofRows ["region", "size"] rows).map (fun group => group.members.length) = [2, 1, 2] ∧
      IsPartition .zero ["region", "size"] [⟨⟨.count, none⟩, "n", false⟩] rows
        (ofRows ["region", "size"] rows) := by
  intro one rows
  exact ⟨by decide, by decide +kernel, isPartition_ofRows (by decide) ..⟩

end Group
end RecordQuery
