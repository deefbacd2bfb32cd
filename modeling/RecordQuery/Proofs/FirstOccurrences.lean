import Mathlib.Data.List.Induction
import Mathlib.Data.List.Nodup
import RecordQuery.FirstOccurrences

/-! Classes of members with the same key. The first members stand for all classes, each
for one, and the classes together are the list again. -/
namespace RecordQuery

theorem firstOccurrences_map [DecidableEq κ] (key : β → κ) (f : α → β) (as : List α) :
    firstOccurrences key (as.map f) = (firstOccurrences (fun a => key (f a)) as).map f := by
  induction as with
  | nil => rfl
  | cons a as ih =>
    rw [List.map_cons, firstOccurrences, firstOccurrences, ih, List.filter_map]
    rfl

/-- Only which members have the same key matters, not what the keys are. -/
theorem firstOccurrences_congr [DecidableEq κ] [DecidableEq κ'] {key : α → κ} {key' : α → κ'}
    {as : List α} (same : ∀ a ∈ as, ∀ b ∈ as, key a = key b ↔ key' a = key' b) :
    firstOccurrences key as = firstOccurrences key' as := by
  induction as with
  | nil => rfl
  | cons a as ih =>
    have later := ih fun b member c member' =>
      same b (List.mem_cons_of_mem a member) c (List.mem_cons_of_mem a member')
    rw [firstOccurrences, firstOccurrences, later]
    congr 1
    apply List.filter_congr
    intro b found
    have member := (firstOccurrences_sublist key' as).mem found
    have iff := same b (List.mem_cons_of_mem a member) a List.mem_cons_self
    simp only [ne_eq, iff]

/-- A further member at the end is a first one unless its key has occurred. -/
theorem firstOccurrences_append_singleton [DecidableEq κ] (key : α → κ) (as : List α) (a : α) :
    firstOccurrences key (as ++ [a]) =
      firstOccurrences key as ++ if key a ∈ as.map key then [] else [a] := by
  induction as with
  | nil => rfl
  | cons b as ih =>
    rw [List.cons_append, firstOccurrences, ih, firstOccurrences, List.filter_append,
      List.cons_append, List.map_cons]
    congr 2
    by_cases same : key a = key b
    · by_cases found : key a ∈ as.map key <;> simp [same]
    · by_cases found : key a ∈ as.map key <;> simp [same, found]

/-- The first members are those at places before which their key does not occur. -/
theorem firstOccurrences_eq_filter_zipIdx {κ : Type*} [DecidableEq κ] (key : α → κ) (as : List α) :
    firstOccurrences key as = (as.zipIdx.filter fun place : α × Nat =>
      ∀ b ∈ as.take place.2, key b ≠ key place.1).map Prod.fst := by
  induction as using List.reverseRecOn with
  | nil => rfl
  | append_singleton as a ih =>
    -- What stands before an earlier place is the same without the last member.
    have before : (as.zipIdx.filter fun place : α × Nat =>
          ∀ b ∈ (as ++ [a]).take place.2, key b ≠ key place.1) =
        as.zipIdx.filter fun place : α × Nat => ∀ b ∈ as.take place.2, key b ≠ key place.1 := by
      apply List.filter_congr
      intro place member
      have bound := List.snd_lt_of_mem_zipIdx member
      rw [List.take_append_of_le_length (by omega)]
    rw [firstOccurrences_append_singleton, ih, List.zipIdx_append, List.filter_append, List.map_append, before]
    congr 1
    by_cases found : key a ∈ as.map key
    · rw [if_pos found, List.zipIdx_singleton, List.filter_cons_of_neg (by simpa using found)]
      rfl
    · rw [if_neg found, List.zipIdx_singleton, List.filter_cons_of_pos (by simpa using found)]
      rfl

/-- Members of different keys are all first ones. -/
theorem firstOccurrences_of_nodup [DecidableEq κ] {key : α → κ} {as : List α}
    (apart : (as.map key).Nodup) : firstOccurrences key as = as := by
  induction as with
  | nil => rfl
  | cons a as ih =>
    rw [List.map_cons, List.nodup_cons] at apart
    rw [firstOccurrences, ih apart.2, List.filter_eq_self.mpr]
    intro b member
    have differ : key b ≠ key a := fun same => apart.1 (same ▸ List.mem_map_of_mem member)
    simpa using differ

/-- The keys of the first members are the keys of the list, each where it occurs first. -/
theorem map_firstOccurrences [DecidableEq κ] [BEq κ] [LawfulBEq κ] (key : α → κ) (as : List α) :
    (firstOccurrences key as).map key = (as.map key).eraseDups := by
  induction as using List.reverseRecOn with
  | nil => rfl
  | append_singleton as a ih =>
    rw [firstOccurrences_append_singleton, List.map_append, ih, List.map_append,
      List.eraseDups_append, List.map_singleton]
    congr 1
    by_cases found : key a ∈ as.map key
    · rw [if_pos found, List.removeAll, List.filter_cons_of_neg (by simpa using found)]
      rfl
    · rw [if_neg found, List.removeAll, List.filter_cons_of_pos (by simpa using found)]
      rfl

theorem nodup_eraseDups [DecidableEq α] [BEq α] [LawfulBEq α] (as : List α) : as.eraseDups.Nodup := by
  have apart := nodup_map_firstOccurrences id as
  rwa [map_firstOccurrences, List.map_id] at apart

theorem eraseDups_perm [DecidableEq α] [BEq α] [LawfulBEq α] {as bs : List α} (perm : as.Perm bs) :
    as.eraseDups.Perm bs.eraseDups := by
  rw [List.perm_ext_iff_of_nodup (nodup_eraseDups as) (nodup_eraseDups bs)]
  intro a
  rw [List.mem_eraseDups, List.mem_eraseDups, perm.mem_iff]

/-- The classes of different keys that cover a list are the list in another order. -/
theorem flatMap_filter_perm [DecidableEq κ] (key : α → κ) {keys : List κ} {as : List α}
    (apart : keys.Nodup) (cover : ∀ a ∈ as, key a ∈ keys) :
    (keys.flatMap fun k => as.filter fun a => key a = k).Perm as := by
  induction keys generalizing as with
  | nil =>
    obtain rfl := List.eq_nil_iff_forall_not_mem.mpr fun a member => List.not_mem_nil (cover a member)
    exact List.Perm.nil
  | cons k keys ih =>
    rw [List.nodup_cons] at apart
    let others := as.filter fun a => !decide (key a = k)
    -- The other classes stay as they are when the first one is taken out.
    have unchanged : ∀ k' ∈ keys,
        (as.filter fun a => key a = k') = others.filter fun a => key a = k' := by
      intro k' found
      have differ : k' ≠ k := by
        rintro rfl
        exact apart.1 found
      rw [List.filter_filter]
      apply List.filter_congr
      intro a _
      by_cases same : key a = k' <;> simp [same, differ]
    have covered : ∀ a ∈ others, key a ∈ keys := by
      intro a member
      obtain ⟨member, differ⟩ := List.mem_filter.mp member
      exact (List.mem_cons.mp (cover a member)).resolve_left (by simpa using differ)
    rw [List.flatMap_cons, List.flatMap_congr unchanged]
    exact ((ih apart.2 covered).append_left _).trans (List.filter_append_perm _ as)

end RecordQuery
