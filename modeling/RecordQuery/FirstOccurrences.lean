/-! Lists without repetitions. Of several members with the same key the first one is
kept, and the order stays. -/
namespace RecordQuery

/-- The first member for each key. -/
def firstOccurrences [DecidableEq κ] (key : α → κ) : List α → List α
  | [] => []
  | a :: as => a :: (firstOccurrences key as).filter fun b => key b ≠ key a

theorem firstOccurrences_sublist [DecidableEq κ] (key : α → κ) (as : List α) :
    (firstOccurrences key as).Sublist as := by
  induction as with
  | nil => exact List.Sublist.slnil
  | cons a as ih => exact (List.filter_sublist.trans ih).cons_cons a

theorem nodup_map_firstOccurrences [DecidableEq κ] (key : α → κ) (as : List α) :
    ((firstOccurrences key as).map key).Nodup := by
  induction as with
  | nil => exact List.nodup_nil
  | cons a as ih =>
    rw [firstOccurrences, List.map_cons, List.nodup_cons]
    constructor
    · simp
    · exact List.Nodup.sublist (List.filter_sublist.map key) ih

theorem exists_mem_firstOccurrences [DecidableEq κ] (key : α → κ) {as : List α} {a : α}
    (member : a ∈ as) : ∃ b ∈ firstOccurrences key as, key b = key a := by
  induction as with
  | nil => cases member
  | cons c as ih =>
    by_cases same : key a = key c
    · exact ⟨c, by simp [firstOccurrences], same.symm⟩
    · rcases List.mem_cons.mp member with rfl | later
      · exact absurd rfl same
      · obtain ⟨b, found, equal⟩ := ih later
        refine ⟨b, ?_, equal⟩
        simp only [firstOccurrences, List.mem_cons, List.mem_filter, decide_eq_true_eq]
        exact .inr ⟨found, by rw [equal]; exact same⟩

/-- A test that members with the same key pass together may come before or after. -/
theorem firstOccurrences_filter [DecidableEq κ] (key : α → κ) (p : α → Bool) (as : List α)
    (together : ∀ a ∈ as, ∀ b ∈ as, key a = key b → p a = p b) :
    firstOccurrences key (as.filter p) = (firstOccurrences key as).filter p := by
  induction as with
  | nil => rfl
  | cons a as ih =>
    have ih := ih fun b member c member' =>
      together b (List.mem_cons_of_mem a member) c (List.mem_cons_of_mem a member')
    rw [firstOccurrences, List.filter_cons, List.filter_cons]
    split
    · rw [firstOccurrences, ih, List.filter_filter, List.filter_filter]
      simp only [Bool.and_comm]
    next fails =>
      -- What `a` would remove fails the test as `a` does.
      rw [List.filter_filter, ih]
      apply List.filter_congr
      intro b found
      by_cases same : key b = key a
      · have member := (firstOccurrences_sublist key as).mem found
        rw [together b (List.mem_cons_of_mem a member) a List.mem_cons_self same,
          Bool.eq_false_iff.mpr fails, Bool.false_and]
      · simp [same]

end RecordQuery
