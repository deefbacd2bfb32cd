import Mathlib.Data.List.Induction
import RecordQuery.Plan.Run

/-! Sorting by several keys. Each key orders rows by a total preorder, so a stable sort has
one result only, and passes from the last key to the first are one sort by all of them. -/
namespace RecordQuery

namespace SortKey

instance : Ord SortKey := ⟨order⟩

theorem order_swap (a b : SortKey) : a.order b = (b.order a).swap := by
  cases a <;> cases b
  case number.number x y => exact Std.OrientedOrd.eq_swap (α := Int)
  case text.text s t => exact Std.OrientedOrd.eq_swap (α := String)
  all_goals rfl

/-- Numbers come before texts, so three keys in order are of one kind up to some point and of
the other from there. -/
theorem order_isLE_trans {a b c : SortKey} (ab : (a.order b).isLE) (bc : (b.order c).isLE) :
    (a.order c).isLE := by
  cases a <;> cases b <;> cases c
  case number.number.number => exact Std.TransOrd.isLE_trans (α := Int) ab bc
  case text.text.text => exact Std.TransOrd.isLE_trans (α := String) ab bc
  all_goals first | rfl | contradiction

instance : Std.TransOrd SortKey where
  eq_swap := order_swap _ _
  isLE_trans := order_isLE_trans

end SortKey

instance (ascending : Bool) : Std.TransCmp (Value.sortOrder · · ascending) := by
  have ascends : Std.TransCmp (compareOn SortKey.ofValue) := inferInstance
  cases ascending with
  | true => exact ascends
  | false =>
    have swapped : (Value.sortOrder · · false) = fun a b => compareOn SortKey.ofValue b a := by
      funext a b
      exact (SortKey.order_swap _ _).symm
    rw [swapped]
    infer_instance

namespace OrderKey

variable {keys : List OrderKey}

instance (key : OrderKey) : Std.TransCmp key.order where
  eq_swap {a b} := @Std.OrientedCmp.eq_swap _ (Value.sortOrder · · key.ascending) _
    (a.lookup key.field) (b.lookup key.field)
  isLE_trans {a b c} := @Std.TransCmp.isLE_trans _ (Value.sortOrder · · key.ascending) _
    (a.lookup key.field) (b.lookup key.field) (c.lookup key.field)

instance : Std.TransCmp (compositeOrder keys) := by
  induction keys with
  | nil => exact { eq_swap := rfl, isLE_trans := fun _ _ => rfl }
  | cons key keys ih => exact inferInstanceAs (Std.TransCmp (compareLex key.order (compositeOrder keys)))

theorem compositeOrder_eq_iff {a b : Record} :
    compositeOrder keys a b = .eq ↔ ∀ key ∈ keys, key.order a b = .eq := by
  induction keys with
  | nil => simp [compositeOrder]
  | cons key keys ih => simp [compositeOrder, ih]

end OrderKey

/-- A list sorted by an order, with rows that tie where they came. -/
structure StablySorted (order : Record → Record → Ordering) (rows sorted : Relation) : Prop where
  permuted : sorted.Perm rows
  ordered : sorted.Pairwise fun a b => order a b ≠ .gt
  ties : ∀ r, (sorted.filter fun a => order r a = .eq) = rows.filter fun a => order r a = .eq

section Stability

variable {order first second : Record → Record → Ordering} {rows : Relation}

theorem stablySorted_sortBy (order : Record → Record → Ordering) [Std.TransCmp order]
    (rows : Relation) : StablySorted order rows (sortBy order rows) := by
  have trans : ∀ a b c, (order a b).isLE → (order b c).isLE → (order a c).isLE :=
    fun a b c => Std.TransCmp.isLE_trans
  have total : ∀ a b, (order a b).isLE || (order b a).isLE := by
    intro a b
    rw [Bool.or_eq_true, ← Std.OrientedCmp.isGE_iff_isLE (a := a)]
    cases order a b <;> simp
  have permuted : (sortBy order rows).Perm rows := List.mergeSort_perm rows _
  refine ⟨permuted, (List.pairwise_mergeSort trans total rows).imp Ordering.isLE_iff_ne_gt.mp, ?_⟩
  intro r
  -- Rows that tie with one are in order already, so sorting keeps them a sublist, and none is lost.
  have inOrder : (rows.filter fun a => order r a = .eq).Pairwise fun a b => (order a b).isLE := by
    apply List.pairwise_of_forall_mem_list
    intro a foundA b foundB
    have tieA : order a r = .eq := Std.OrientedCmp.eq_symm (by simpa using (List.mem_filter.mp foundA).2)
    have tieB : order r b = .eq := by simpa using (List.mem_filter.mp foundB).2
    exact Std.TransCmp.isLE_trans (by rw [tieA]; rfl) (by rw [tieB]; rfl)
  have kept := (List.sublist_mergeSort trans total inOrder List.filter_sublist).filter
    fun a => order r a = .eq
  rw [List.filter_filter] at kept
  simp only [Bool.and_self] at kept
  exact (kept.eq_of_length (permuted.filter _).length_eq.symm).symm

/-- No row of a sorted list is before its first row. -/
theorem head_isLE [Std.TransCmp order] {a b : Record} {as : Relation}
    (ordered : (a :: as).Pairwise fun a b => order a b ≠ .gt) (member : b ∈ a :: as) :
    (order a b).isLE := by
  obtain rfl | later := List.mem_cons.mp member
  · exact Ordering.isLE_of_eq_eq Std.ReflCmp.compare_self
  · exact Ordering.isLE_iff_ne_gt.mpr (List.rel_of_pairwise_cons ordered later)

/-- A row ties with itself, so lists with the same ties have the same rows. -/
theorem mem_of_ties [Std.TransCmp order] {xs ys : Relation} {r : Record} (member : r ∈ xs)
    (ties : (xs.filter fun a => order r a = .eq) = ys.filter fun a => order r a = .eq) : r ∈ ys := by
  have itself : order r r = .eq := Std.ReflCmp.compare_self
  have found : r ∈ xs.filter fun a => order r a = .eq := List.mem_filter.mpr ⟨member, by simpa using itself⟩
  rw [ties] at found
  exact (List.mem_filter.mp found).1

/-- Sorted lists with the same ties in the same order are equal. -/
theorem eq_of_ordered_of_ties [Std.TransCmp order] {xs ys : Relation}
    (orderedX : xs.Pairwise fun a b => order a b ≠ .gt)
    (orderedY : ys.Pairwise fun a b => order a b ≠ .gt)
    (ties : ∀ r, (xs.filter fun a => order r a = .eq) = ys.filter fun a => order r a = .eq) :
    xs = ys := by
  induction xs generalizing ys with
  | nil =>
    symm
    rw [List.eq_nil_iff_forall_not_mem]
    exact fun y found => List.not_mem_nil (mem_of_ties found (ties y).symm)
  | cons x xs ih =>
    cases ys with
    | nil => exact absurd (mem_of_ties List.mem_cons_self (ties x)) List.not_mem_nil
    | cons y ys =>
      have xy := head_isLE orderedX (mem_of_ties List.mem_cons_self (ties y).symm)
      have yx := head_isLE orderedY (mem_of_ties List.mem_cons_self (ties x))
      have tied : order x y = .eq :=
        Ordering.eq_eq_of_isLE_of_isGE xy (Std.OrientedCmp.isGE_iff_isLE.mpr yx)
      have itself : order x x = .eq := Std.ReflCmp.compare_self
      -- Each is the first row of its list that ties with x.
      have heads := ties x
      rw [List.filter_cons_of_pos (by simpa using itself),
        List.filter_cons_of_pos (by simpa using tied)] at heads
      obtain rfl : x = y := (List.cons.inj heads).1
      have tails : ∀ r, (xs.filter fun a => order r a = .eq) = ys.filter fun a => order r a = .eq := by
        intro r
        have both := ties r
        by_cases same : order r x = .eq
        · rw [List.filter_cons_of_pos (by simpa using same),
            List.filter_cons_of_pos (by simpa using same)] at both
          exact (List.cons.inj both).2
        · rwa [List.filter_cons_of_neg (by simpa using same),
            List.filter_cons_of_neg (by simpa using same)] at both
      rw [ih orderedX.of_cons orderedY.of_cons tails]

/-- Sorting again keeps the first order among the rows that tie in the second. -/
theorem StablySorted.again [Std.TransCmp second] {once twice : Relation} (inner : StablySorted first rows once)
    (outer : StablySorted second once twice) : StablySorted (compareLex second first) rows twice where
  permuted := outer.permuted.trans inner.permuted
  ordered := by
    rw [List.pairwise_iff_forall_sublist]
    intro a b before greater
    have secondOrder := List.pairwise_iff_forall_sublist.mp outer.ordered before
    by_cases tied : second a b = .eq
    · -- Rows that tie in the second order stand as they stood before.
      have among := before.filter fun c => second a c = .eq
      rw [outer.ties] at among
      have firstOrder := List.pairwise_iff_forall_sublist.mp inner.ordered
        ((by simpa [tied, Std.ReflCmp.compare_self] using among : [a, b].Sublist _).trans List.filter_sublist)
      simp [compareLex, tied, firstOrder] at greater
    · cases compared : second a b <;> simp_all [compareLex]
  ties r := by
    have split : ∀ as : Relation, (as.filter fun a => compareLex second first r a = .eq) =
        (as.filter fun a => second r a = .eq).filter fun a => first r a = .eq := by
      intro as
      rw [List.filter_filter]
      apply List.filter_congr
      intro a _
      simp [compareLex_eq_eq, Bool.and_comm]
    have swapped : ∀ as : Relation,
        ((as.filter fun a => second r a = .eq).filter fun a => first r a = .eq) =
          (as.filter fun a => first r a = .eq).filter fun a => second r a = .eq := by
      intro as
      rw [List.filter_filter, List.filter_filter]
      exact List.filter_congr fun a _ => Bool.and_comm _ _
    rw [split, split, outer.ties, swapped, inner.ties, ← swapped]

/-- Sorting twice is sorting once by the second order, with ties broken by the first. -/
theorem sortBy_sortBy [Std.TransCmp first] [Std.TransCmp second] :
    sortBy second (sortBy first rows) = sortBy (compareLex second first) rows := by
  have twice := (stablySorted_sortBy first rows).again (stablySorted_sortBy second (sortBy first rows))
  have once := stablySorted_sortBy (compareLex second first) rows
  exact eq_of_ordered_of_ties twice.ordered once.ordered fun r => (twice.ties r).trans (once.ties r).symm

end Stability

/-- After every pass the rows are sorted by all keys so far, the latest first. -/
theorem foldl_sortBy (keys : List OrderKey) (rows : Relation) :
    keys.foldl (fun rows key => sortBy key.order rows) rows =
      sortBy (OrderKey.compositeOrder keys.reverse) rows := by
  induction keys using List.reverseRecOn with
  | nil => exact (List.mergeSort_of_pairwise (List.pairwise_of_forall fun _ _ => rfl)).symm
  | append_singleton keys key ih =>
    rw [List.foldl_append, List.foldl_cons, List.foldl_nil, ih, sortBy_sortBy, List.reverse_concat]
    rfl

theorem sortRows_perm (mode : OrderMode) (keys : List OrderKey) (rows : Relation) :
    (sortRows mode keys rows).Perm rows := by
  cases mode with
  | lastKeyWins =>
    rw [sortRows, foldl_sortBy]
    exact List.mergeSort_perm rows _
  | composite => exact List.mergeSort_perm rows _

/-- The rows by their last key, with ties broken by the keys before it from the latest to the
earliest, are what either mode gives: the one from the keys as listed, the other from the keys
reversed. Rows that tie on every key stay as they came. -/
theorem sortRows_mirrored (keys : List OrderKey) (rows : Relation) :
    sortRows .lastKeyWins keys rows = sortRows .composite keys.reverse rows ∧
    (sortRows .lastKeyWins keys rows).Perm rows ∧
    ((sortRows .lastKeyWins keys rows).Pairwise fun a b =>
      OrderKey.compositeOrder keys.reverse a b ≠ .gt) ∧
    ∀ r, ((sortRows .lastKeyWins keys rows).filter fun a => ∀ key ∈ keys, key.order r a = .eq) =
      rows.filter fun a => ∀ key ∈ keys, key.order r a = .eq := by
  have mirrored : sortRows .lastKeyWins keys rows = sortRows .composite keys.reverse rows :=
    foldl_sortBy keys rows
  have sorted : StablySorted (OrderKey.compositeOrder keys.reverse) rows
      (sortRows .composite keys.reverse rows) := stablySorted_sortBy _ rows
  rw [mirrored]
  refine ⟨rfl, sorted.permuted, sorted.ordered, fun r => ?_⟩
  have ties := sorted.ties r
  simpa only [OrderKey.compositeOrder_eq_iff, List.mem_reverse] using ties

end RecordQuery
