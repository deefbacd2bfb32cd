import Mathlib.Data.List.Nodup
import RecordQuery.Plan.OfQuery
import RecordQuery.Proofs.Query.Names

/-! The keys of a grouped query's calls. No two are the same, and a helper's key is not even
in another spelling among the group columns and the keys before it. -/
namespace RecordQuery

theorem Text.paren_notMem_of_isName {s : List Char} (name : isName s = true) : '(' ∉ s := by
  intro member
  simp only [isName, Bool.and_eq_true, List.all_eq_true] at name
  exact absurd (name.2 _ member) (by decide)

namespace Aggregate.Function

theorem paren_notMem_name (function : Function) :
    '(' ∉ function.name.toList.map Char.toLower := by
  cases function <;> decide

theorem lower_name_injective {f g : Function}
    (same : f.name.toList.map Char.toLower = g.name.toList.map Char.toLower) : f = g := by
  revert same
  cases f <;> cases g <;> decide

end Aggregate.Function

namespace Aggregate.Call

theorem naturalKey_isLowerName {call : Call} (named : call.WellNamed) :
    Text.IsLowerName call.naturalKey := by
  obtain ⟨function, field⟩ := call
  have count : Text.IsLowerName "count" :=
    ⟨by decide, Text.lower_eq_self (by decide)⟩
  cases field with
  | none => cases function <;> exact count
  | some field =>
    have lower : Text.IsLowerName field := named
    cases function with
    | count => exact count
    | _ => exact lower

theorem lower_text {call : Call} (named : call.WellNamed) :
    (Text.lower call.text).toList =
      call.function.name.toList.map Char.toLower ++ '(' :: ((call.field.getD "*").toList ++ [')']) := by
  have argument : (call.field.getD "*").toList.map Char.toLower = (call.field.getD "*").toList := by
    unfold WellNamed at named
    split at named
    next field same =>
      rw [same, Option.getD_some, ← Text.toList_lower, named.lower]
    next same =>
      rw [same]
      rfl
  rw [Text.toList_lower, text, String.toList_append, String.toList_append, String.toList_append]
  simp only [List.map_append, argument]
  simp

theorem paren_notMem_argument {call : Call} (named : call.WellNamed) :
    '(' ∉ (call.field.getD "*").toList ++ [')'] := by
  unfold WellNamed at named
  split at named
  next field same => simpa [same] using Text.paren_notMem_of_isName named.name
  next same => simp [same]

/-- The text tells calls apart, whatever its letter case. -/
theorem text_injective {call other : Call} (named : call.WellNamed) (named' : other.WellNamed)
    (same : Text.sameName call.text other.text = true) : call = other := by
  have lists := congrArg String.toList ((Text.sameName_iff _ _).mp same)
  rw [lower_text named, lower_text named'] at lists
  rw [List.append_cons_inj_of_notMem (Function.paren_notMem_name _)
    (paren_notMem_argument named)] at lists
  have functions := Function.lower_name_injective lists.1
  have fields : call.field.getD "*" = other.field.getD "*" :=
    String.toList_inj.mp (List.append_cancel_right lists.2.2)
  obtain ⟨function, field⟩ := call
  obtain ⟨function', field'⟩ := other
  obtain rfl : function = function' := functions
  cases field with
  | none =>
    cases field' with
    | none => rfl
    | some field' =>
      have star : "*" = field' := fields
      exact absurd (star ▸ Text.IsLowerName.name named') (by decide)
  | some field =>
    cases field' with
    | none =>
      have star : field = "*" := fields
      exact absurd (star ▸ Text.IsLowerName.name named) (by decide)
    | some field' =>
      obtain rfl : field = field' := fields
      rfl

/-- The text of a call is no name: it has a parenthesis. -/
theorem sameName_text_of_isName {name : String} (isName : Text.isName name.toList = true)
    {call : Call} (named : call.WellNamed) : Text.sameName name call.text = false := by
  rw [Bool.eq_false_iff]
  intro same
  have lists := congrArg String.toList ((Text.sameName_iff _ _).mp same)
  have member : '(' ∈ (Text.lower name).toList := by
    rw [lists, lower_text named]
    simp
  exact Text.paren_notMem_of_isName (Text.isName_lower isName) member

end Aggregate.Call

namespace NamedCall

/-- A key is a name, or the text of its own call. -/
structure WellNamed (named : NamedCall) : Prop where
  call : named.call.WellNamed
  key : Text.isName named.key.toList = true ∨ named.key = named.call.text

/-- Results stored one after another under these keys, among the names present before, do
not get in each other's way. -/
structure Apart (present : List String) (calls : List NamedCall) : Prop where
  keys : (calls.map NamedCall.key).Nodup
  earlier : calls.Pairwise fun named later =>
    later.helper = true → Text.sameName named.key later.key = false
  present : ∀ named ∈ calls, named.helper = true →
    ∀ name ∈ present, Text.sameName name named.key = false

theorem Apart.mono {present fewer : List String} {calls : List NamedCall}
    (apart : Apart present calls) (subset : fewer ⊆ present) : Apart fewer calls :=
  ⟨apart.keys, apart.earlier, fun named member helper name found =>
    apart.present named member helper name (subset found)⟩

theorem exists_of_keyOf? {calls : List NamedCall} {call : Aggregate.Call} {key : String}
    (found : keyOf? calls call = some key) :
    ∃ named ∈ calls, named.call = call ∧ named.key = key := by
  obtain ⟨named, first, same⟩ := Option.map_eq_some_iff.mp found
  exact ⟨named, List.mem_of_find?_eq_some first, by simpa using List.find?_some first, same⟩

theorem isSome_keyOf?_of_mem {calls : List NamedCall} {named : NamedCall} (member : named ∈ calls) :
    (keyOf? calls named.call).isSome = true := by
  rw [keyOf?, Option.isSome_map, List.find?_isSome]
  exact ⟨named, member, by simp⟩

/-- A helper's key, as the planner chooses it. -/
def helperKey (groupBy : List String) (calls : List NamedCall) (call : Aggregate.Call) : String :=
  if isTaken groupBy calls call.naturalKey then call.text else call.naturalKey

theorem helperKey_new {groupBy : List String} {calls : List NamedCall} {call : Aggregate.Call}
    (columns : ∀ name ∈ groupBy, Text.IsLowerName name) (named : ∀ named ∈ calls, named.WellNamed)
    (call_named : call.WellNamed) (fresh : keyOf? calls call = none) :
    (∀ name ∈ groupBy, Text.sameName name (helperKey groupBy calls call) = false) ∧
    (∀ named ∈ calls, Text.sameName named.key (helperKey groupBy calls call) = false) := by
  unfold helperKey
  split
  next taken =>
    constructor
    · intro name member
      exact Aggregate.Call.sameName_text_of_isName (columns name member).name call_named
    · intro other member
      rcases (named other member).key with isName | text
      · exact Aggregate.Call.sameName_text_of_isName isName call_named
      · rw [text, Bool.eq_false_iff]
        intro same
        have equal := Aggregate.Call.text_injective (named other member).call call_named same
        have present := isSome_keyOf?_of_mem member
        rw [equal, fresh] at present
        cases present
  next free =>
    have natural := (Aggregate.Call.naturalKey_isLowerName call_named).lower
    simp only [isTaken, Bool.or_eq_true, List.contains_eq_mem, decide_eq_true_eq, List.any_eq_true,
      beq_iff_eq, not_or, not_exists, not_and] at free
    constructor
    · intro name member
      rw [Bool.eq_false_iff, ne_eq, Text.sameName_iff, natural, (columns name member).lower]
      rintro rfl
      exact free.1 member
    · intro other member
      rw [Bool.eq_false_iff, ne_eq, Text.sameName_iff, natural]
      exact free.2 other member

theorem addHelper_wellNamed {groupBy : List String} {calls : List NamedCall} {call : Aggregate.Call}
    (named : ∀ named ∈ calls, named.WellNamed) (call_named : call.WellNamed) :
    ∀ named ∈ addHelper groupBy calls call, named.WellNamed := by
  unfold addHelper
  split
  · exact named
  · intro other member
    rcases List.mem_append.mp member with member | member
    · exact named other member
    · rw [List.mem_singleton.mp member]
      refine ⟨call_named, ?_⟩
      dsimp only
      split
      · exact .inr rfl
      · exact .inl (Aggregate.Call.naturalKey_isLowerName call_named).name

theorem apart_addHelper {groupBy : List String} {calls : List NamedCall} {call : Aggregate.Call}
    (columns : ∀ name ∈ groupBy, Text.IsLowerName name) (named : ∀ named ∈ calls, named.WellNamed)
    (call_named : call.WellNamed) (apart : Apart groupBy calls) :
    Apart groupBy (addHelper groupBy calls call) := by
  unfold addHelper
  split
  · exact apart
  next fresh =>
    obtain ⟨newColumn, newKey⟩ := helperKey_new columns named call_named
      (Option.not_isSome_iff_eq_none.mp fresh)
    rw [← helperKey]
    refine ⟨?_, ?_, ?_⟩
    · rw [List.map_append, List.map_singleton, List.nodup_append]
      refine ⟨apart.keys, List.nodup_singleton _, ?_⟩
      intro key member other same
      obtain ⟨earlier, found, rfl⟩ := List.mem_map.mp member
      rw [List.mem_singleton.mp same]
      rintro equal
      have differ := newKey earlier found
      rw [equal, Text.sameName_self] at differ
      cases differ
    · rw [List.pairwise_append]
      refine ⟨apart.earlier, List.pairwise_singleton _ _, ?_⟩
      intro earlier found later same _
      rw [List.mem_singleton.mp same]
      exact newKey earlier found
    · intro other member helper
      rcases List.mem_append.mp member with member | member
      · exact apart.present other member helper
      · rw [List.mem_singleton.mp member]
        exact newColumn

/-- The calls of a query that is read keep apart, whichever helpers are added. -/
theorem foldl_addHelper {groupBy : List String} {calls : List NamedCall}
    {later : List Aggregate.Call} (columns : ∀ name ∈ groupBy, Text.IsLowerName name)
    (named : ∀ named ∈ calls, named.WellNamed) (later_named : ∀ call ∈ later, call.WellNamed)
    (apart : Apart groupBy calls) : Apart groupBy (later.foldl (addHelper groupBy) calls) := by
  induction later generalizing calls with
  | nil => exact apart
  | cons call later ih =>
    have call_named := later_named call List.mem_cons_self
    exact ih (addHelper_wellNamed named call_named)
      (fun other member => later_named other (List.mem_cons_of_mem _ member))
      (apart_addHelper columns named call_named apart)

theorem subset_addHelper (groupBy : List String) (calls : List NamedCall) (call : Aggregate.Call) :
    calls ⊆ addHelper groupBy calls call := by
  unfold addHelper
  split
  · exact List.Subset.refl _
  · exact List.subset_append_left _ _

theorem subset_foldl_addHelper (groupBy : List String) (calls : List NamedCall)
    (later : List Aggregate.Call) : calls ⊆ later.foldl (addHelper groupBy) calls := by
  induction later generalizing calls with
  | nil => exact List.Subset.refl _
  | cons call later ih => exact List.Subset.trans (subset_addHelper groupBy calls call) (ih _)

/-- Only helpers are added. -/
theorem helper_of_mem_addHelper {groupBy : List String} {calls : List NamedCall}
    {call : Aggregate.Call} {named : NamedCall} (member : named ∈ addHelper groupBy calls call) :
    named ∈ calls ∨ named.helper = true := by
  unfold addHelper at member
  split at member
  · exact .inl member
  · rcases List.mem_append.mp member with member | member
    · exact .inl member
    · rw [List.mem_singleton.mp member]
      exact .inr rfl

theorem helper_of_mem_foldl_addHelper {groupBy : List String} {calls : List NamedCall}
    {later : List Aggregate.Call} {named : NamedCall}
    (member : named ∈ later.foldl (addHelper groupBy) calls) :
    named ∈ calls ∨ named.helper = true := by
  induction later generalizing calls with
  | nil => exact .inl member
  | cons call later ih =>
    rcases ih member with member | helper
    · exact helper_of_mem_addHelper member
    · exact .inr helper

/-- Once added a call has a key. -/
theorem exists_mem_addHelper (groupBy : List String) (calls : List NamedCall)
    (call : Aggregate.Call) : ∃ named ∈ addHelper groupBy calls call, named.call = call := by
  unfold addHelper
  split
  next found =>
    obtain ⟨key, found⟩ := Option.isSome_iff_exists.mp found
    obtain ⟨named, member, same, _⟩ := exists_of_keyOf? found
    exact ⟨named, member, same⟩
  · exact ⟨_, List.mem_append_right _ (List.mem_singleton_self _), rfl⟩

theorem exists_mem_foldl_addHelper (groupBy : List String) (calls : List NamedCall)
    {later : List Aggregate.Call} {call : Aggregate.Call} (member : call ∈ later) :
    ∃ named ∈ later.foldl (addHelper groupBy) calls, named.call = call := by
  induction later generalizing calls with
  | nil => cases member
  | cons first later ih =>
    rcases List.mem_cons.mp member with rfl | member
    · obtain ⟨named, found, same⟩ := exists_mem_addHelper groupBy calls call
      exact ⟨named, subset_foldl_addHelper groupBy _ later found, same⟩
    · exact ih _ member

end NamedCall
end RecordQuery
