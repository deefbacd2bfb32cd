import Mathlib.Data.List.Nodup
import RecordQuery.Proofs.Text.Letters
import RecordQuery.Record

/-! What is found in a record: the fields present, those of a record written field by
field, and those that one more field leaves alone. -/
namespace RecordQuery.Record

theorem isSome_get?_iff (r : Record) (name : String) : (r.get? name).isSome = true ↔ name ∈ r.keys := by
  simp [get?, keys, List.find?_isSome]

theorem mem_keys_insert (r : Record) (name other : String) (value : Value) :
    other ∈ (r.insert name value).keys ↔ other ∈ r.keys ∨ other = name := by
  rw [keys_insert]
  by_cases present : name ∈ r.keys
  · rw [if_pos present]
    constructor
    · exact .inl
    · rintro (found | rfl)
      · exact found
      · exact present
  · simp [present]

/-- The exact spelling decides. -/
theorem lookup_of_get? {r : Record} {name : String} {value : Value} (found : r.get? name = some value) :
    r.lookup name = some value := by
  simp [lookup, found]

theorem has_iff (r : Record) (name : String) :
    r.has name = true ↔ ∃ key ∈ r.keys, Text.sameName key name = true := by
  have lowered : Text.sameName (Text.lower name) name = true := by simp [Text.sameName]
  rw [has, lookup, Option.isSome_or, Option.isSome_or, Bool.or_eq_true, Bool.or_eq_true,
    isSome_get?_iff, isSome_get?_iff, Option.isSome_map, List.find?_isSome]
  constructor
  · rintro (exact | lower | ⟨field, member, same⟩)
    · exact ⟨name, exact, Text.sameName_self name⟩
    · exact ⟨_, lower, lowered⟩
    · exact ⟨field.1, List.mem_map_of_mem member, same⟩
  · rintro ⟨key, member, same⟩
    obtain ⟨field, found, rfl⟩ := List.mem_map.mp member
    exact .inr (.inr ⟨field, found, same⟩)

/-- No two names of the record are the same up to letter case. -/
def Unambiguous (r : Record) : Prop := (r.keys.map Text.lower).Nodup

theorem unambiguous_iff (r : Record) :
    r.Unambiguous ↔ (r.keys.map fun key => key.toList.map Char.toLower).Nodup := by
  have letters : (r.keys.map fun key => key.toList.map Char.toLower) =
      (r.keys.map Text.lower).map String.toList := by
    simp [Function.comp_def]
  rw [Unambiguous, letters, List.nodup_map_iff fun _ _ => String.toList_inj.mp]

instance (r : Record) : Decidable r.Unambiguous := decidable_of_iff _ (unambiguous_iff r).symm

theorem find?_sameName_of_mem {r : Record} (unambiguous : r.Unambiguous) {field : String × Value}
    (member : field ∈ r.fields) {name : String} (same : Text.sameName field.1 name = true) :
    r.fields.find? (fun field => Text.sameName field.1 name) = some field := by
  have apart : (r.fields.map fun field => Text.lower field.1).Nodup := by
    simpa [Unambiguous, keys, Function.comp_def] using unambiguous
  have found : (r.fields.find? fun field => Text.sameName field.1 name).isSome = true :=
    List.find?_isSome.mpr ⟨field, member, same⟩
  obtain ⟨other, found⟩ := Option.isSome_iff_exists.mp found
  rw [found]
  have same' := List.find?_some found
  rw [Text.sameName_iff] at same same'
  exact congrArg some (List.inj_on_of_nodup_map apart (List.mem_of_find?_eq_some found) member
    (same'.trans same.symm))

/-- The spelling decides nothing where there is only one to find. -/
theorem lookup_of_unambiguous {r : Record} (unambiguous : r.Unambiguous) (name : String) :
    r.lookup name = (r.fields.find? fun field => Text.sameName field.1 name).map Prod.snd := by
  have exact_spelling {spelling : String} (same : Text.sameName spelling name = true) {value : Value}
      (found : r.get? spelling = some value) :
      (r.fields.find? fun field => Text.sameName field.1 name).map Prod.snd = some value := by
    obtain ⟨field, first, rfl⟩ := Option.map_eq_some_iff.mp found
    have here : field.1 = spelling := by simpa using List.find?_some first
    rw [find?_sameName_of_mem unambiguous (List.mem_of_find?_eq_some first) (here ▸ same),
      Option.map_some]
  rw [lookup]
  cases exact : r.get? name with
  | some value => rw [exact_spelling (Text.sameName_self name) exact, Option.some_or]
  | none =>
    rw [Option.none_or]
    cases lower : r.get? (Text.lower name) with
    | some value => rw [exact_spelling (by simp [Text.sameName]) lower, Option.some_or]
    | none => rw [Option.none_or]

theorem lookup_lower {r : Record} (unambiguous : r.Unambiguous) (name : String) :
    r.lookup (Text.lower name) = r.lookup name := by
  rw [lookup_of_unambiguous unambiguous, lookup_of_unambiguous unambiguous]
  simp only [Text.sameName, Text.lower_lower]

/-- Among names in lower case a name is found under its lower-case spelling only. -/
theorem lookup_of_lower_keys {r : Record} (lower : ∀ key ∈ r.keys, Text.lower key = key)
    (name : String) : r.lookup name = r.get? (Text.lower name) := by
  cases found : r.get? name with
  | some value =>
    have member : name ∈ r.keys := (isSome_get?_iff r name).mp (by rw [found]; rfl)
    rw [lookup_of_get? found, lower name member, found]
  | none =>
    rw [lookup, found, Option.none_or]
    cases lowered : r.get? (Text.lower name) with
    | some value => rfl
    | none =>
      have absent : ∀ field ∈ r.fields, Text.sameName field.1 name = false := by
        intro field member
        have present : field.1 ∈ r.keys := List.mem_map_of_mem member
        rw [Bool.eq_false_iff, ne_eq, Text.sameName_iff, lower field.1 present]
        intro same
        rw [same, ← isSome_get?_iff, lowered] at present
        cases present
      rw [List.find?_eq_none.mpr fun field member => by simp [absent field member]]
      rfl

/-- A field of another name is not seen. -/
theorem lookup_insert_of_not_sameName (r : Record) {name key : String}
    (differ : Text.sameName name key = false) (value : Value) :
    (r.insert key value).lookup name = r.lookup name := by
  rw [Text.sameName_comm] at differ
  have exact_spelling : name ≠ key := by
    rintro rfl
    simp at differ
  have lower_spelling : Text.lower name ≠ key := by
    rintro rfl
    simp [Text.sameName] at differ
  rw [lookup, lookup, get?_insert_of_ne r value exact_spelling, get?_insert_of_ne r value lower_spelling,
    insert, find?_insertField (Text.sameName · name) differ]

/-- Fields written into a record, one after another. -/
def insertAll (r : Record) (fields : List (String × Value)) : Record :=
  fields.foldl (fun r field => r.insert field.1 field.2) r

theorem ofList_eq (fields : List (String × Value)) : ofList fields = empty.insertAll fields := rfl

theorem get?_insertAll_of_notMem (r : Record) (fields : List (String × Value)) (name : String)
    (absent : name ∉ fields.map Prod.fst) : (r.insertAll fields).get? name = r.get? name := by
  induction fields generalizing r with
  | nil => rfl
  | cons field fields ih =>
    rw [List.map_cons, List.mem_cons, not_or] at absent
    exact (ih (r.insert field.1 field.2) absent.2).trans (get?_insert_of_ne r field.2 absent.1)

/-- Without repeated names every field written is found. -/
theorem get?_insertAll_of_mem (r : Record) {fields : List (String × Value)}
    (apart : (fields.map Prod.fst).Nodup) {name : String} {value : Value}
    (member : (name, value) ∈ fields) : (r.insertAll fields).get? name = some value := by
  induction fields generalizing r with
  | nil => cases member
  | cons field fields ih =>
    rw [List.map_cons, List.nodup_cons] at apart
    rcases List.mem_cons.mp member with rfl | later
    · show ((r.insert name value).insertAll fields).get? name = some value
      rw [get?_insertAll_of_notMem _ _ _ apart.1, get?_insert_self]
    · exact ih (r.insert field.1 field.2) apart.2 later

theorem get?_ofList_of_mem {fields : List (String × Value)} (apart : (fields.map Prod.fst).Nodup)
    {name : String} {value : Value} (member : (name, value) ∈ fields) :
    (ofList fields).get? name = some value :=
  get?_insertAll_of_mem empty apart member

/-- A name may be repeated where it has one value. -/
theorem get?_insertAll_map (r : Record) {names : List String} (value : String → Value) {name : String}
    (member : name ∈ names) :
    (r.insertAll (names.map fun name => (name, value name))).get? name = some (value name) := by
  induction names generalizing r with
  | nil => cases member
  | cons first names ih =>
    show ((r.insert first (value first)).insertAll _).get? name = _
    by_cases later : name ∈ names
    · exact ih _ later
    · rcases List.mem_cons.mp member with rfl | member
      · rw [get?_insertAll_of_notMem _ _ _ (by simpa using later), get?_insert_self]
      · exact absurd member later

theorem mem_keys_insertAll (r : Record) (fields : List (String × Value)) (name : String) :
    name ∈ (r.insertAll fields).keys ↔ name ∈ r.keys ∨ name ∈ fields.map Prod.fst := by
  induction fields generalizing r with
  | nil => simp [insertAll]
  | cons field fields ih =>
    show name ∈ ((r.insert field.1 field.2).insertAll fields).keys ↔ _
    rw [ih, mem_keys_insert, List.map_cons, List.mem_cons, or_assoc]

theorem mem_keys_ofList (fields : List (String × Value)) (name : String) :
    name ∈ (ofList fields).keys ↔ name ∈ fields.map Prod.fst := by
  rw [ofList_eq, mem_keys_insertAll]
  simp [empty, keys]

/-! Names in the order in which they are written first. -/

theorem keys_insert_of_eraseDups {r : Record} {names : List String} (keys : r.keys = names.eraseDups)
    (name : String) (value : Value) : (r.insert name value).keys = (names ++ [name]).eraseDups := by
  rw [keys_insert, keys, List.eraseDups_append]
  by_cases found : name ∈ names
  · simp [found, List.removeAll]
  · simp [found, List.removeAll, List.eraseDups_cons]

theorem keys_insertAll {r : Record} {names : List String} (keys : r.keys = names.eraseDups)
    (fields : List (String × Value)) : (r.insertAll fields).keys = (names ++ fields.map Prod.fst).eraseDups := by
  induction fields generalizing r names with
  | nil => simpa [insertAll] using keys
  | cons field fields ih =>
    have later := ih (keys_insert_of_eraseDups keys field.1 field.2)
    rwa [List.append_assoc] at later

theorem keys_ofList (fields : List (String × Value)) : (ofList fields).keys = (fields.map Prod.fst).eraseDups := by
  have start : keys ⟨[]⟩ = ([] : List String).eraseDups := rfl
  exact keys_insertAll start fields

end RecordQuery.Record
