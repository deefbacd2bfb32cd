import RecordQuery.Proofs.Text.Letters
import RecordQuery.Query.Reading

/-! The names in a query that was read. Labels are names, the names of columns and fields
in conditions, groups and calls are in lower case, and only COUNT is called without a field. -/
namespace RecordQuery

theorem Except.bind_eq_ok {x : Except ε α} {f : α → Except ε β} {b : β} :
    (x >>= f) = .ok b ↔ ∃ a, x = .ok a ∧ f a = .ok b := by
  cases x with
  | error e => simp [bind, Except.bind]
  | ok a => simp [bind, Except.bind]

theorem Except.map_eq_ok {x : Except ε α} {f : α → β} {b : β} :
    x.map f = .ok b ↔ ∃ a, x = .ok a ∧ f a = b := by
  cases x <;> simp [Except.map]

theorem Except.exists_of_any_toOption {x : Except ε α} {p : α → Bool}
    (any : x.toOption.any p = true) : ∃ a, x = .ok a ∧ p a = true := by
  cases x with
  | error e => cases any
  | ok a => exact ⟨a, rfl, any⟩

theorem Except.exists_error_of_toOption {x : Except ε α} (none : x.toOption = none) : ∃ e, x = .error e := by
  cases x with
  | error e => exact ⟨e, rfl⟩
  | ok a => cases none

/-- A list read item by item from what was written for each. -/
theorem mapM_map {read : α → Except ε γ} {write : β → α} {meaning : β → γ} {items : List β}
    (all : ∀ item ∈ items, read (write item) = .ok (meaning item)) :
    (items.map write).mapM read = .ok (items.map meaning) := by
  induction items with
  | nil => rfl
  | cons item items ih =>
    have later := ih fun other member => all other (List.mem_cons_of_mem _ member)
    rw [List.map_cons, List.mapM_cons, all item List.mem_cons_self, later]
    rfl

/-- Every result of a list read item by item was read from an item. -/
theorem mapM_origin {read : α → Except ε β} {items : List α} {results : List β}
    (done : items.mapM read = .ok results) : ∀ result ∈ results, ∃ item, read item = .ok result := by
  induction items generalizing results with
  | nil =>
    cases done
    simp
  | cons item items ih =>
    rw [List.mapM_cons] at done
    obtain ⟨first, one, done⟩ := Except.bind_eq_ok.mp done
    obtain ⟨later, rest, done⟩ := Except.bind_eq_ok.mp done
    cases done
    intro result member
    rcases List.mem_cons.mp member with rfl | member
    · exact ⟨item, one⟩
    · exact ih rest result member

/-- The first item that is not read decides the error. -/
theorem exists_mapM_error {read : α → Except ε β} {items : List α} {item : α} {e : ε} (member : item ∈ items)
    (bad : read item = .error e) : ∃ first ∈ items, ∃ e, read first = .error e ∧ items.mapM read = .error e := by
  induction items with
  | nil => cases member
  | cons first items ih =>
    rw [List.mapM_cons]
    cases here : read first with
    | error e => exact ⟨first, List.mem_cons_self, e, here, rfl⟩
    | ok result =>
      have later : item ∈ items := by
        refine (List.mem_cons.mp member).resolve_left ?_
        rintro rfl
        rw [bad] at here
        cases here
      obtain ⟨other, found, e, failed, rest⟩ := ih later
      exact ⟨other, List.mem_cons_of_mem _ found, e, failed, by rw [rest]; rfl⟩

namespace Text

/-- A nonempty word without the letters A to Z. -/
structure IsLowerName (s : String) : Prop where
  name : isName s.toList = true
  lower : lower s = s

theorem isName_takeWord {s : List Char} (nonempty : (takeWord s).isEmpty = false) :
    isName (takeWord s) = true := by
  simp only [isName, nonempty, Bool.not_false, Bool.true_and]
  exact List.all_takeWhile

theorem isLowerName_lower {word : List Char} (name : isName word = true) :
    IsLowerName (lower (String.ofList word)) :=
  ⟨isName_lower (by simpa using name), lower_lower _⟩

end Text

namespace Aggregate.Call

def WellNamed (call : Call) : Prop :=
  match call.field with
  | some field => Text.IsLowerName field
  | none => call.function = .count

theorem wellNamed_of_argument {function : Function} {argument : List Char} {call : Call}
    (shape : argument = ['*'] ∨ Text.isName argument = true)
    (made : ofArgument? function argument = some call) : call.WellNamed := by
  unfold ofArgument? at made
  split at made
  · split at made
    · cases made
      rfl
    · cases made
  next other =>
    cases made
    exact Text.isLowerName_lower (shape.resolve_left other)

theorem splitArgument?_shape {s argument rest : List Char}
    (split : splitArgument? s = some (argument, rest)) :
    argument = ['*'] ∨ Text.isName argument = true := by
  unfold splitArgument? at split
  split at split
  · cases split
    exact .inl rfl
  · split at split
    · cases split
    next nonempty =>
      cases split
      exact .inr (Text.isName_takeWord (by simpa using nonempty))

theorem wellNamed_of_readPrefix? {s rest : List Char} {call : Call}
    (read : readPrefix? s = some (some call, rest)) : call.WellNamed := by
  obtain ⟨function, _, read⟩ := Option.bind_eq_some_iff.mp read
  split at read
  · obtain ⟨⟨argument, after⟩, taken, read⟩ := Option.bind_eq_some_iff.mp read
    dsimp only at read
    split at read
    · simp only [Option.some.injEq, Prod.mk.injEq] at read
      exact wellNamed_of_argument (splitArgument?_shape taken) read.1
    · cases read
  · cases read

theorem wellNamed_of_read? {s : List Char} {call : Call} (read : read? s = some call) :
    call.WellNamed := by
  unfold read? at read
  split at read
  next found =>
    subst read
    exact wellNamed_of_readPrefix? found
  · cases read

end Aggregate.Call

namespace SelectItem

/-- What the keys of a grouped row rely on. -/
def WellNamed : SelectItem → Prop
  | aggregate call label => call.WellNamed ∧ ∀ name ∈ label, Text.isName name.toList = true
  | _ => True

theorem splitLabel?_name {s body label : List Char} (split : splitLabel? s = some (body, label)) :
    Text.isName label = true := by
  induction s generalizing body with
  | nil => cases split
  | cons c cs ih =>
    unfold splitLabel? at split
    split at split
    · cases split
    · split at split
      next found =>
        cases split
        obtain ⟨_, _, found⟩ := Option.bind_eq_some_iff.mp found
        obtain ⟨_, _, found⟩ := Option.bind_eq_some_iff.mp found
        exact (Option.filter_eq_some_iff.mp found).2
      · obtain ⟨⟨rest, label'⟩, later, same⟩ := Option.map_eq_some_iff.mp split
        cases same
        exact ih later

theorem wellNamed_of_readBody {body whole : List Char} {label : Option String} {item : SelectItem}
    (names : ∀ name ∈ label, Text.isName name.toList = true)
    (read : readBody body whole label = .ok item) : item.WellNamed := by
  unfold readBody at read
  split at read
  next call _ found =>
    cases read
    exact ⟨Aggregate.Call.wellNamed_of_read? found, names⟩
  · cases read
    trivial
  · split at read
    · split at read
      · cases read
      · cases read
        trivial
    · split at read
      · cases read
        trivial
      · cases read

theorem wellNamed_of_readLetters {s : List Char} {item : SelectItem}
    (read : readLetters s = .ok item) : item.WellNamed := by
  unfold readLetters at read
  dsimp only at read
  split at read
  next body label found =>
    refine wellNamed_of_readBody ?_ read
    intro name member
    cases member
    simpa using splitLabel?_name found
  next => exact wellNamed_of_readBody (by simp) read

end SelectItem

theorem OrderItem.wellNamed_of_readLetters {items : List SelectItem} {s : List Char}
    {item : OrderItem} (read : readLetters items s = .ok item) :
    ∀ call ∈ item.call, call.WellNamed := by
  unfold readLetters at read
  dsimp only at read
  split at read
  · cases read
  · split at read
    · cases read
      simp
    · split at read
      next call found =>
        cases read
        intro other member
        cases member
        exact Aggregate.Call.wellNamed_of_read? found
      · cases read

namespace Condition

def WellNamed (condition : Condition) : Prop :=
  ∀ call ∈ condition.operandCalls, call.WellNamed

theorem wellNamed_combine {compose : List Condition → Condition}
    (members : ∀ conditions, (compose conditions).operandCalls = conditions.flatMap operandCalls)
    {conditions : List Condition} (all : ∀ condition ∈ conditions, condition.WellNamed) :
    (combine compose conditions).WellNamed := by
  unfold combine
  split
  · exact all _ (List.mem_singleton_self _)
  · intro call member
    rw [members] at member
    obtain ⟨condition, found, member⟩ := List.mem_flatMap.mp member
    exact all condition found call member

theorem operand_of_read? {s : List Char} {parts : Parts} {call : Aggregate.Call}
    (read : Parts.read? s = some parts) (operand : parts.operand = some (.aggregate call)) :
    call.WellNamed := by
  have after {operand' : Option Operand} {rest : List Char} {parts : Parts}
      (found : Parts.after? operand' rest = some parts) : parts.operand = operand' := by
    obtain ⟨_, _, same⟩ := Option.map_eq_some_iff.mp found
    rw [← same]
  have word {s : List Char} {n : Nat} {parts : Parts}
      (found : readAfterLongest? (fun word rest => Parts.after? (some (columnNamed word)) rest) s n =
        some parts) : ∃ name, parts.operand = some (.column name) := by
    induction n with
    | zero => cases found
    | succ n ih =>
      rcases Option.or_eq_some_iff.mp found with found | ⟨_, found⟩
      · exact ⟨_, after found⟩
      · exact ih found
  rcases Option.or_eq_some_iff.mp read with found | ⟨_, found⟩
  · obtain ⟨⟨call', rest⟩, found, same⟩ := Option.bind_eq_some_iff.mp found
    have same := (after same).symm.trans operand
    cases call' with
    | none => cases same
    | some other =>
      cases same
      exact Aggregate.Call.wellNamed_of_readPrefix? found
  · obtain ⟨name, column⟩ := word found
    rw [column] at operand
    cases operand

theorem wellNamed_readComparison (s : List Char) : (readComparison s).WellNamed := by
  unfold readComparison readTrimmedComparison
  split
  next operand t read =>
    intro call member
    cases operand with
    | column name => cases member
    | aggregate other =>
      simp only [operandCalls, List.mem_singleton] at member
      subst member
      unfold readParts at read
      split at read
      next found =>
        split at read
        · obtain ⟨_, _, same⟩ := Except.map_eq_ok.mp read
          cases same
          exact operand_of_read? found rfl
        · cases read
      · cases read
  · intro call member
    cases member

theorem wellNamed_readLetters (s : List Char) : (readLetters s).WellNamed := by
  refine wellNamed_combine (fun _ => by simp [operandCalls]) ?_
  intro condition member
  obtain ⟨arm, _, rfl⟩ := List.mem_map.mp member
  refine wellNamed_combine (fun _ => by simp [operandCalls]) ?_
  intro condition member
  obtain ⟨part, _, rfl⟩ := List.mem_map.mp member
  exact wellNamed_readComparison part

end Condition

namespace Query

structure WellNamed (q : Query) : Prop where
  select : ∀ item ∈ q.select, item.WellNamed
  groupBy : ∀ name ∈ q.groupBy, Text.IsLowerName name
  having : ∀ written ∈ q.having, written.condition.WellNamed
  orderBy : ∀ item ∈ q.orderBy, ∀ call ∈ item.call, call.WellNamed

theorem wellNamed_of_readSelect {text : List Char} {items : List SelectItem} {distinct : Bool}
    (read : readSelect text = .ok (items, distinct)) : ∀ item ∈ items, item.WellNamed := by
  have wildcard : ∀ item ∈ [SelectItem.wildcard], item.WellNamed := by
    simp [SelectItem.WellNamed]
  unfold readSelect at read
  split at read
  · cases read
    exact wildcard
  · split at read
    · cases read
      exact wildcard
    · cases read
    · obtain ⟨_, done, same⟩ := Except.map_eq_ok.mp read
      cases same
      intro item member
      obtain ⟨_, one⟩ := mapM_origin done item member
      exact SelectItem.wellNamed_of_readLetters one

theorem wellNamed_of_readCondition {clause : Clause} {text : List Char}
    {condition : Option WrittenCondition} (read : readCondition clause text = .ok condition) :
    ∀ written ∈ condition, written.condition.WellNamed := by
  unfold readCondition at read
  split at read
  · cases read
    simp
  · cases read
  · cases read
    intro written member
    cases member
    exact Condition.wellNamed_readLetters _

theorem wellNamed_of_readGroupBy {text : List Char} {names : List String}
    (read : readGroupBy text = .ok names) : ∀ name ∈ names, Text.IsLowerName name := by
  unfold readGroupBy at read
  split at read
  · cases read
    simp
  · intro name member
    obtain ⟨item, one⟩ := mapM_origin read name member
    unfold readGroupItem at one
    dsimp only at one
    split at one
    next isName =>
      cases one
      exact Text.isLowerName_lower isName
    · cases one

theorem wellNamed_of_readOrderBy {items : List SelectItem} {text : List Char} {order : List OrderItem}
    (read : readOrderBy items text = .ok order) :
    ∀ item ∈ order, ∀ call ∈ item.call, call.WellNamed := by
  unfold readOrderBy at read
  split at read
  · cases read
    simp
  · intro item member
    obtain ⟨_, one⟩ := mapM_origin read item member
    exact OrderItem.wellNamed_of_readLetters one

/-- Every clause of a query is read from its text. -/
structure IsReadFrom (q : Query) (text : List Char) : Prop where
  select : readSelect text = .ok (q.select, q.distinct)
  filter : readCondition .filter text = .ok q.filter
  groupBy : readGroupBy text = .ok q.groupBy
  having : readCondition .having text = .ok q.having
  orderBy : readOrderBy q.select text = .ok q.orderBy
  limit : readCount .limit text = .ok q.limit
  offset : ∃ offset, readCount .offset text = .ok offset ∧ q.offset = offset.getD 0

theorem isReadFrom_of_read {maxLength : Nat} {text : String} {q : Query} (done : Query.read maxLength text = .ok q) :
    q.IsReadFrom (Text.normalize text.toList) := by
  obtain ⟨_, _, done⟩ := Except.bind_eq_ok.mp done
  obtain ⟨⟨select, distinct⟩, selected, done⟩ := Except.bind_eq_ok.mp done
  obtain ⟨filter, filtered, done⟩ := Except.bind_eq_ok.mp done
  obtain ⟨groupBy, grouped, done⟩ := Except.bind_eq_ok.mp done
  obtain ⟨having, kept, done⟩ := Except.bind_eq_ok.mp done
  obtain ⟨orderBy, ordered, done⟩ := Except.bind_eq_ok.mp done
  obtain ⟨limit, limited, done⟩ := Except.bind_eq_ok.mp done
  obtain ⟨offset, skipped, done⟩ := Except.bind_eq_ok.mp done
  cases done
  exact ⟨selected, filtered, grouped, kept, ordered, limited, offset, skipped, rfl⟩

theorem wellNamed_of_read {maxLength : Nat} {text : String} {q : Query}
    (done : Query.read maxLength text = .ok q) : q.WellNamed := by
  have readers := isReadFrom_of_read done
  exact ⟨wellNamed_of_readSelect readers.select, wellNamed_of_readGroupBy readers.groupBy,
    wellNamed_of_readCondition readers.having, wellNamed_of_readOrderBy readers.orderBy⟩

end Query
end RecordQuery
