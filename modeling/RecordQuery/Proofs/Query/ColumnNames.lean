import RecordQuery.Engine
import RecordQuery.Proofs.Condition.Conjunction
import RecordQuery.Proofs.Order.Items
import RecordQuery.Proofs.Record.Lookup

/-! What a column name means. All clauses but SELECT read it in lower case, and so find one value in a
record. SELECT keeps the spelling and takes a field of exactly that name first, which can be another
one only where two names of the record differ in letter case alone. -/
namespace RecordQuery

namespace Record

/-- The value found under a name in lower case, null where there is none. -/
def columnValue (r : Record) (name : String) : Value := r.lookupOrNull (Text.lower name)

/-- Where no field has exactly this name, its spelling is ignored. -/
theorem lookupOrNull_eq (r : Record) (name : String) :
    r.lookupOrNull name = (r.get? name).getD (r.columnValue name) := by
  cases found : r.get? name with
  | some value => rw [lookupOrNull, lookup_of_get? found, Option.getD_some, Option.getD_some]
  | none => cases lowered : r.get? (Text.lower name) <;>
      simp [columnValue, lookupOrNull, lookup, found, lowered, Text.sameName]

theorem getD_columnValue {r : Record} {name : String}
    (plain : Text.lower name = name ∨ r.get? name = none ∨ r.Unambiguous) :
    (r.get? name).getD (r.columnValue name) = r.columnValue name := by
  rcases plain with lower | absent | unambiguous
  · rw [← lookupOrNull_eq, columnValue, lower]
  · rw [absent, Option.getD_none]
  · rw [← lookupOrNull_eq, columnValue, lookupOrNull, lookupOrNull, lookup_lower unambiguous]

end Record

/-- What is missing stands where null stands. -/
theorem Value.sortOrder_getD (a b : Option Value) (ascending : Bool) :
    sortOrder (some (a.getD .null)) (some (b.getD .null)) ascending = sortOrder a b ascending := by
  cases a <;> cases b <;> rfl

namespace Aggregate

/-- What is missing is tallied as null is. -/
theorem Tally.foldl_add_getD (values : List (Option Value)) (tally : Tally) :
    (values.map fun value => some (value.getD .null)).foldl add tally = values.foldl add tally := by
  have step (tally : Tally) (value : Option Value) : tally.add (some (value.getD .null)) = tally.add value := by
    cases value with
    | some _ => rfl
    | none => cases tally <;> rfl
  simp only [List.foldl_map, step]

theorem Call.map_values_ofField (function : Function) (name : String) (rows : Relation) :
    ((ofField function name).values rows).map (·.getD .null) = rows.map (·.columnValue name) := by
  simp only [values, List.map_map]
  rfl

theorem Call.over_ofField (function : Function) (name : String) (policy : MissingPolicy) (rows : Relation) :
    (ofField function name).over policy rows =
      (Tally.ofValues function policy (rows.map fun r => some (r.columnValue name))).result := by
  have fed : (rows.map fun r => some (r.columnValue name)) =
      ((ofField function name).values rows).map fun value => some (value.getD .null) := by
    have same := congrArg (List.map some) (map_values_ofField function name rows)
    simpa only [List.map_map, Function.comp_def] using same.symm
  rw [Call.over, Tally.ofValues, Tally.ofValues, fed, Tally.foldl_add_getD]
  rfl

end Aggregate

namespace Condition

section

variable {name : List Char} (isName : Text.isName name = true)

include isName

/-- Whatever follows the operator, the comparison depends on the value of the column alone. -/
theorem exists_verdict_name {rest : List Char} (stop : Text.Stops Text.isWord rest)
    (followed : (Operator.split? (Text.trimStart rest)).isSome = true) :
    ∃ outcome : Except Fault Test, ∀ r, (readTrimmedComparison (name ++ rest)).verdict r =
      outcome.map fun t => t.holds (r.columnValue (String.ofList name)) := by
  obtain ⟨⟨token, right⟩, split⟩ := Option.isSome_iff_exists.mp followed
  have found : Parts.after? (some (columnNamed name)) rest = some ⟨some (columnNamed name), token, right⟩ := by
    rw [Parts.after?, split, Option.map_some]
  have read : ∃ outcome : Except Fault Test,
      readParts (name ++ rest) = outcome.map (columnNamed name, ·) := by
    rw [readParts, read?_name isName stop found]
    dsimp only
    cases Operator.ofLetters? token with
    | some operator => exact ⟨readTest operator right (name ++ rest), rfl⟩
    | none => exact ⟨.error (.unknownOperator (String.ofList token)), rfl⟩
  obtain ⟨outcome, read⟩ := read
  refine ⟨outcome, fun r => ?_⟩
  rw [readTrimmedComparison, read]
  cases outcome <;> rfl

/-- The AND between the bounds divides the text, and the word BETWEEN joins it again. -/
theorem readConjunction_between {low high : List Char} (piece : Text.IsPiece .and low)
    (piece' : Text.IsPiece .and high) {whole : List Char} (trimmed : Text.trim whole = whole)
    (same : whole = name ++ ' ' :: (Operator.between.text.toList ++ ' ' :: low) ++ (Text.Keyword.and.glue ++ high)) :
    readConjunction whole = readTrimmedComparison whole := by
  have front := (Operator.between.isPiece_text (.inl rfl)).space piece
  have noAnd : Text.Quiet (Text.Separator.keyword .and)
      (name ++ ' ' :: (Operator.between.text.toList ++ ' ' :: low)) [' '] :=
    quiet_name isName (front.quiet_space (Text.stops_isWord_space _))
  have split := Text.Separator.split_append_glue (finish_space name front.nonempty front.finish) piece'.start noAnd
  rw [Text.Separator.split_quiet (piece'.quiet [] (Text.stops_nil _))] at split
  have bounds : Text.hasWholeKeyword .between
      (name ++ ' ' :: (Operator.between.text.toList ++ ' ' :: low)) = true := by
    rw [Text.hasWholeKeyword_append _ _ (by decide), Text.hasWholeKeyword_append _ _ (by decide),
      Operator.hasWholeKeyword_text]
    simp
  have joined : joinBounds ((Text.Separator.keyword .and).split whole) = [whole] := by
    rw [same, split, joinBounds, if_pos bounds]
    simp [joinBounds, Text.Keyword.glue, Text.Keyword.letters]
  rw [readConjunction, joined, List.map_singleton, combine, readComparison, trimmed]

/-- A column is compared by any test, whatever its name is spelled like. -/
theorem readLetters_column {t : Test} (writable : t.IsWritable) :
    readLetters (name ++ ' ' :: (t.operator.text.toList ++ ' ' :: t.write)) = .test (columnNamed name) t := by
  have tail : Text.IsPiece .or (t.operator.text.toList ++ ' ' :: t.write) :=
    (t.operator.isPiece_text (.inr rfl)).space (writable.isPiece_write (.inr rfl) fun _ => rfl)
  have comparison := readTrimmedComparison_of_parts writable
    (read?_column isName t.operator (writable.isPiece_write (.inr rfl) fun _ => rfl))
  have trimmed := trim_name isName tail.nonempty tail.finish
  have noOr := quiet_name isName (tail.quiet_space (Text.stops_nil _))
  rw [← comparison]
  by_cases bounds : t.operator = .between
  · cases writable with
    | @between low high literal literal' =>
      rw [readLetters_of_noOr trimmed noOr]
      refine readConjunction_between isName (Literal.isPiece_write (.inl rfl) literal)
        (Literal.isPiece_write (.inl rfl) literal') trimmed ?_
      simp [Test.operator, Test.write]
    | _ => cases bounds
  · have piece : Text.IsPiece .and (t.operator.text.toList ++ ' ' :: t.write) :=
      (t.operator.isPiece_text (.inl rfl)).space (writable.isPiece_write (.inl rfl) (absurd · bounds))
    exact readLetters_of_quiet trimmed noOr (quiet_name isName (piece.quiet_space (Text.stops_nil _)))

end

end Condition

theorem Query.readGroupItem_name {name : List Char} (isName : Text.isName name = true) :
    readGroupItem name = .ok (Text.lower (String.ofList name)) := by
  simp [readGroupItem, Text.trim_of_solid (Text.solid_of_isName isName), isName]

theorem Aggregate.Call.read?_name {name : List Char} (isName : Text.isName name = true) (function : Function) :
    read? (function.name.toList ++ '(' :: (name ++ [')'])) = some (ofField function (String.ofList name)) := by
  have star : name ≠ ['*'] := by
    rintro rfl
    exact absurd isName (by decide)
  rw [read?_append (.inr isName), ofArgument?, if_neg star]

/-- A column sorts rows by its value. -/
theorem Query.order_orderKey (q : Query) (name : String) (ascending : Bool) (a b : Record) :
    (q.orderKey ⟨Text.lower name, ascending, none⟩).order a b =
      Value.sortOrder (some (a.columnValue name)) (some (b.columnValue name)) ascending :=
  (Value.sortOrder_getD ..).symm

/-- WHERE, GROUP BY, ORDER BY and the aggregate functions read one value under a name, however the name
is spelled. SELECT reads the field of exactly this name if there is one, and else the same value, so that
the spelling makes no difference for a name in lower case, one that no field has in this spelling, and
a record without two names that are the same up to letter case. -/
theorem clauses_read_columnValue {name : String} (isName : Text.isName name.toList = true) :
    (∀ rest, Text.Stops Text.isWord rest → (Operator.split? (Text.trimStart rest)).isSome →
      ∃ outcome : Except Fault Test, ∀ r, (Condition.readTrimmedComparison (name.toList ++ rest)).verdict r =
        outcome.map fun t => t.holds (r.columnValue name)) ∧
    (∀ t : Test, t.IsWritable → ∀ r,
      (Condition.readLetters (name.toList ++ ' ' :: (t.operator.text.toList ++ ' ' :: t.write))).verdict r =
        .ok (t.holds (r.columnValue name))) ∧
    (∃ column, Query.readGroupItem name.toList = .ok column ∧
      ∀ r : Record, r.groupValues [column] = [r.columnValue name]) ∧
    (∀ items (direction : Direction), ∃ item,
      OrderItem.readLetters items (name.toList ++ direction.write) = .ok item ∧
      ∀ (q : Query) a b, (q.orderKey item).order a b =
        Value.sortOrder (some (a.columnValue name)) (some (b.columnValue name)) direction.ascends) ∧
    (∀ function : Aggregate.Function, ∃ call,
      Aggregate.Call.read? (function.name.toList ++ '(' :: (name.toList ++ [')'])) = some call ∧
      ∀ rows, (call.values rows).map (·.getD .null) = rows.map (·.columnValue name) ∧
        ∀ policy, call.over policy rows =
          (Aggregate.Tally.ofValues function policy (rows.map fun r => some (r.columnValue name))).result) ∧
    (∃ item, SelectItem.readLetters name.toList = .ok item ∧
      ∀ r, (item.resolve r).getD .null = (r.get? name).getD (r.columnValue name)) ∧
    ∀ r : Record, Text.lower name = name ∨ r.get? name = none ∨ r.Unambiguous →
      (r.get? name).getD (r.columnValue name) = r.columnValue name := by
  have spelled : String.ofList name.toList = name := String.ofList_toList
  refine ⟨fun rest stop followed => ?_, fun t writable r => ?_, ?_, fun items direction => ?_, fun function => ?_, ?_,
    fun r => Record.getD_columnValue⟩
  · simpa only [spelled] using Condition.exists_verdict_name isName stop followed
  · rw [Condition.readLetters_column isName writable, Condition.columnNamed, spelled]
    rfl
  · exact ⟨_, Query.readGroupItem_name isName, fun r => by rw [spelled]; rfl⟩
  · exact ⟨_, OrderItem.readLetters_name isName direction items, fun q a b => by rw [spelled, q.order_orderKey]⟩
  · refine ⟨_, Aggregate.Call.read?_name isName function, fun rows => ?_⟩
    rw [spelled]
    exact ⟨Aggregate.Call.map_values_ofField function name rows,
      fun policy => Aggregate.Call.over_ofField function name policy rows⟩
  · refine ⟨_, SelectItem.readLetters_name isName, fun r => ?_⟩
    rw [spelled]
    exact r.lookupOrNull_eq name

/-- A name that no field has as it is spelled, in a record with two other spellings of it. -/
theorem clauses_read_columnValue_qty :
    let five : Value := .number (.whole 5 (by decide))
    let r : Record := ⟨[("QTY", .number (.whole 7 (by decide))), ("qty", five)]⟩
    Text.isName "Qty".toList = true ∧ r.columnValue "Qty" = five ∧
      (∃ outcome : Except Fault Test, (Condition.readTrimmedComparison "Qty>=5".toList).verdict r =
        outcome.map fun t => t.holds five) ∧
      (Condition.readLetters "Qty IS NOT NULL".toList).verdict r = .ok true ∧
      (∃ column, Query.readGroupItem "Qty".toList = .ok column ∧ r.groupValues [column] = [five]) ∧
      (∃ item, OrderItem.readLetters [] "Qty DESC".toList = .ok item ∧ ∀ q : Query,
        (q.orderKey item).order r .empty = Value.sortOrder (some five) (some .null) false) ∧
      (∃ call, Aggregate.Call.read? "SUM(Qty)".toList = some call ∧
        (call.values [r, .empty]).map (·.getD .null) = [five, .null]) ∧
      ∃ item, SelectItem.readLetters "Qty".toList = .ok item ∧ (item.resolve r).getD .null = five := by
  intro five r
  have value : r.columnValue "Qty" = five := by decide +kernel
  have isName : Text.isName "Qty".toList = true := by decide
  obtain ⟨texts, tests, ⟨column, named, grouped⟩, orders, calls, ⟨item, shown, selected⟩, plain⟩ :=
    clauses_read_columnValue isName
  obtain ⟨outcome, compared⟩ := texts ">=5".toList ((Text.stops_cons ..).mpr (by decide)) (by decide +kernel)
  obtain ⟨order, sorted, placed⟩ := orders [] .descending
  obtain ⟨call, called, fed⟩ := calls .sum
  refine ⟨isName, value, ⟨outcome, ?_⟩, ?_, ⟨column, named, ?_⟩, ⟨order, sorted, fun q => ?_⟩, ⟨call, called, ?_⟩,
    item, shown, ?_⟩
  · rw [← value]
    exact compared r
  · have tested := tests (.null true) (.null true) r
    rw [value] at tested
    exact tested
  · rw [grouped, value]
  · rw [← value]
    exact placed q r .empty
  · rw [(fed [r, .empty]).1]
    exact congrArg (· :: [Value.null]) value
  · rw [selected, plain r (.inr (.inl rfl)), value]

/-- With a field of exactly this name and another one in lower case, SELECT reads the first and the other
clauses the second: the condition picks a record by one field, and the query shows the other. -/
theorem resolve_ne_columnValue_n :
    let one : Value := .number (.whole 1 (by decide))
    let two : Value := .number (.whole 2 (by decide))
    let r : Record := ⟨[("N", two), ("n", one)]⟩
    (SelectItem.read "N").toOption.bind (·.resolve r) = some two ∧
      (Condition.read "N = 1").verdict r = .ok true ∧ (Condition.read "N = 2").verdict r = .ok false ∧
      (Query.readGroupItem "N".toList).toOption.map (fun column => r.groupValues [column]) = some [one] ∧
      (Aggregate.Call.read? "SUM(N)".toList).map (·.values [r]) = some [some one] ∧
      (Config.default.execute "SELECT N FROM t WHERE N = 1" [⟨[("N", one), ("n", two)]⟩, r]).toOption =
        some [⟨[("N", two)]⟩] := by
  decide +kernel

end RecordQuery
