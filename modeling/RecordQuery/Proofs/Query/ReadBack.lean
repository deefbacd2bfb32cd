import RecordQuery.Proofs.Query.Writing

/-! Reading of written queries. Each clause is found where it was written, and nowhere else. -/
namespace RecordQuery.Query

theorem readGroupItem_toList {name : String} (free : Text.IsFreeName name) (lower : Text.lower name = name) :
    readGroupItem name.toList = .ok name := by
  have field := SelectItem.isField_name free
  rw [readGroupItem, Text.trim_eq_self field.start field.finish, if_pos free.name, String.ofList_toList, lower]

/-- The parts of a list are read one by one. -/
theorem mapM_split_listed {read : List Char → Except ReadError β} {write : α → List Char} {meaning : α → β}
    {items : List α} (plain : ∀ item ∈ items, Clause.IsPlain (write item))
    (all : ∀ item ∈ items, read (write item) = .ok (meaning item)) :
    (match WrittenQuery.listed (items.map write) with
      | none => Except.ok []
      | some body => (Text.Separator.comma.split body).mapM read) = Except.ok (items.map meaning) := by
  cases items with
  | nil => rfl
  | cons item items =>
    have fields : ∀ part ∈ (item :: items).map write, Text.IsField part := by
      intro part member
      obtain ⟨other, found, rfl⟩ := List.mem_map.mp member
      exact (plain other found).field
    have parts := Text.split_comma_intercalate (by simp) fields
    have results := mapM_map all
    rw [← parts] at results
    exact results

theorem read_of_check {maxLength : Nat} {text : String} (accepted : check maxLength text.toList = .ok ()) :
    read maxLength text = readNormalized (Text.normalize text.toList) := by
  rw [read, readLetters, accepted]
  rfl

theorem check_select {maxLength : Nat} {s : List Char}
    (finish : Text.Stops Text.isBlank (Text.Keyword.select.letters ++ ' ' :: s).reverse)
    (fits : (Text.Keyword.select.letters ++ ' ' :: s).length ≤ maxLength) :
    check maxLength (Text.Keyword.select.letters ++ ' ' :: s) = .ok () := by
  have start : Text.Stops Text.isBlank (Text.Keyword.select.letters ++ ' ' :: s) :=
    (Text.stops_cons ..).mpr (by decide)
  have select : ((Text.skipKeyword? .select (Text.Keyword.select.letters ++ ' ' :: s)).bind
      Text.skipBlanks?).isSome = true := by
    rw [Text.skipKeyword?_letters]
    rfl
  rw [check, Text.trim_eq_self start finish, if_neg (by simp), if_neg (Nat.not_lt.mpr fits), if_pos select]

section

variable {w : WrittenQuery} (writable : w.IsWritable)

include writable

theorem body?_write {clause : Clause} (member : clause ∈ Clause.sequence) (long : clause.later ≠ []) :
    clause.body? w.write = w.body clause := by
  rw [w.write_eq]
  exact Clause.body?_writeAll (fun _ _ _ written => (w.isBody_body writable written).2) w.follows_tail
    (w.hasWholeKeyword_front writable) member long

theorem word?_write {clause : Clause} (member : clause ∈ [.limit, .offset]) :
    clause.word? w.write = w.body clause := by
  have digits {count : Option Nat} : ∀ b ∈ count.map (Nat.toDigits 10), ∀ c ∈ b, (!Text.isBlank c && c ≠ ';') = true := by
    intro b written c inside
    obtain ⟨n, _, rfl⟩ := Option.map_eq_some_iff.mp written
    have solid := Literal.isBlank_of_isNumeral ((allDigits_toDigits n).isNumeral c inside)
    have other : c ≠ ';' := by
      rintro rfl
      exact (Clause.isPlain_digits n).noSemicolon inside
    simp [solid, other]
  have inSequence : clause ∈ Clause.sequence ∧ ∀ b ∈ w.body clause, ∀ c ∈ b, (!Text.isBlank c && c ≠ ';') = true := by
    simp only [List.mem_cons, List.not_mem_nil, or_false] at member
    rcases member with rfl | rfl
    · exact ⟨by decide, digits⟩
    · exact ⟨by decide, digits⟩
  rw [w.write_eq]
  exact Clause.word?_writeAll (fun _ _ _ written => (w.isBody_body writable written).2) w.follows_tail
    (w.hasWholeKeyword_front writable) inSequence.1 inSequence.2

theorem check_write {maxLength : Nat} (fits : w.write.length ≤ maxLength) : check maxLength w.write = .ok () := by
  have finish := (w.isPassage_write writable).finish
  have head : ∃ s, w.write = Text.Keyword.select.letters ++ ' ' :: s := by
    rw [WrittenQuery.write, SelectHead.write, List.append_assoc]
    exact ⟨_, rfl⟩
  obtain ⟨s, same⟩ := head
  rw [same] at finish fits ⊢
  exact check_select finish fits

theorem readCondition_write {clause : Clause} (member : clause ∈ Clause.sequence) (long : clause.later ≠ [])
    {text : Option String} (written : w.body clause = text.map String.toList) :
    readCondition clause w.write = .ok (text.map fun text => ⟨text, Condition.read text⟩) := by
  rw [readCondition, body?_write writable member long, written]
  cases text with
  | none => rfl
  | some text =>
    have isBody := (w.isBody_body writable written).2
    have passage := (w.isBody_body writable written).1
    rw [Option.map_some]
    split
    next none => cases none
    next empty => exact absurd (Option.some.inj empty) passage.nonempty
    next body same =>
      obtain rfl := Option.some.inj same
      rw [WrittenCondition.read, Text.trim_eq_self passage.solid_start passage.finish, String.ofList_toList]
      rfl

theorem readGroupBy_write : readGroupBy w.write = .ok w.groupBy := by
  have found : Clause.group.body? w.write = WrittenQuery.listed (w.groupBy.map String.toList) :=
    body?_write writable (by decide) (by decide)
  have parts := mapM_split_listed (fun name member => Clause.IsPlain.of_free (writable.groupBy name member).1)
    fun name member => readGroupItem_toList (writable.groupBy name member).1 (writable.groupBy name member).2
  rw [List.map_id'] at parts
  rw [readGroupBy, found]
  exact parts

theorem readOrderBy_write : readOrderBy w.items w.write = .ok (w.orderBy.map fun order => order.item w.items) := by
  have found : Clause.order.body? w.write = WrittenQuery.listed (w.orderBy.map WrittenOrder.write) :=
    body?_write writable (by decide) (by decide)
  have parts := mapM_split_listed (fun order member => (writable.orderBy order member).isPlain_write)
    fun order member => OrderItem.readLetters_write (writable.orderBy order member) w.items
  rw [readOrderBy, found]
  exact parts

theorem readCount_write {clause : Clause} {count : Option Nat} (member : clause ∈ [.limit, .offset])
    (written : w.body clause = count.map (Nat.toDigits 10)) (small : ∀ n ∈ count, n < 2 ^ 64) :
    readCount clause w.write = .ok count := by
  rw [readCount, word?_write writable member, written]
  cases count with
  | none => rfl
  | some n =>
    have bound : n < 1 <<< 64 := small n rfl
    rw [Option.map_some]
    dsimp only
    rw [readNat?_toDigits, Option.filter_some, if_pos (by simpa using bound)]

theorem readNormalized_write : readNormalized w.write = .ok w.query := by
  have select : readSelect w.write = .ok (w.items, w.distinct) :=
    readSelect_write w.distinct writable.nonempty writable.items _
  have filter : readCondition .filter w.write = _ := readCondition_write writable (by decide) (by decide) rfl
  have having : readCondition .having w.write = _ := readCondition_write writable (by decide) (by decide) rfl
  have limit : readCount .limit w.write = _ := readCount_write writable (by decide) rfl writable.limit
  have offset : readCount .offset w.write = _ := readCount_write writable (by decide) rfl writable.offset
  rw [readNormalized, select]
  simp only [filter, having, limit, offset, readGroupBy_write writable, readOrderBy_write writable, bind, Except.bind]
  rfl

/-- A written query is read back, clause by clause. -/
theorem read_written_query {maxLength : Nat} (fits : w.write.length ≤ maxLength) :
    read maxLength (String.ofList w.write) = .ok w.query := by
  have passage := w.isPassage_write writable
  have fixed : Text.normalize w.write = w.write := passage.normal.normalize_eq passage.finish
  rw [read, readLetters, String.toList_ofList, check_write writable fits, fixed]
  exact readNormalized_write writable

end

/-- Every clause is written, with EXTRACT in the list and a comma in a condition. -/
theorem read_written_sales :
    let w : WrittenQuery := {
      items := [.aggregate ⟨.sum, some "sales"⟩ (some "total"), .datePart .year "day" none, .column "region" none]
      distinct := true
      source := "orders"
      filter := some "note IN ('first, last', 'from')"
      groupBy := ["region"]
      having := some "COUNT(*) > 1"
      orderBy := [⟨.aggregate ⟨.sum, some "sales"⟩, .descending⟩, ⟨.column "region", .unwritten⟩]
      limit := some 10
      offset := some 5
      semicolon := true }
    w.IsWritable ∧ read 1000 (String.ofList w.write) = .ok w.query := by
  have free {name : String} (isName : Text.isName name.toList = true)
      (other : ∀ keyword ∈ Text.reserved, Text.skipKeyword? keyword name.toList ≠ some []) :
      Text.IsFreeName name := ⟨isName, other⟩
  have sales : Text.IsFreeName "sales" := free (by decide) (by decide +kernel)
  have total : Text.IsFreeName "total" := free (by decide) (by decide +kernel)
  have day : Text.IsFreeName "day" := free (by decide) (by decide +kernel)
  have region : Text.IsFreeName "region" := free (by decide) (by decide +kernel)
  have orders : Text.IsFreeName "orders" := free (by decide) (by decide +kernel)
  have lower : Text.lower "sales" = "sales" ∧ Text.lower "region" = "region" :=
    ⟨Text.lower_eq_self (by decide), Text.lower_eq_self (by decide)⟩
  have sum : Aggregate.Call.IsFree ⟨.sum, some "sales"⟩ := ⟨⟨sales.name, lower.1⟩, by simpa using sales⟩
  have filter : IsConditionText .filter "note IN ('first, last', 'from')" :=
    ⟨by decide, by decide +kernel, by decide, by decide, by decide +kernel⟩
  have having : IsConditionText .having "COUNT(*) > 1" :=
    ⟨by decide, by decide +kernel, by decide, by decide, by decide +kernel⟩
  intro w
  have writable : w.IsWritable := by
    refine ⟨by simp [w], ?_, orders, by simpa [w] using filter, by simpa [w] using ⟨region, lower.2⟩,
      by simpa [w] using having, ?_, by simp [w], by simp [w]⟩
    · intro item member
      simp only [w, List.mem_cons, List.not_mem_nil, or_false] at member
      rcases member with rfl | rfl | rfl
      · exact ⟨sum, by simpa [SelectItem.label?] using total⟩
      · exact ⟨day, by simp [SelectItem.label?]⟩
      · exact ⟨region, by simp [SelectItem.label?]⟩
    · intro order member
      simp only [w, List.mem_cons, List.not_mem_nil, or_false] at member
      rcases member with rfl | rfl
      · exact sum
      · exact ⟨region, lower.2⟩
  exact ⟨writable, read_written_query writable (by decide +kernel)⟩

end RecordQuery.Query
