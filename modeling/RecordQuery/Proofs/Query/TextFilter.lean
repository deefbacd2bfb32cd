import RecordQuery.Engine
import RecordQuery.Proofs.Condition.ReadBack
import RecordQuery.Proofs.Query.ReadBack
import RecordQuery.Proofs.Text.Squeeze

/-! Queries for the rows whose column is a given text. The text stands in quotes, but the whole
query is brought to its normal form before it is read, so that rows are compared with the text
whose gaps are squeezed. -/
namespace RecordQuery

namespace Text

/-- The words at which queries and conditions are parted. -/
def partingWords : List Keyword := [.and, .or, .between, .group, .having, .order, .limit, .offset]

/-- A text without these words. -/
def IsUnparted (s : String) : Prop := ∀ keyword ∈ partingWords, hasWholeKeyword keyword s.toList = false

instance (s : String) : Decidable (IsUnparted s) := inferInstanceAs (Decidable (∀ _ ∈ _, _))

theorem IsUnparted.squeezed {s : String} (unparted : IsUnparted s) : IsUnparted (squeezed s) := by
  intro keyword member
  rw [toList_squeezed, hasWholeKeyword_squeeze]
  exact unparted keyword member

end Text

/-- A squeezed text reads back in quotes. -/
theorem isQuotable_squeezed {s : String} (unparted : Text.IsUnparted s) : IsQuotable (Text.squeezed s) := by
  have lacks := unparted.squeezed
  refine ⟨fun member => ?_, Text.Separator.cut?_eq_none (lacks .and (by decide)),
    Text.Separator.cut?_eq_none (lacks .or (by decide)), lacks .between (by decide)⟩
  rw [Text.toList_squeezed] at member
  exact absurd ((Text.isTidy_squeeze s.toList).eq_space '\n' member (by decide)) (by decide)

namespace Condition

/-- The comparison of a column with a text in quotes. -/
def equalsText (column s : String) : String := column ++ " = '" ++ s ++ "'"

theorem toList_equalsText (column s : String) : (equalsText column s).toList =
    column.toList ++ ' ' :: ((Operator.comparison .equal).text.toList ++ ' ' :: Literal.quote s) := by
  simp [equalsText, Operator.text, Literal.quote]

section

variable {column s : String} (isName : Text.isName column.toList = true)

include isName

theorem stops_equalsText : Text.Stops (fun c => Text.isBlank c || c == ',') (equalsText column s).toList := by
  obtain ⟨nonempty, word⟩ := Text.isName_iff.mp isName
  rw [toList_equalsText]
  refine Text.stops_append nonempty (Text.stops_of_forall fun c member => ?_) _
  have other : c ≠ ',' := by
    rintro rfl
    exact absurd (word _ member) (by decide)
  simp [Text.isBlank_of_isWord (word c member), other]

theorem squeeze_equalsText :
    Text.squeeze (equalsText column s).toList = (equalsText column (Text.squeezed s)).toList := by
  have word := (Text.isName_iff.mp isName).2
  have tail (s : String) : ' ' :: ((Operator.comparison .equal).text.toList ++ ' ' :: Literal.quote s) =
      [' ', '=', ' '] ++ '\'' :: (s.toList ++ '\'' :: []) := rfl
  rw [toList_equalsText, toList_equalsText, tail, tail, Text.squeeze_word word,
    Text.squeeze_append _ (by decide) (by decide), Text.squeeze_append _ (by decide) (by decide), Text.toList_squeezed]
  rfl

/-- The comparison is read as one, its column in lower case. -/
theorem read_equalsText (quotable : IsQuotable s) :
    read (equalsText column s) = .test (.column (Text.lower column)) (.compare .equal (.text s)) := by
  have literal : Literal.read (Literal.quote s) = .text s := Literal.read_write (.text quotable)
  rw [read, toList_equalsText, read_column isName .equal fun keyword member => Literal.isPiece_quote member quotable,
    literal, columnNamed, String.ofList_toList]

end

theorem hasWholeKeyword_equalsText (keyword : Text.Keyword) (column s : String) :
    Text.hasWholeKeyword keyword (equalsText column s).toList =
      (Text.hasWholeKeyword keyword column.toList || Text.hasWholeKeyword keyword s.toList) := by
  have operator : (Operator.comparison .equal).text.toList = ['='] := rfl
  rw [toList_equalsText, operator, Text.hasWholeKeyword_append keyword _ (by decide), List.singleton_append,
    Text.hasWholeKeyword_cons keyword (by decide), Text.hasWholeKeyword_cons keyword (by decide), Literal.quote,
    Text.hasWholeKeyword_cons keyword (by decide), Text.hasWholeKeyword_append keyword _ (by decide),
    Text.hasWholeKeyword_nil, Bool.or_false]

/-- The quote is the last character. -/
theorem stops_reverse_equalsText {p : Char → Bool} (other : p '\'' = false) (column s : String) :
    Text.Stops p (equalsText column s).toList.reverse := by
  rw [equalsText, String.toList_append, List.reverse_append]
  exact (Text.stops_cons ..).mpr other

/-- With a tidy text the comparison is in normal form. -/
theorem isConditionText_equalsText {column s : String} (isName : Text.isName column.toList = true)
    (unparted : Text.IsUnparted column) (unparted' : Text.IsUnparted s) (tidy : Text.squeezed s = s) :
    IsConditionText .filter (equalsText column s) where
  nonempty := by simp [toList_equalsText]
  normal := by
    have start : Text.Stops Text.isBlank (equalsText column s).toList :=
      (Text.stops_or.mp (stops_equalsText isName)).1
    have finish : Text.Stops Text.isBlank (equalsText column s).toList.reverse :=
      stops_reverse_equalsText (by decide) column s
    rw [Text.normalize_eq_squeeze, Text.trim_eq_self start finish, squeeze_equalsText isName, tidy]
  start := fun first => absurd (stops_equalsText isName ',' first) (by decide)
  finish := stops_reverse_equalsText (by decide) column s
  free := by
    intro other member apart
    have parted : ∀ other ∈ Clause.sequence, other ≠ .filter →
        ∃ keyword ∈ other.phrase.head?, keyword ∈ Text.partingWords := by decide
    obtain ⟨keyword, first, parting⟩ := parted other member apart
    apply Clause.occursIn_eq_false first
    rw [hasWholeKeyword_equalsText, unparted keyword parting, unparted' keyword parting]
    rfl

end Condition

theorem Value.equals_text (value : Value) (s : String) : value.equals (.text s) = decide (value = .text s) := by
  cases value with
  | text t =>
    simp only [Value.equals, Value.text.injEq]
    exact Bool.beq_eq_decide_eq t s
  | _ => simp [Value.equals]

theorem Record.without_nil (r : Record) : r.without [] = r := by
  obtain ⟨fields⟩ := r
  exact congrArg Record.mk (List.filter_eq_self.mpr fun _ _ => rfl)

namespace WrittenQuery

/-- The query for the rows that pass a condition, with all their fields. -/
def ofFilter (text : String) : WrittenQuery where
  items := [.wildcard]
  distinct := false
  source := "t"
  filter := some text
  groupBy := []
  having := none
  orderBy := []
  limit := none
  offset := none
  semicolon := false

theorem write_ofFilter (text : String) : (ofFilter text).write = "SELECT * FROM t WHERE ".toList ++ text.toList := by
  have clauses : Clause.writeAll (ofFilter text).body Clause.sequence = Clause.filter.write text.toList :=
    List.append_nil _
  have front : "SELECT * FROM t WHERE ".toList = SelectHead.write false ++ (SelectItem.wildcard.write ++
      SelectHead.writeFrom ("t".toList ++ ' ' :: (Clause.filter.letters ++ [' ']))) := by decide
  rw [write, clauses, front]
  simp [ofFilter, tail, Clause.write, SelectHead.writeFrom]

theorem isWritable_ofFilter {text : String} (condition : IsConditionText .filter text) :
    (ofFilter text).IsWritable where
  nonempty := by simp [ofFilter]
  items := by
    intro item member
    rw [List.mem_singleton.mp (show item ∈ [.wildcard] from member)]
    exact ⟨trivial, by simp [SelectItem.label?]⟩
  source := by
    show Text.IsFreeName "t"
    exact ⟨by decide, by decide +kernel⟩
  filter := by simpa [ofFilter] using condition
  groupBy := by simp [ofFilter]
  having := by simp [ofFilter]
  orderBy := by simp [ofFilter]
  limit := by simp [ofFilter]
  offset := by simp [ofFilter]

end WrittenQuery

namespace Query

/-- The query for the rows whose column is a text, in writing. -/
def textFilter (column s : String) : String := "SELECT * FROM t WHERE " ++ Condition.equalsText column s

/-- The query that shows the rows whose column is a text. -/
def ofTextFilter (column s : String) : Query where
  select := [.wildcard]
  distinct := false
  filter := some ⟨Condition.equalsText column s, .test (.column (Text.lower column)) (.compare .equal (.text s))⟩
  groupBy := []
  having := none
  orderBy := []
  limit := none
  offset := 0

theorem toList_textFilter (column s : String) :
    (textFilter column s).toList = "SELECT * FROM t WHERE ".toList ++ (Condition.equalsText column s).toList :=
  String.toList_append

theorem stops_reverse_textFilter (column s : String) :
    Text.Stops Text.isBlank (textFilter column s).toList.reverse := by
  rw [toList_textFilter]
  exact Text.stops_reverse_append (by simp [Condition.toList_equalsText])
    (Condition.stops_reverse_equalsText (by decide) column s) _

theorem check_textFilter {maxLength : Nat} {column s : String} (fits : (textFilter column s).length ≤ maxLength) :
    check maxLength (textFilter column s).toList = .ok () := by
  have finish := stops_reverse_textFilter column s
  have head : (textFilter column s).toList = Text.Keyword.select.letters ++ ' ' ::
      ("* FROM t WHERE ".toList ++ (Condition.equalsText column s).toList) := toList_textFilter column s
  rw [← String.length_toList] at fits
  rw [head] at finish fits ⊢
  exact check_select finish fits

/-- Nothing but the text between the quotes is changed. -/
theorem normalize_textFilter {column : String} (isName : Text.isName column.toList = true) (s : String) :
    Text.normalize (textFilter column s).toList = (textFilter column (Text.squeezed s)).toList := by
  have start : Text.Stops Text.isBlank (textFilter column s).toList := by
    rw [toList_textFilter]
    exact (Text.stops_cons ..).mpr (by decide)
  have front : Text.squeeze "SELECT * FROM t WHERE ".toList = "SELECT * FROM t WHERE ".toList := by decide
  rw [Text.normalize_eq_squeeze, Text.trim_eq_self start (stops_reverse_textFilter column s), toList_textFilter,
    toList_textFilter, Text.squeeze_append_of_stops _ (Condition.stops_equalsText isName), front,
    Condition.squeeze_equalsText isName]

theorem run_ofTextFilter (config : Config) (column s : String) (rows : Relation) :
    config.run (ofTextFilter column s) rows =
      rows.filter fun r => r.lookupOrNull (Text.lower column) = .text s := by
  have plan : config.planOf (ofTextFilter column s) =
    [.filter (.test (.column (Text.lower column)) (.compare .equal (.text s))), .project [.wildcard] []] := rfl
  have shown (rows : Relation) : projectRows [.wildcard] [] rows = rows := by
    rw [projectRows, if_pos (by rfl)]
    simp [Record.without_nil]
  rw [Config.run, plan, Plan.run_cons, Plan.run_cons, Plan.run_nil, Stage.run, Stage.run, shown]
  simp [Condition.holds, Condition.passes, Condition.verdict, Test.holds, Comparison.holds, Value.equals_text]

/-- A text in quotes reaches the comparison with its gaps squeezed, and unchanged just where there
is nothing to squeeze. The query keeps the rows whose column is that text. -/
theorem read_textFilter_and_execute (config : Config) {column s : String} (isName : Text.isName column.toList = true)
    (unparted : Text.IsUnparted column) (unparted' : Text.IsUnparted s)
    (fits : (textFilter column s).length ≤ config.maxQueryLength) :
    config.read (textFilter column s) = .ok (ofTextFilter column (Text.squeezed s)) ∧
      (Text.squeezed s = s ↔ Text.IsTidy s.toList) ∧
      ∀ rows, config.execute (textFilter column s) rows = .ok
        (rows.filter fun r => r.lookupOrNull (Text.lower column) = .text (Text.squeezed s)) := by
  have condition : IsConditionText .filter (Condition.equalsText column (Text.squeezed s)) :=
    Condition.isConditionText_equalsText isName unparted unparted'.squeezed (Text.squeezed_squeezed s)
  have meant : Condition.read (Condition.equalsText column (Text.squeezed s)) = _ :=
    Condition.read_equalsText isName (isQuotable_squeezed unparted')
  have query : (WrittenQuery.ofFilter (Condition.equalsText column (Text.squeezed s))).query =
      ofTextFilter column (Text.squeezed s) := by
    rw [ofTextFilter, ← meant]
    rfl
  have read : config.read (textFilter column s) = .ok (ofTextFilter column (Text.squeezed s)) := by
    rw [Config.read, read_of_check (check_textFilter fits), normalize_textFilter isName, toList_textFilter,
      ← WrittenQuery.write_ofFilter, readNormalized_write (WrittenQuery.isWritable_ofFilter condition), query]
  refine ⟨read, Text.squeezed_eq_self_iff, fun rows => ?_⟩
  rw [Config.execute, read, ← run_ofTextFilter config]
  rfl

/-- Commas, parentheses, operators and a tab. -/
theorem read_textFilter_region :
    let s := "north ,west\t(a)  >= '5'"
    Text.isName "Region".toList = true ∧ Text.IsUnparted "Region" ∧ Text.IsUnparted s ∧
      (textFilter "Region" s).length ≤ Config.default.maxQueryLength ∧
      Config.default.read (textFilter "Region" s) = .ok (ofTextFilter "Region" "north, west (a) >= '5'") ∧
      ¬ Text.IsTidy s.toList ∧
      ∀ rows, Config.default.execute (textFilter "Region" s) rows = .ok
        (rows.filter fun r => r.lookupOrNull (Text.lower "Region") = .text "north, west (a) >= '5'") := by
  intro s
  have isName : Text.isName "Region".toList = true := by decide
  have unparted : Text.IsUnparted "Region" := by decide +kernel
  have unparted' : Text.IsUnparted s := by decide +kernel
  have fits : (textFilter "Region" s).length ≤ Config.default.maxQueryLength := by decide +kernel
  have squeezed : Text.squeezed s = "north, west (a) >= '5'" := by decide +kernel
  obtain ⟨read, kept, execute⟩ := read_textFilter_and_execute Config.default isName unparted unparted' fits
  rw [squeezed] at read kept execute
  exact ⟨isName, unparted, unparted', fits, read, fun tidy => absurd (kept.mpr tidy) (by decide +kernel), execute⟩

/-- Of two blanks in quotes only one is compared with. -/
theorem read_textFilter_two_blanks :
    let s := "a  b"
    let rows : Relation := [⟨[("c", .text "a  b")]⟩, ⟨[("c", .text "a b")]⟩]
    Text.isName "c".toList = true ∧
      (∀ keyword ∈ [.and, .or, .between, .select, .from, .where, .group, .having, .order, .limit, .offset],
        Text.hasWholeKeyword keyword "c".toList = false ∧ Text.hasWholeKeyword keyword s.toList = false) ∧
      (∀ mark ∈ ['\'', '"', ';', '\n'], mark ∉ s.toList) ∧
      (textFilter "c" s).length ≤ Config.default.maxQueryLength ∧
      ∃ q, Config.default.read (textFilter "c" s) = .ok q ∧
        (∀ written ∈ q.filter, written.condition ≠ .test (.column "c") (.compare .equal (.text s))) ∧
        Config.default.run q rows ≠ rows.filter fun r => r.lookupOrNull "c" = .text s := by
  intro s rows
  obtain ⟨q, done, conditions⟩ := Except.exists_of_any_toOption (show (Config.default.read
      (textFilter "c" s)).toOption.any
    (fun q => decide ((q.filter.all fun written => !written.condition.holds ⟨[("c", .text s)]⟩) = true ∧
      Config.default.run q rows ≠ rows.filter fun r => r.lookupOrNull "c" = .text s)) = true
    by decide +kernel)
  obtain ⟨refused, lost⟩ := of_decide_eq_true conditions
  refine ⟨by decide, by decide +kernel, by decide, by decide +kernel, q, done, fun written member same => ?_, lost⟩
  rw [Option.mem_def.mp member, Option.all_some, same] at refused
  exact absurd refused (by decide +kernel)

end Query
end RecordQuery
