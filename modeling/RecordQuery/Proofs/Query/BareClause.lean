import RecordQuery.Proofs.Order.Items
import RecordQuery.Proofs.Query.ClauseWords
import RecordQuery.Proofs.Query.Names

/-! A clause that is nothing but its words. At the end of a text it counts as not written, and
elsewhere what follows it is taken for its body: a condition is then replaced by the next clause, while
the next clause is refused as a list of columns, as an ordering and as a count. -/
namespace RecordQuery

/-- A numeral is no direction. -/
theorem OrderItem.directionOf?_numeral {c : Char} (numeral : isNumeral c = true) (s : List Char) :
    directionOf? (' ' :: c :: s) = none := by
  have solid : Text.Stops Text.isBlank (c :: s) := (Text.stops_cons ..).mpr (Literal.isBlank_of_isNumeral numeral)
  have letter {k : Char} (capital : Text.IsCapital k) (other : k ≠ 'E') : Text.sameLetter k c = false :=
    Literal.sameLetter_of_isNumeral capital numeral other
  have none : Text.skipKeyword? .asc (c :: s) = none ∧ Text.skipKeyword? .desc (c :: s) = none := by
    simp [Text.skipKeyword?, Text.Keyword.letters, Text.skipLetters?, letter (k := 'A') (by decide) (by decide),
      letter (k := 'D') (by decide) (by decide)]
  simp [directionOf?, Text.skipBlanks?_space solid, none]

namespace Clause

/-- The clauses that may be written behind a clause. -/
def followers (clause : Clause) : List Clause := (sequence.dropWhile (· ≠ clause)).tail

theorem followers_subset : ∀ clause ∈ sequence, ∀ next ∈ clause.followers, next ∈ sequence ∧ next ≠ clause := by
  decide

/-- What stands behind the words of a clause where its body starts: not the words of a clause. -/
inductive StartsBody : List Char → Prop
  | body {c : Char} {more : List Char} (solid : Text.isBlank c = false) (mark : c ≠ ',' ∧ c ≠ ';')
    (apart : ∀ other ∈ sequence, (other.words? (c :: more)).isSome = false) : StartsBody (' ' :: c :: more)

/-- No body ends within a word. -/
theorem takeBody_run (stops : List Clause) {s : List Char} (solid : ∀ c ∈ s, Text.isBlank c = false ∧ c ≠ ';')
    (t : List Char) : takeBody stops (s ++ t) = s ++ takeBody stops t := by
  induction s with
  | nil => rfl
  | cons c s ih =>
    obtain ⟨here, other⟩ := solid c List.mem_cons_self
    have unfinished : isTail (c :: (s ++ t)) = false := isTail_of_mem List.mem_cons_self here other
    have stop : stops.any (·.startsAfterBlanks (c :: (s ++ t))) = false := by
      simp [startsAfterBlanks, Text.skipBlanks?, here]
    rw [List.cons_append, takeBody, unfinished, stop, ih fun d member => solid d (List.mem_cons_of_mem _ member)]
    rfl

/-- Beyond a character that is neither blank nor a semicolon a body is trimmed on its own. -/
theorem exists_trimBody {s : List Char} (nonempty : s ≠ []) (start : Text.Stops Text.isBlank s)
    (finish : Text.Stops (fun c => Text.isBlank c || c == ';') s.reverse) (t : List Char) :
    ∃ back, trimBody (s ++ t) = s ++ back := by
  have solid : Text.Stops Text.isBlank s.reverse := (Text.stops_or.mp finish).1
  have other : Text.Stops (· = ';') s.reverse := (Text.stops_or.mp finish).2
  rw [trimBody, Text.trim_append_of_solid nonempty start solid, Text.reverse_dropWhile_append other, Text.trimEnd,
    Text.reverse_dropWhile_append solid]
  exact ⟨_, rfl⟩

/-- A word, blanks, and more text that starts no clause. -/
structure IsLed (word gap : List Char) (c : Char) (more : List Char) : Prop where
  nonempty : word ≠ []
  inside : ∀ d ∈ word, Text.isWord d = true
  gapped : gap ≠ []
  blank : ∀ d ∈ gap, Text.isBlank d = true
  solid : Text.isBlank c = false
  mark : c ≠ ',' ∧ c ≠ ';'
  apart : ∀ other ∈ sequence, (other.words? (c :: more)).isSome = false

namespace IsLed

variable {word gap : List Char} {c : Char} {more : List Char}

theorem start (led : IsLed word gap c more) (s : List Char) : Text.Stops Text.isBlank (word ++ s) :=
  Text.stops_append led.nonempty (Text.stops_of_forall fun d member => Text.isBlank_of_isWord (led.inside d member)) s

theorem finish (led : IsLed word gap c more) :
    Text.Stops (fun d => Text.isBlank d || d == ';') (word ++ (gap ++ [c])).reverse := by
  have mark := led.mark.2
  simp [led.solid, mark]

theorem finish_solid (led : IsLed word gap c more) : Text.Stops Text.isBlank (word ++ (gap ++ [c])).reverse :=
  (Text.stops_or.mp led.finish).1

theorem noComma (led : IsLed word gap c more) : ',' ∉ word ++ (gap ++ [c]) := by
  have other := led.mark.1
  have word' : ',' ∉ word := fun member => absurd (led.inside _ member) (by decide)
  have gap' : ',' ∉ gap := fun member => absurd (led.blank _ member) (by decide)
  simp [word', gap', Ne.symm other]

theorem takeBody_gap (led : IsLed word gap c more) {stops : List Clause} (subset : stops ⊆ sequence)
    {rest : List Char} (blank : ∀ d ∈ rest, Text.isBlank d = true) :
    takeBody stops (rest ++ c :: more) = rest ++ c :: takeBody stops more := by
  induction rest with
  | nil => exact takeBody_run stops (s := [c]) (by simpa using ⟨led.solid, led.mark.2⟩) more
  | cons d rest ih =>
    have first : Text.isBlank d = true := blank d List.mem_cons_self
    have later : ∀ e ∈ rest, Text.isBlank e = true := fun e member => blank e (List.mem_cons_of_mem _ member)
    have unfinished : isTail (d :: (rest ++ c :: more)) = false := isTail_of_mem (by simp) led.solid led.mark.2
    have stop : stops.any (·.startsAfterBlanks (d :: (rest ++ c :: more))) = false := by
      rw [List.any_eq_false]
      intro other member
      have apart := led.apart other (subset member)
      rw [words?, Option.isSome_filter] at apart
      rw [startsAfterBlanks, Text.skipBlanks?, if_pos first, Option.bind_some, Text.trimStart,
        Text.dropWhile_run later ((Text.stops_cons ..).mpr led.solid), apart]
      decide
    rw [List.cons_append, takeBody, unfinished, stop, ih later]
    rfl

/-- No clause ends the text before its second part. -/
theorem takeBody_append (led : IsLed word gap c more) {stops : List Clause} (subset : stops ⊆ sequence) :
    takeBody stops (word ++ (gap ++ c :: more)) = word ++ (gap ++ c :: takeBody stops more) := by
  have solid : ∀ d ∈ word, Text.isBlank d = false ∧ d ≠ ';' := by
    intro d member
    refine ⟨Text.isBlank_of_isWord (led.inside d member), ?_⟩
    rintro rfl
    exact absurd (led.inside _ member) (by decide)
  rw [takeBody_run stops solid, led.takeBody_gap subset led.blank]

/-- The body of a clause and its first field start with the word and what follows it. -/
theorem exists_body (led : IsLed word gap c more) {clause : Clause} {text : List Char}
    (found : Text.findWord? clause.opening? false text = some (word ++ (gap ++ c :: more))) :
    ∃ body field fields, clause.body? text = some body ∧ body ≠ [] ∧
      Text.Separator.comma.split body = (word ++ (gap ++ c :: field)) :: fields := by
  have subset : clause.later ⊆ sequence := fun next member => (later_subset clause next member).1
  have shape (t : List Char) : word ++ (gap ++ c :: t) = word ++ (gap ++ [c]) ++ t := by simp
  have nonempty : word ++ (gap ++ [c]) ≠ [] := by simp
  obtain ⟨back, trimmed⟩ := exists_trimBody nonempty (led.start _) led.finish (takeBody clause.later more)
  obtain ⟨field, fields, split⟩ := Text.exists_split_comma led.noComma led.finish_solid back
  have body : clause.body? text = some (word ++ (gap ++ [c]) ++ back) := by
    rw [body?, found, Option.map_some, led.takeBody_append subset, shape, trimmed]
  exact ⟨_, field, fields, body, by simp, by rw [split, ← shape]⟩

theorem trim (led : IsLed word gap c more) (t : List Char) :
    Text.trim (word ++ (gap ++ c :: t)) = word ++ (gap ++ c :: Text.trimEnd t) := by
  have nonempty : word ++ (gap ++ [c]) ≠ [] := by simp
  have trimmed := Text.trim_append_of_solid nonempty (led.start _) led.finish_solid t
  simpa using trimmed

/-- No name has a blank in it. -/
theorem isName_eq_false (led : IsLed word gap c more) (t : List Char) :
    Text.isName (word ++ (gap ++ t)) = false := by
  obtain ⟨d, gap, rfl⟩ := List.exists_cons_of_ne_nil led.gapped
  have blank : Text.isWord d = false := Text.isWord_of_isBlank (led.blank d List.mem_cons_self)
  simp [Text.isName, blank]

theorem readGroupItem (led : IsLed word gap c more) (t : List Char) :
    Query.readGroupItem (word ++ (gap ++ c :: t)) =
      .error (.unsupportedGroupItem (String.ofList (word ++ (gap ++ c :: Text.trimEnd t)))) := by
  rw [Query.readGroupItem, led.trim, led.isName_eq_false, if_neg Bool.false_ne_true]

/-- Between the function of a call and its parenthesis stand blanks only. -/
theorem read?_eq_none (led : IsLed word gap c more) (other : c ≠ '(') (t : List Char) :
    Aggregate.Call.read? (word ++ (gap ++ c :: t)) = none := by
  obtain ⟨d, gap, rfl⟩ := List.exists_cons_of_ne_nil led.gapped
  have stop : Text.Stops Text.isWord (d :: gap ++ c :: Text.trimEnd t) :=
    (Text.stops_cons ..).mpr (Text.isWord_of_isBlank (led.blank d List.mem_cons_self))
  have ahead : Text.trimStart (d :: gap ++ c :: Text.trimEnd t) = c :: Text.trimEnd t :=
    Text.dropWhile_run led.blank ((Text.stops_cons ..).mpr led.solid)
  have none : Aggregate.Call.readPrefix? (word ++ (d :: gap ++ c :: Text.trimEnd t)) = none := by
    rw [Aggregate.Call.readPrefix?, Text.takeWord, Text.dropWord, Text.takeWhile_run led.inside stop,
      Text.dropWhile_run led.inside stop, ahead, Option.bind_eq_none_iff]
    intro function _
    split
    next same => exact absurd (List.cons.inj same).1 other
    · rfl
  rw [Aggregate.Call.read?, led.trim, none]

/-- A word with a numeral behind it is no order item: no direction parts them. -/
theorem readOrderItem (led : IsLed word [' '] c more) (numeral : isNumeral c = true) (items : List SelectItem)
    (t : List Char) : ∃ e, OrderItem.readLetters items (word ++ ([' '] ++ c :: t)) = .error e := by
  obtain ⟨d, front, same⟩ := List.exists_cons_of_ne_nil led.nonempty
  subst same
  have bracket : c ≠ '(' := by
    rintro rfl
    exact absurd numeral (by decide)
  have solid : ∀ e ∈ front, Text.isBlank e = false := fun e member =>
    Text.isBlank_of_isWord (led.inside e (List.mem_cons_of_mem d member))
  have quiet : Text.Quiet OrderItem.directionOf? (front ++ [' ', c]) (Text.trimEnd t) := by
    rw [Text.quiet_append]
    exact ⟨Text.quiet_of_solid OrderItem.directionOf?_of_solid solid _, OrderItem.directionOf?_numeral numeral _,
      OrderItem.directionOf?_of_solid c _ led.solid, trivial⟩
  rw [OrderItem.readLetters, led.trim, OrderItem.splitDirection?_eq]
  dsimp only
  split
  · exact ⟨_, rfl⟩
  next body ascending split =>
    have shape : d :: front ++ ([' '] ++ c :: Text.trimEnd t) = d :: (front ++ [' ', c] ++ Text.trimEnd t) := by simp
    rw [shape] at split
    obtain ⟨back, same⟩ := Text.splitBefore?_of_quiet quiet split
    have target : body = d :: front ++ ([' '] ++ c :: back) := by simp [same]
    rw [target, led.trim, led.isName_eq_false, if_neg Bool.false_ne_true, led.read?_eq_none bracket]
    exact ⟨_, rfl⟩

end IsLed

section

variable {clause : Clause} (member : clause ∈ sequence) {words : List Char} (spelled : clause.Spells words)

include member spelled

/-- The word of a clause that has one, in front of its body. -/
theorem isLed_of_spells (one : .by ∉ clause.phrase.tail) {c : Char} {more : List Char}
    (solid : Text.isBlank c = false) (mark : c ≠ ',' ∧ c ≠ ';')
    (apart : ∀ other ∈ sequence, (other.words? (c :: more)).isSome = false) : IsLed words [' '] c more := by
  obtain ⟨word, rest, rfl, nonempty, inside, rfl | ⟨two, _⟩⟩ := spelled.exists_word member
  · rw [List.append_nil]
    exact ⟨nonempty, inside, by simp, by decide, solid, mark, apart⟩
  · exact absurd (by simp [two]) one

/-- The words of a clause in front of its body are a word, blanks, and more text. -/
theorem StartsBody.exists_led {tail : List Char} (starts : StartsBody tail) :
    ∃ word gap c more, words ++ tail = word ++ (gap ++ c :: more) ∧ IsLed word gap c more := by
  obtain ⟨solid, mark, apart⟩ := starts
  next d body =>
  obtain ⟨word, rest, rfl, nonempty, inside, rfl | ⟨_, gap, second, rfl, gapped, blank, skip⟩⟩ :=
    spelled.exists_word member
  · exact ⟨word, [' '], d, body, by simp, nonempty, inside, by simp, by decide, solid, mark, apart⟩
  · obtain ⟨by', same, _, inside'⟩ := Text.exists_word_of_skipLetters? (Text.isCapital_letters .by) skip
    rw [List.append_nil] at same
    subst same
    cases second with
    | nil => cases skip
    | cons c second =>
      have first : Text.isWord c = true := inside' c List.mem_cons_self
      have other {e : Char} (mark : Text.isWord e = false) : c ≠ e := by
        rintro rfl
        rw [first] at mark
        cases mark
      refine ⟨word, gap, c, second ++ ' ' :: d :: body, by simp, nonempty, inside, gapped, blank,
        Text.isBlank_of_isWord first, ⟨other (by decide), other (by decide)⟩, fun clause' found => ?_⟩
      exact words?_of_by found skip _

/-- No clause starts as a numeral. -/
theorem Spells.exists_letter : ∃ c rest, words = c :: rest ∧ isNumeral c = false ∧ c ≠ ';' := by
  have letters : ∀ clause ∈ sequence, ∀ first ∈ clause.phrase.head?, first.letters ≠ [] ∧
      first.letters.head? ≠ some 'E' := by
    decide
  obtain ⟨first, starts, rest, skip, _⟩ := spelled.exists_first member
  obtain ⟨nonempty, head⟩ := letters clause member first starts
  obtain ⟨k, ks, same⟩ := List.exists_cons_of_ne_nil nonempty
  have capital : Text.IsCapital k := Text.isCapital_letters first k (by simp [same])
  have other : k ≠ 'E' := by simpa [same] using head
  rw [Text.skipKeyword?, same] at skip
  cases words with
  | nil => cases skip
  | cons c words =>
    rw [Text.skipLetters?] at skip
    split at skip
    next letter =>
      have word : Text.isWord c = true := Text.isWord_of_sameLetter capital letter
      refine ⟨c, words, rfl, Bool.eq_false_iff.mpr fun numeral => ?_, ?_⟩
      · rw [Literal.sameLetter_of_isNumeral capital numeral other] at letter
        cases letter
      · rintro rfl
        exact absurd word (by decide)
    · cases skip

end

section

variable {bare : Clause} (member : bare ∈ sequence) {front words : List Char} (fresh : bare.occursIn front = false)
  (spelled : bare.Spells words) {next : Clause} (follows : next ∈ bare.followers) {nextWords tail : List Char}
  (spelled' : next.Spells nextWords)

include member fresh spelled follows spelled'

variable (tail) in
/-- The words of the next clause are taken for the body of a clause that has none. -/
theorem findWord?_followed : Text.findWord? bare.opening? false
    (front ++ ' ' :: (words ++ ' ' :: (nextWords ++ tail))) = some (nextWords ++ tail) := by
  obtain ⟨member', _⟩ := followers_subset bare member next follows
  have opened := spelled.opening? member (spelled'.stops member' tail) fun _ => spelled'.skipKeyword?_by member' tail
  exact findWord?_spelled member (seeks_opening bare) fresh spelled opened

/-- A condition that is missing is replaced by the next clause. -/
theorem readCondition_followed (starts : StartsBody tail) : ∃ condition, Query.readCondition bare
    (front ++ ' ' :: (words ++ ' ' :: (nextWords ++ tail))) = .ok (some condition) := by
  obtain ⟨member', _⟩ := followers_subset bare member next follows
  have found := findWord?_followed member fresh spelled follows tail spelled'
  obtain ⟨word, gap, c, more, same, led⟩ := starts.exists_led member' spelled'
  rw [same] at found ⊢
  obtain ⟨body, field, fields, found, nonempty, _⟩ := led.exists_body found
  refine ⟨WrittenCondition.read body, ?_⟩
  rw [Query.readCondition, found]
  split
  next absent => cases absent
  next empty => exact absurd (Option.some.inj empty) nonempty
  next body' same =>
    cases same
    rfl

end

end Clause

namespace Query

open Clause (StartsBody)

theorem readCount_of_word {clause : Clause} {text word : List Char} {c : Char} (other : isNumeral c = false)
    (found : clause.word? text = some (c :: word)) :
    readCount clause text = .error (.invalidCount clause (String.ofList (c :: word))) := by
  rw [readCount, found]
  dsimp only
  rw [readNat?_eq_none other]
  rfl

/-- Only counts are written behind an ordering. -/
theorem order_followers : ∀ next ∈ Clause.order.followers,
    (next = .limit ∨ next = .offset) ∧ .by ∉ next.phrase.tail := by
  decide

section

variable {bare next : Clause} (follows : next ∈ bare.followers) {front words nextWords tail : List Char}
  (fresh : bare.occursIn front = false) (spelled : bare.Spells words) (spelled' : next.Spells nextWords)

include follows fresh spelled spelled'

/-- The next clause is no group column. -/
theorem readGroupBy_followed (group : bare = .group) (starts : StartsBody tail) :
    ∃ e, readGroupBy (front ++ ' ' :: (words ++ ' ' :: (nextWords ++ tail))) = .error e := by
  subst group
  obtain ⟨member', _⟩ := Clause.followers_subset .group (by decide) next follows
  have found := Clause.findWord?_followed (by decide) fresh spelled follows tail spelled'
  obtain ⟨word, gap, c, more, same, led⟩ := starts.exists_led member' spelled'
  rw [same] at found ⊢
  obtain ⟨body, field, fields, found, _, split⟩ := led.exists_body found
  rw [readGroupBy, found]
  dsimp only
  rw [split, List.mapM_cons, led.readGroupItem]
  exact ⟨_, rfl⟩

/-- The next clause is no count. -/
theorem readCount_followed (limit : bare = .limit) :
    ∃ e, readCount .limit (front ++ ' ' :: (words ++ ' ' :: (nextWords ++ tail))) = .error e := by
  subst limit
  obtain ⟨member', _⟩ := Clause.followers_subset .limit (by decide) next follows
  have opened := spelled.opening? (by decide) (spelled'.stops member' tail) fun _ => spelled'.skipKeyword?_by member' tail
  obtain ⟨c, nextWords, rfl, other, mark⟩ := spelled'.exists_letter member'
  have solid : Text.isBlank c = false := (Text.stops_cons ..).mp (spelled'.stops member' [])
  obtain ⟨word, found⟩ := Clause.exists_word? (by decide) fresh spelled opened solid mark
  exact ⟨_, readCount_of_word other found⟩

/-- The next clause with its count is no order item, and without one it is refused itself. -/
theorem readOrderBy_followed (order : bare = .order) (fresh' : next.occursIn front = false)
    (starts : StartsBody tail) (items : List SelectItem) :
    (∃ e, readOrderBy items (front ++ ' ' :: (words ++ ' ' :: (nextWords ++ tail))) = .error e) ∨
      ∃ e, readCount next (front ++ ' ' :: (words ++ ' ' :: (nextWords ++ tail))) = .error e := by
  subst order
  obtain ⟨member', apart⟩ := Clause.followers_subset .order (by decide) next follows
  have one := (order_followers next follows).2
  obtain ⟨solid, mark, begins⟩ := starts
  next c more =>
  cases numeral : isNumeral c with
  | true =>
    left
    have found := Clause.findWord?_followed (by decide) fresh spelled follows (' ' :: c :: more) spelled'
    have led := Clause.isLed_of_spells member' spelled' one solid mark begins
    have shape : nextWords ++ ' ' :: c :: more = nextWords ++ ([' '] ++ c :: more) := rfl
    rw [shape] at found ⊢
    obtain ⟨body, field, fields, found, _, split⟩ := led.exists_body found
    obtain ⟨e, bad⟩ := led.readOrderItem numeral items field
    rw [readOrderBy, found]
    dsimp only
    rw [split, List.mapM_cons, bad]
    exact ⟨e, rfl⟩
  | false =>
    right
    have here : next.occursIn (front ++ ' ' :: words) = false := by
      have start := spelled.stops (by decide) []
      have by' := spelled.skipKeyword?_by (by decide) []
      have other := spelled.words?_other (by decide) member' apart []
      rw [List.append_nil] at start by' other
      have seeks : Text.Seeks next.words? next.words? := fun _ => id
      rw [Clause.occursIn, Clause.findWord?_behind member' seeks fresh' start by',
        Clause.findWord?_of_spells member' seeks (by decide) spelled, other]
    have opened := spelled'.opening? member' (s := c :: more) ((Text.stops_cons ..).mpr solid) (absurd · one)
    obtain ⟨word, found⟩ := Clause.exists_word? member' here spelled' opened solid mark.2
    have shape : front ++ ' ' :: (words ++ ' ' :: (nextWords ++ ' ' :: c :: more)) =
        front ++ ' ' :: words ++ ' ' :: (nextWords ++ ' ' :: c :: more) := by simp
    rw [shape]
    exact ⟨_, readCount_of_word numeral found⟩

end

/-- A grouping, an ordering or a limit without a body is refused where the next clause and its body
follow it. -/
theorem read_bare_followed {maxLength : Nat} {text : String} {bare next : Clause}
    {front words nextWords tail : List Char} (listed : bare ∈ [Clause.group, Clause.order, Clause.limit])
    (follows : next ∈ bare.followers) (fresh : bare.occursIn front = false) (fresh' : next.occursIn front = false)
    (spelled : bare.Spells words) (spelled' : next.Spells nextWords) (starts : StartsBody tail)
    (written : Text.normalize text.toList = front ++ ' ' :: (words ++ ' ' :: (nextWords ++ tail))) :
    ∃ e, read maxLength text = .error e := by
  cases done : read maxLength text with
  | error e => exact ⟨e, rfl⟩
  | ok q =>
    have readers := isReadFrom_of_read done
    rw [written] at readers
    have refused {α : Type} {x : Except ReadError α} {a : α} (bad : ∃ e, x = .error e) (good : x = .ok a) : False := by
      obtain ⟨e, rfl⟩ := bad
      cases good
    simp only [List.mem_cons, List.not_mem_nil, or_false] at listed
    rcases listed with group | order | limit
    · exact (refused (readGroupBy_followed follows fresh spelled spelled' group starts) readers.groupBy).elim
    · rcases readOrderBy_followed follows fresh spelled spelled' order fresh' starts q.select with bad | bad
      · exact (refused bad readers.orderBy).elim
      · subst order
        obtain ⟨offset, skipped, _⟩ := readers.offset
        rcases (order_followers next follows).1 with rfl | rfl
        · exact (refused bad readers.limit).elim
        · exact (refused bad skipped).elim
    · exact (refused (readCount_followed follows fresh spelled spelled' limit) readers.limit).elim

/-- A grouping without columns in front of HAVING. -/
theorem read_bare_followed_having :
    let front := "SELECT a FROM t WHERE a = 1".toList
    let words := "group by".toList
    let nextWords := "Having".toList
    let tail := " COUNT(*) > 1 LIMIT 5".toList
    let text := "SELECT a FROM t WHERE a = 1 group by Having COUNT(*) > 1 LIMIT 5"
    Clause.having ∈ Clause.group.followers ∧ Clause.group.occursIn front = false ∧
      Clause.having.occursIn front = false ∧ Clause.group.Spells words ∧ Clause.having.Spells nextWords ∧
      StartsBody tail ∧ Text.normalize text.toList = front ++ ' ' :: (words ++ ' ' :: (nextWords ++ tail)) ∧
      ∃ e, read 5000 text = .error e := by
  intro front words nextWords tail text
  have follows : Clause.having ∈ Clause.group.followers := by decide
  have fresh : Clause.group.occursIn front = false := by decide +kernel
  have fresh' : Clause.having.occursIn front = false := by decide +kernel
  have spelled : Clause.group.Spells words := by decide +kernel
  have spelled' : Clause.having.Spells nextWords := by decide +kernel
  have starts : StartsBody tail := .body (by decide) (by decide) (by decide +kernel)
  have written : Text.normalize text.toList = front ++ ' ' :: (words ++ ' ' :: (nextWords ++ tail)) := by
    decide +kernel
  exact ⟨follows, fresh, fresh', spelled, spelled', starts, written,
    read_bare_followed (by decide) follows fresh fresh' spelled spelled' starts written⟩

/-- At the end of a text each clause may lack its body, and a condition in front of another clause. -/
theorem read_bare_ne_error :
    (∀ text ∈ ["SELECT * FROM t WHERE", "SELECT * FROM t GROUP BY", "SELECT * FROM t HAVING",
        "SELECT * FROM t ORDER BY", "SELECT * FROM t LIMIT", "SELECT * FROM t OFFSET"],
      (read 5000 text).toOption.any (fun q => q.filter.isNone && q.groupBy.isEmpty && q.having.isNone &&
        q.orderBy.isEmpty && q.limit.isNone && q.offset == 0) = true) ∧
    ∀ text ∈ ["SELECT * FROM t WHERE GROUP BY a", "SELECT * FROM t GROUP BY a HAVING LIMIT 5"],
      (read 5000 text).toOption.isSome = true := by
  decide +kernel

end Query
end RecordQuery
