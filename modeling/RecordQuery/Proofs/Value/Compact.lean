import RecordQuery.Proofs.Number.Notation
import RecordQuery.Value.Compact

/-! The compact notation tells values apart. Where a value ends can be seen from the
notation itself, so that two values followed by anything that continues no number are equal
when their texts are. -/
namespace RecordQuery.Value

def hexValue (c : Char) : Nat := if c.isDigit then c.toNat - '0'.toNat else c.toNat - 'a'.toNat + 10

/-- What an escaped character stands for, and what follows it. A quote ends the text. -/
def unescape? : List Char → Option (Char × List Char)
  | '"' :: _ => none
  | '\\' :: '"' :: rest => some ('"', rest)
  | '\\' :: '\\' :: rest => some ('\\', rest)
  | '\\' :: 'b' :: rest => some ('\x08', rest)
  | '\\' :: 'f' :: rest => some ('\x0C', rest)
  | '\\' :: 'n' :: rest => some ('\n', rest)
  | '\\' :: 'r' :: rest => some ('\r', rest)
  | '\\' :: 't' :: rest => some ('\t', rest)
  | '\\' :: 'u' :: '0' :: '0' :: high :: low :: rest =>
    some (Char.ofNat (16 * hexValue high + hexValue low), rest)
  | c :: rest => some (c, rest)
  | [] => none

theorem hexValue_digits :
    ∀ n < 0x20, 16 * hexValue (Nat.digitChar (n / 16)) + hexValue (Nat.digitChar (n % 16)) = n := by
  decide

theorem unescape?_of_plain {c : Char} (quote : c ≠ '"') (backslash : c ≠ '\\') (rest : List Char) :
    unescape? (c :: rest) = some (c, rest) := by
  unfold unescape?
  split <;> simp_all

theorem unescape?_escape (c : Char) (rest : List Char) : unescape? (escape c ++ rest) = some (c, rest) := by
  unfold escape
  repeat' split
  next same => rw [same]; rfl
  next same => rw [same]; rfl
  next same => rw [same]; rfl
  next same => rw [same]; rfl
  next same => rw [same]; rfl
  next same => rw [same]; rfl
  next same => rw [same]; rfl
  next control =>
    show some (Char.ofNat _, rest) = _
    rw [hexValue_digits c.toNat control, Char.ofNat_toNat]
  next quote backslash _ _ _ _ _ _ => exact unescape?_of_plain quote backslash rest

/-- Escaped characters up to a quote are those of the text. -/
theorem flatMap_escape_inj {as bs : List Char} {s t : List Char}
    (same : as.flatMap escape ++ '"' :: s = bs.flatMap escape ++ '"' :: t) : as = bs ∧ s = t := by
  induction as generalizing bs with
  | nil =>
    cases bs with
    | nil => exact ⟨rfl, (List.cons.inj same).2⟩
    | cons b bs =>
      have read := congrArg unescape? same
      rw [List.flatMap_cons, List.append_assoc, unescape?_escape] at read
      cases read
  | cons a as ih =>
    have read := congrArg unescape? same
    rw [List.flatMap_cons, List.append_assoc, unescape?_escape] at read
    cases bs with
    | nil => cases read
    | cons b bs =>
      rw [List.flatMap_cons, List.append_assoc, unescape?_escape] at read
      simp only [Option.some.injEq, Prod.mk.injEq] at read
      obtain ⟨rfl, rest⟩ := ih read.2
      exact ⟨by rw [read.1], rest⟩

theorem quoted_append (a : String) (s : List Char) :
    quoted a ++ s = '"' :: (a.toList.flatMap escape ++ '"' :: s) := by
  simp [quoted]

theorem quoted_append_inj {a b : String} {s t : List Char} (same : quoted a ++ s = quoted b ++ t) :
    a = b ∧ s = t := by
  rw [quoted_append, quoted_append] at same
  obtain ⟨lists, rest⟩ := flatMap_escape_inj (List.cons.inj same).2
  exact ⟨String.toList_inj.mp lists, rest⟩

theorem number_append_inj {a b : Number} {s t : List Char} (stop : Text.Stops isNumeral s)
    (stop' : Text.Stops isNumeral t) (same : a.text ++ s = b.text ++ t) : a = b ∧ s = t := by
  have texts := congrArg (List.takeWhile isNumeral) same
  have rests := congrArg (List.dropWhile isNumeral) same
  rw [Text.takeWhile_run a.isNumeral_text stop, Text.takeWhile_run b.isNumeral_text stop'] at texts
  rw [Text.dropWhile_run a.isNumeral_text stop, Text.dropWhile_run b.isNumeral_text stop'] at rests
  exact ⟨Number.text_injective texts, rests⟩

/-- What the first character says about a value, 7 being no value at all. -/
def kindOf (c : Char) : Nat :=
  if c = 'n' then 0 else if c = 't' then 1 else if c = 'f' then 2 else if c = '"' then 3
  else if c = '[' then 4 else if c = '\x7b' then 5 else if isNumeral c then 6 else 7

def kind : Value → Nat
  | null => 0
  | bool true => 1
  | bool false => 2
  | text _ => 3
  | list _ => 4
  | object _ => 5
  | number _ => 6

theorem kindOf_of_isNumeral {c : Char} (numeral : isNumeral c = true) : kindOf c = 6 := by
  have other {d : Char} (plain : isNumeral d = false) : c ≠ d := by
    rintro rfl
    rw [numeral] at plain
    cases plain
  simp [kindOf, numeral, other (show isNumeral 'n' = false by decide),
    other (show isNumeral 't' = false by decide), other (show isNumeral 'f' = false by decide),
    other (show isNumeral '"' = false by decide), other (show isNumeral '[' = false by decide),
    other (show isNumeral '\x7b' = false by decide)]

theorem head_compact (v : Value) (s : List Char) :
    ∃ c rest, v.compact ++ s = c :: rest ∧ kindOf c = v.kind := by
  cases v with
  | null => exact ⟨_, _, rfl, rfl⟩
  | bool b => cases b <;> exact ⟨_, _, rfl, rfl⟩
  | text a => exact ⟨_, _, quoted_append a s, rfl⟩
  | list items => exact ⟨_, _, rfl, rfl⟩
  | object fields => exact ⟨_, _, rfl, rfl⟩
  | number n =>
    obtain ⟨c, rest, same⟩ := List.exists_cons_of_ne_nil n.text_ne_nil
    refine ⟨c, rest ++ s, ?_, kindOf_of_isNumeral (n.isNumeral_text c (by simp [same]))⟩
    show n.text ++ s = _
    rw [same]
    rfl

theorem kind_eq_of_compact {a b : Value} {s t : List Char} (same : a.compact ++ s = b.compact ++ t) :
    a.kind = b.kind := by
  obtain ⟨c, _, left, kind⟩ := head_compact a s
  obtain ⟨d, _, right, kind'⟩ := head_compact b t
  rw [left, right] at same
  rw [← kind, ← kind', (List.cons.inj same).1]

/-- No value is empty, and none starts with a closing bracket. -/
theorem compact_append_ne_close (v : Value) {c : Char} (close : kindOf c = 7) (s t : List Char) :
    c :: t ≠ v.compact ++ s := by
  obtain ⟨d, rest, same, kind⟩ := head_compact v s
  rw [same]
  rintro ⟨⟩
  rw [close] at kind
  cases v with
  | bool b => cases b <;> cases kind
  | _ => cases kind

/-- What follows the first of some members: a comma and the others, or the closing bracket. -/
def afterFirst (others : List α) (close : Char) (text s : List Char) : List Char :=
  if others.isEmpty then close :: s else ',' :: (text ++ close :: s)

theorem stops_afterFirst {others : List α} {close : Char} (plain : isNumeral close = false)
    (text s : List Char) : Text.Stops isNumeral (afterFirst others close text s) := by
  unfold afterFirst
  split
  · simpa using plain
  · simp [isNumeral]

theorem afterFirst_inj {as bs : List α} {close : Char} {text text' s t : List Char}
    (comma : close ≠ ',') (same : afterFirst as close text s = afterFirst bs close text' t)
    (later : text ++ close :: s = text' ++ close :: t → as = bs ∧ s = t) : as = bs ∧ s = t := by
  unfold afterFirst at same
  split at same
  next empty =>
    split at same
    next empty' =>
      rw [List.isEmpty_iff.mp empty, List.isEmpty_iff.mp empty']
      exact ⟨rfl, (List.cons.inj same).2⟩
    · exact absurd (List.cons.inj same).1 comma
  · split at same
    · exact absurd (List.cons.inj same).1.symm comma
    · exact later (List.cons.inj same).2

theorem compactItems_cons_append (a : Value) (as : List Value) (s : List Char) :
    compactItems (a :: as) ++ ']' :: s = a.compact ++ afterFirst as ']' (compactItems as) s := by
  cases as with
  | nil => rfl
  | cons b as => simp [compactItems, afterFirst]

theorem compactFields_cons_append (key : String) (a : Value) (as : List (String × Value))
    (s : List Char) : compactFields ((key, a) :: as) ++ '\x7d' :: s =
      quoted key ++ ':' :: (a.compact ++ afterFirst as '\x7d' (compactFields as) s) := by
  cases as with
  | nil => simp [compactFields, afterFirst]
  | cons b as => simp [compactFields, afterFirst]

mutual

/-- A value and what follows it can be told from the text, unless a number goes on. -/
theorem compact_append_inj : ∀ (a b : Value) {s t : List Char}, Text.Stops isNumeral s →
    Text.Stops isNumeral t → a.compact ++ s = b.compact ++ t → a = b ∧ s = t
  | null, b, s, t, _, _, same => by
    have kinds := kind_eq_of_compact same
    cases b with
    | null => exact ⟨rfl, List.append_cancel_left same⟩
    | bool b => cases b <;> cases kinds
    | _ => cases kinds
  | bool a, b, s, t, _, _, same => by
    have kinds := kind_eq_of_compact same
    cases b with
    | bool b =>
      obtain rfl : a = b := by cases a <;> cases b <;> first | rfl | cases kinds
      exact ⟨rfl, List.append_cancel_left same⟩
    | _ => cases a <;> cases kinds
  | number a, b, s, t, stop, stop', same => by
    have kinds := kind_eq_of_compact same
    cases b with
    | number b =>
      obtain ⟨rfl, rest⟩ := number_append_inj stop stop' same
      exact ⟨rfl, rest⟩
    | bool b => cases b <;> cases kinds
    | _ => cases kinds
  | text a, b, s, t, _, _, same => by
    have kinds := kind_eq_of_compact same
    cases b with
    | text b =>
      obtain ⟨rfl, rest⟩ := quoted_append_inj same
      exact ⟨rfl, rest⟩
    | bool b => cases b <;> cases kinds
    | _ => cases kinds
  | list as, b, s, t, _, _, same => by
    have kinds := kind_eq_of_compact same
    cases b with
    | list bs =>
      have items : compactItems as ++ ']' :: s = compactItems bs ++ ']' :: t := by
        simpa [compact] using same
      obtain ⟨rfl, rest⟩ := compactItems_append_inj as bs items
      exact ⟨rfl, rest⟩
    | bool b => cases b <;> cases kinds
    | _ => cases kinds
  | object as, b, s, t, _, _, same => by
    have kinds := kind_eq_of_compact same
    cases b with
    | object bs =>
      have fields : compactFields as ++ '\x7d' :: s = compactFields bs ++ '\x7d' :: t := by
        simpa [compact] using same
      obtain ⟨rfl, rest⟩ := compactFields_append_inj as bs fields
      exact ⟨rfl, rest⟩
    | bool b => cases b <;> cases kinds
    | _ => cases kinds

theorem compactItems_append_inj : ∀ (as bs : List Value) {s t : List Char},
    compactItems as ++ ']' :: s = compactItems bs ++ ']' :: t → as = bs ∧ s = t
  | [], [], _, _, same => ⟨rfl, (List.cons.inj same).2⟩
  | [], b :: bs, s, t, same => by
    rw [compactItems_cons_append] at same
    exact absurd same (compact_append_ne_close b (by decide) _ _)
  | a :: as, [], s, t, same => by
    rw [compactItems_cons_append] at same
    exact absurd same.symm (compact_append_ne_close a (by decide) _ _)
  | a :: as, b :: bs, s, t, same => by
    rw [compactItems_cons_append, compactItems_cons_append] at same
    obtain ⟨rfl, others⟩ := compact_append_inj a b (stops_afterFirst (by decide) _ _)
      (stops_afterFirst (by decide) _ _) same
    obtain ⟨rfl, after⟩ := afterFirst_inj (by decide) others (compactItems_append_inj as bs)
    exact ⟨rfl, after⟩

theorem compactFields_append_inj : ∀ (as bs : List (String × Value)) {s t : List Char},
    compactFields as ++ '\x7d' :: s = compactFields bs ++ '\x7d' :: t → as = bs ∧ s = t
  | [], [], _, _, same => ⟨rfl, (List.cons.inj same).2⟩
  | [], (key, b) :: bs, s, t, same => by
    rw [compactFields_cons_append, quoted_append] at same
    cases (List.cons.inj same).1
  | (key, a) :: as, [], s, t, same => by
    rw [compactFields_cons_append, quoted_append] at same
    cases (List.cons.inj same).1
  | (key, a) :: as, (key', b) :: bs, s, t, same => by
    rw [compactFields_cons_append, compactFields_cons_append] at same
    obtain ⟨rfl, value⟩ := quoted_append_inj same
    obtain ⟨rfl, others⟩ := compact_append_inj a b (stops_afterFirst (by decide) _ _)
      (stops_afterFirst (by decide) _ _) (List.cons.inj value).2
    obtain ⟨rfl, after⟩ := afterFirst_inj (by decide) others (compactFields_append_inj as bs)
    exact ⟨rfl, after⟩

end

theorem compactText_inj {a b : Value} : a.compactText = b.compactText ↔ a = b := by
  constructor
  · intro same
    have texts : a.compact ++ [] = b.compact ++ [] := by
      rw [List.append_nil, List.append_nil]
      exact String.ofList_inj.mp same
    exact (compact_append_inj a b (Text.stops_nil _) (Text.stops_nil _) texts).1
  · rintro rfl
    rfl

end RecordQuery.Value
