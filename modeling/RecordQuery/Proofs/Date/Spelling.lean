import RecordQuery.Date.Part
import RecordQuery.Proofs.Date.Calendar
import RecordQuery.Proofs.Number.Notation
import RecordQuery.Proofs.Text.Undivided

/-! Dates in writing. A date may stand alone or have a time behind it in one of several forms. The
readers are tried in turn, and of all of them only those that are meant for a form take it, so that
every form gives the date that is written, or none where the calendar has no such day. -/
namespace RecordQuery

/-- A time of day. There are no leap seconds. -/
structure Time where
  hour : Nat
  minute : Nat
  second : Nat
  deriving DecidableEq, Repr

namespace Time

def IsValid (t : Time) : Prop := t.hour ≤ 23 ∧ t.minute ≤ 59 ∧ t.second ≤ 59

instance (t : Time) : Decidable t.IsValid := inferInstanceAs (Decidable (_ ∧ _))

def letters (t : Time) : List Char :=
  Date.twoDigits t.hour ++ ':' :: Date.twoDigits t.minute ++ ':' :: Date.twoDigits t.second

theorem IsValid.isTime {t : Time} (valid : t.IsValid) : Date.IsTime t.hour t.minute t.second :=
  ⟨valid.1, valid.2.1, Nat.le_succ_of_le valid.2.2⟩

/-- Two digits are enough for the numbers of a time. -/
theorem IsValid.le_99 {t : Time} (valid : t.IsValid) : t.hour ≤ 99 ∧ t.minute ≤ 99 ∧ t.second ≤ 99 := by
  obtain ⟨hour, minute, second⟩ := valid
  omega

end Time

/-- What may follow the digits of a date. -/
inductive TimeForm where
  | absent
  | spaced (time : Time)
  | joined (time : Time)
  | fraction (time : Time) (digits : List Char)
  | zulu (time : Time)

namespace TimeForm

def letters : TimeForm → List Char
  | absent => []
  | spaced time => ' ' :: time.letters
  | joined time => 'T' :: time.letters
  | fraction time digits => 'T' :: time.letters ++ '.' :: digits
  | zulu time => 'T' :: time.letters ++ ['Z']

def IsValid : TimeForm → Prop
  | absent => True
  | spaced time | joined time | zulu time => time.IsValid
  | fraction time digits => time.IsValid ∧ digits ≠ [] ∧ AllDigits digits

instance : (form : TimeForm) → Decidable form.IsValid
  | absent => isTrue trivial
  | spaced time | joined time | zulu time => inferInstanceAs (Decidable time.IsValid)
  | fraction time digits =>
    inferInstanceAs (Decidable (time.IsValid ∧ digits ≠ [] ∧ ∀ c ∈ digits, c.isDigit = true))

end TimeForm

namespace Date

/-! Numbers of fixed width. -/

def fourDigits (n : Nat) : List Char := twoDigits (n / 100) ++ twoDigits (n % 100)

theorem allDigits_twoDigits (n : Nat) : AllDigits (twoDigits n) := by
  have digit (m : Nat) : (Nat.digitChar (m % 10)).isDigit = true := by
    rw [Nat.isDigit_digitChar]
    exact decide_eq_true (Nat.mod_lt m (by decide))
  intro c member
  simp only [twoDigits, List.mem_cons, List.not_mem_nil, or_false] at member
  rcases member with rfl | rfl <;> exact digit _

theorem ofDigitChars_twoDigits {n : Nat} (small : n ≤ 99) (init : Nat) :
    Nat.ofDigitChars 10 (twoDigits n) init = 100 * init + n := by
  have digit (m : Nat) : m % 10 < 10 := Nat.mod_lt m (by decide)
  rw [twoDigits, Nat.ofDigitChars_cons_digitChar_of_lt_ten (digit _),
    Nat.ofDigitChars_cons_digitChar_of_lt_ten (digit _), Nat.ofDigitChars_nil]
  omega

theorem allDigits_fourDigits (n : Nat) : AllDigits (fourDigits n) :=
  (allDigits_twoDigits _).append (allDigits_twoDigits _)

theorem ofDigitChars_fourDigits {n : Nat} (small : n ≤ 9999) : Nat.ofDigitChars 10 (fourDigits n) 0 = n := by
  rw [fourDigits, Nat.ofDigitChars_append, ofDigitChars_twoDigits (by omega), ofDigitChars_twoDigits (by omega)]
  omega

/-- A number ends with its last digit, also where more digits follow. -/
theorem readNumber?_append {least : Nat} {digits : List Char} (all : AllDigits digits)
    (enough : least ≤ digits.length) (rest : List Char) :
    readNumber? least digits.length (digits ++ rest) = some (Nat.ofDigitChars 10 digits 0, rest) := by
  have taken : ((digits ++ rest).take digits.length).takeWhile Char.isDigit = digits := by
    rw [List.take_left]
    simpa using Text.takeWhile_run all (Text.stops_nil _)
  rw [readNumber?, taken, if_neg (Nat.not_lt.mpr enough), List.drop_left]

theorem readNumber?_twoDigits {least : Nat} (enough : least ≤ 2) {n : Nat} (small : n ≤ 99) (rest : List Char) :
    readNumber? least 2 (twoDigits n ++ rest) = some (n, rest) := by
  have read : readNumber? least 2 (twoDigits n ++ rest) = _ := readNumber?_append (allDigits_twoDigits n) enough rest
  rw [read, ofDigitChars_twoDigits small, Nat.mul_zero, Nat.zero_add]

theorem readNumber?_fourDigits {least : Nat} (enough : least ≤ 4) {n : Nat} (small : n ≤ 9999) (rest : List Char) :
    readNumber? least 4 (fourDigits n ++ rest) = some (n, rest) := by
  have read : readNumber? least 4 (fourDigits n ++ rest) = _ := readNumber?_append (allDigits_fourDigits n) enough rest
  rw [read, ofDigitChars_fourDigits small]

theorem isBlank_of_isDigit {c : Char} (digit : c.isDigit = true) : Text.isBlank c = false :=
  Text.isBlank_of_isWord (Text.isWord_of_isAlphanum c (by simp [Char.isAlphanum, digit]))

theorem solid_of_allDigits {digits : List Char} (all : AllDigits digits) :
    ∀ c ∈ digits, Text.isBlank c = false :=
  fun c member => isBlank_of_isDigit (all c member)

theorem readField?_twoDigits {n : Nat} (small : n ≤ 99) (rest : List Char) :
    readField? (twoDigits n ++ rest) = some (n, rest) := by
  have first : Text.trimStart (twoDigits n ++ rest) = twoDigits n ++ rest :=
    Text.trimStart_solid (solid_of_allDigits (allDigits_twoDigits n) _ List.mem_cons_self) _
  rw [readField?, first, readNumber?_twoDigits (by decide) small]

/-- Four digits are a year without a sign. -/
theorem readYear?_fourDigits {n : Nat} (small : n ≤ 9999) (rest : List Char) :
    readYear? (fourDigits n ++ rest) = some ((n : Int), rest) := by
  have digit := allDigits_fourDigits n _ List.mem_cons_self
  have first : Text.trimStart (fourDigits n ++ rest) = fourDigits n ++ rest :=
    Text.trimStart_solid (solid_of_allDigits (allDigits_fourDigits n) _ List.mem_cons_self) _
  rw [readYear?, first]
  split
  next sign =>
    rw [(List.cons.inj sign).1] at digit
    cases digit
  next sign =>
    rw [(List.cons.inj sign).1] at digit
    cases digit
  next => rw [readNumber?_fourDigits (by decide) small, Option.map_some]

/-- A fraction ends with the text when it is made of digits only. -/
theorem skipFraction?_digits {digits : List Char} (some : digits ≠ []) (all : AllDigits digits) :
    skipFraction? ('.' :: digits) = .some [] := by
  obtain ⟨c, digits, rfl⟩ := List.exists_cons_of_ne_nil some
  have first : c.isDigit = true := all c List.mem_cons_self
  have past : (c :: digits).dropWhile Char.isDigit = [] := by
    simpa using Text.dropWhile_run all (Text.stops_nil _)
  simp [skipFraction?, past, first]

/-- A text that ends in digits has a solid end. -/
theorem finish_of_digits {mark : Char} (solid : Text.isBlank mark = false) {digits : List Char}
    (all : AllDigits digits) (s : List Char) : Text.Stops Text.isBlank (s ++ mark :: digits).reverse :=
  Text.stops_reverse_append (List.cons_ne_nil mark digits)
    (Text.stops_reverse_of_forall (List.forall_mem_cons.mpr ⟨solid, solid_of_allDigits all⟩)) s

/-! Dates and times. -/

/-- The year in four digits, the month and the day in two. -/
def letters (d : Date) : List Char :=
  fourDigits d.year.toNat ++ '-' :: twoDigits d.month ++ '-' :: twoDigits d.day

/-- A written date starts with a digit and ends with one or with the zulu mark. -/
theorem trim_letters (d : Date) {form : TimeForm} (valid : form.IsValid) :
    Text.trim (d.letters ++ form.letters) = d.letters ++ form.letters := by
  have start : Text.Stops Text.isBlank d.letters :=
    (Text.stops_cons ..).mpr (isBlank_of_isDigit (allDigits_fourDigits _ _ List.mem_cons_self))
  refine Text.trim_eq_self (Text.stops_append (by simp [letters]) start _) ?_
  cases form with
  | absent =>
    rw [TimeForm.letters, List.append_nil]
    exact finish_of_digits (by decide) (allDigits_twoDigits d.day) _
  | spaced time | joined time =>
    refine Text.stops_reverse_append (List.cons_ne_nil _ _) ?_ _
    exact finish_of_digits (by decide) (allDigits_twoDigits time.second) (_ :: _)
  | fraction time digits =>
    refine Text.stops_reverse_append (List.cons_ne_nil _ _) ?_ _
    exact finish_of_digits (by decide) valid.2.2 (_ :: _)
  | zulu time =>
    refine Text.stops_reverse_append (List.cons_ne_nil _ _) ?_ _
    exact finish_of_digits (by decide : Text.isBlank 'Z' = false) (List.forall_mem_nil _) (_ :: _)

/-- The numbers of a date have no more digits than are written. -/
structure IsWritable (d : Date) : Prop where
  year_nonneg : 0 ≤ d.year
  year_le : d.year ≤ 9999
  month_le : d.month ≤ 99
  day_le : d.day ≤ 99

namespace IsWritable

variable {d : Date} (writable : d.IsWritable)

include writable

theorem yearInRange : YearInRange d.year := by
  obtain ⟨nonneg, year, _, _⟩ := writable
  exact ⟨by omega, by omega⟩

theorem toNat_year : ((d.year.toNat : Nat) : Int) = d.year := Int.toNat_of_nonneg writable.year_nonneg

theorem toNat_year_le : d.year.toNat ≤ 9999 := Int.toNat_le.mpr writable.year_le

end IsWritable

/-- What a written date stands for: nothing where there is no such day. -/
def named? (d : Date) : Option Date := ofFields? d.year d.month d.day

/-- A text is a date in one of the forms, perhaps with white space around it. -/
def IsWritten (d : Date) (text : String) : Prop :=
  ∃ form : TimeForm, form.IsValid ∧ ∃ front back : List Char,
    (∀ c ∈ front, Text.isBlank c = true) ∧ (∀ c ∈ back, Text.isBlank c = true) ∧
      text.toList = front ++ (d.letters ++ form.letters ++ back)

/-- A time of the day, in milliseconds after the start of 1970. -/
def IsInstant (d : Date) (milliseconds : Int) : Prop :=
  d.dayNumber * 86400000 ≤ milliseconds ∧ milliseconds < (d.dayNumber + 1) * 86400000

/-- The texts and the whole numbers that stand for a date. -/
inductive Spells (d : Date) : Value → Prop
  | text {s : String} : d.IsWritten s → Spells d (.text s)
  | instant {milliseconds : Int} {fits : IsWhole64 milliseconds} :
      d.IsInstant milliseconds → Spells d (.number (.whole milliseconds fits))

/-! What is written, read. -/

theorem skipTime?_letters {t : Time} (valid : t.IsValid) (rest : List Char) :
    skipTime? (t.letters ++ rest) = some rest := by
  obtain ⟨hour, minute, second⟩ := valid.le_99
  simp [skipTime?, Time.letters, readField?_twoDigits, Text.skipChar?, hour, minute, second, valid.isTime]

section

variable {d : Date} (writable : d.IsWritable)

include writable

theorem named?_of_isValid (valid : d.IsValid) : d.named? = some d := if_pos ⟨writable.yearInRange, valid⟩

theorem readDay?_letters (rest : List Char) : readDay? (d.letters ++ rest) = some (d.named?, rest) := by
  simp [readDay?, letters, readYear?_fourDigits, readField?_twoDigits, Text.skipChar?, named?,
    writable.toNat_year, writable.toNat_year_le, writable.month_le, writable.day_le]

theorem readDayOnly?_letters (rest : List Char) :
    readDayOnly? (d.letters ++ rest) = if rest.isEmpty then d.named? else none := by
  simp [readDayOnly?, readDay?_letters writable]

theorem readDayTime?_letters (skipGap? skipEnd? : List Char → Option (List Char)) (rest : List Char) :
    readDayTime? skipGap? skipEnd? (d.letters ++ rest) =
      (skipGap? rest).bind fun s => (skipTime? s).bind fun s => (skipEnd? s).bind fun s =>
        if s.isEmpty then d.named? else none := by
  simp [readDayTime?, readDay?_letters writable]

theorem readTimestamp?_letters : readTimestamp? d.letters = none := by
  have last := readNumber?_twoDigits (Nat.le_refl 2) writable.day_le []
  rw [List.append_nil] at last
  simp [readTimestamp?, letters, readNumber?_fourDigits, readNumber?_twoDigits, Text.skipChar?, last,
    writable.toNat_year_le, writable.month_le]

/-- The strict form takes a letter or a space before the time, and asks for an offset at the end. -/
theorem readTimestamp?_time {gap : Char} (mark : gap = 'T' ∨ gap = ' ') {t : Time} (valid : t.IsValid)
    (rest : List Char) : readTimestamp? (d.letters ++ gap :: (t.letters ++ rest)) =
      (skipFraction? rest).bind fun s => if isOffset s then d.named? else none := by
  obtain ⟨hour, minute, second⟩ := valid.le_99
  rcases mark with rfl | rfl <;>
    simp [readTimestamp?, letters, Time.letters, readNumber?_fourDigits, readNumber?_twoDigits, Text.skipChar?,
      named?, writable.toNat_year, writable.toNat_year_le, writable.month_le, writable.day_le, hour, minute,
      second, valid.isTime]

/-- Of the readers that take a form, the first decides, and there is one for every form. -/
theorem read?_of_trim {form : TimeForm} (valid : form.IsValid) {text : String}
    (written : Text.trim text.toList = d.letters ++ form.letters) : read? text = d.named? := by
  have nothing : skipTime? [] = none := rfl
  have joint (rest : List Char) : skipTime? ('T' :: rest) = none := rfl
  have start (rest : List Char) : Text.trimStart ('T' :: rest) = 'T' :: rest :=
    Text.trimStart_solid (by decide) rest
  rw [read?]
  simp only [written, readDayTime?_letters writable, readDayOnly?_letters writable]
  -- The other readers fail at the gap before the time, or at what stands or is missing behind it.
  cases form with
  | absent =>
    have timestamp := readTimestamp?_letters writable
    simp [TimeForm.letters, timestamp, nothing, Text.skipChar?, Text.trimStart]
  | spaced time =>
    have timestamp := readTimestamp?_time writable (.inr rfl) valid []
    have skip := skipTime?_letters valid []
    have digit := allDigits_twoDigits time.hour _ List.mem_cons_self
    have gap : Text.trimStart (' ' :: time.letters) = time.letters :=
      Text.trimStart_space ((Text.stops_cons ..).mpr (isBlank_of_isDigit digit))
    rw [List.append_nil] at timestamp skip
    simp [TimeForm.letters, timestamp, skip, gap, Text.skipChar?, skipFraction?, isOffset]
  | joined time =>
    have timestamp := readTimestamp?_time writable (.inl rfl) valid []
    have skip := skipTime?_letters valid []
    rw [List.append_nil] at timestamp skip
    simp [TimeForm.letters, timestamp, skip, start, joint, Text.skipChar?, skipFraction?, isOffset]
  | fraction time digits =>
    obtain ⟨valid, some, all⟩ := valid
    have timestamp := readTimestamp?_time writable (.inl rfl) valid ('.' :: digits)
    have fraction : skipFraction? ('.' :: digits) = .some [] := skipFraction?_digits some all
    have skip := skipTime?_letters valid ('.' :: digits)
    simp [TimeForm.letters, timestamp, skip, start, joint, fraction, Text.skipChar?, isOffset]
  | zulu time =>
    have timestamp := readTimestamp?_time writable (.inl rfl) valid ['Z']
    have skip := skipTime?_letters valid ['Z']
    simp [TimeForm.letters, timestamp, skip, start, joint, Text.skipChar?, skipFraction?, isOffset]

theorem read?_of_isWritten {text : String} (written : d.IsWritten text) : read? text = d.named? := by
  obtain ⟨form, valid, front, back, blank, blank', parts⟩ := written
  refine read?_of_trim writable valid ?_
  rw [parts, Text.trim_blanks_append blank]
  exact Text.trim_append_blanks (trim_letters d valid) (by simp [letters]) blank'

/-- The times of written dates are far within 64 bits. -/
theorem isSigned64_of_isInstant (valid : d.IsValid) {milliseconds : Int} (instant : d.IsInstant milliseconds) :
    IsSigned64 milliseconds := by
  obtain ⟨nonneg, year, _, day⟩ := writable
  obtain ⟨started, unfinished⟩ := instant
  obtain ⟨lower, upper⟩ := daysBeforeYear_bounds d.year
  obtain ⟨within, months⟩ := dayOfYear_bounds valid
  have year_days : daysBeforeMonth d.year 13 ≤ 366 := by
    rw [daysBeforeMonth_thirteen]
    split <;> decide
  unfold dayNumber epoch at started unfinished
  unfold IsSigned64
  omega

theorem date?_of_spells (valid : d.IsValid) {v : Value} (spells : d.Spells v) : v.date? = some d := by
  cases spells with
  | text written => exact (read?_of_isWritten writable written).trans (named?_of_isValid writable valid)
  | @instant milliseconds fits instant =>
    have whole : (Number.whole milliseconds fits).truncate = milliseconds := by
      rw [Number.truncate, Number.signed?, if_pos (isSigned64_of_isInstant writable valid instant), Option.getD_some]
    rw [Value.date?, whole]
    exact ofMilliseconds?_of_day valid writable.yearInRange instant.1 instant.2

theorem extract_of_isWritten (invalid : ¬ d.IsValid) {text : String} (written : d.IsWritten text)
    (part : DatePart) : part.extract (some (.text text)) = .null := by
  have nothing : Value.date? (.text text) = none :=
    (read?_of_isWritten writable written).trans (if_neg fun named => invalid named.2)
  rw [DatePart.extract, Option.bind_some, nothing]

end

/-- All spellings of a date give that date and its three parts, and a text in one of the forms gives no
part where the calendar has no such day. The days are numbered one by one from 1 January 1970. -/
theorem spellings_alike {d : Date} (writable : d.IsWritable) :
    (d.IsValid → ∀ v, d.Spells v → v.date? = some d ∧
      (∃ fits, DatePart.year.extract (some v) = .number (.whole d.year fits)) ∧
      (∃ fits, DatePart.month.extract (some v) = .number (.whole d.month fits)) ∧
      ∃ fits, DatePart.day.extract (some v) = .number (.whole d.day fits)) ∧
    (¬ d.IsValid → ∀ text, d.IsWritten text → ∀ part : DatePart, part.extract (some (.text text)) = .null) ∧
    dayNumber ⟨1970, 1, 1⟩ = 0 ∧
    ∀ e : Date, e.IsValid → e.next.IsValid ∧ e.next.dayNumber = e.dayNumber + 1 := by
  refine ⟨fun valid v spells => ?_, fun invalid text written => extract_of_isWritten writable invalid written,
    dayNumber_epoch, fun e valid => ⟨isValid_next valid, dayNumber_next valid⟩⟩
  have date := date?_of_spells writable valid spells
  have extract (part : DatePart) {i : Int} (same : i = DatePart.ofDate d part) (fits : IsWhole64 i) :
      ∃ fits, part.extract (some v) = .number (.whole i fits) := by
    obtain rfl := same
    refine ⟨fits, ?_⟩
    rw [DatePart.extract, Option.bind_some, date]
    exact Value.ofInt_of_isWhole64 fits
  obtain ⟨nonneg, year, month, day⟩ := writable
  exact ⟨date, extract .year rfl ⟨by omega, by omega⟩, extract .month rfl ⟨by omega, by omega⟩,
    extract .day rfl ⟨by omega, by omega⟩⟩

/-- The last millisecond of a leap day before 1970, and a common year without that day. -/
theorem spellings_alike_leap_day :
    Value.date? (.text " 1968-02-29 23:59:59\n") = some ⟨1968, 2, 29⟩ ∧
    Value.date? (.number (.whole (-57974400001) (by decide))) = some ⟨1968, 2, 29⟩ ∧
    DatePart.day.extract (some (.text "1900-02-29T00:00:00.5")) = .null := by
  have leap : IsWritable ⟨1968, 2, 29⟩ := ⟨by decide, by decide, by decide, by decide⟩
  have common : IsWritable ⟨1900, 2, 29⟩ := ⟨by decide, by decide, by decide, by decide⟩
  have written : IsWritten ⟨1968, 2, 29⟩ " 1968-02-29 23:59:59\n" :=
    ⟨.spaced ⟨23, 59, 59⟩, by decide, [' '], ['\n'], by decide, by decide, by decide⟩
  have last : IsInstant ⟨1968, 2, 29⟩ (-57974400001) := ⟨by decide, by decide⟩
  have written' : IsWritten ⟨1900, 2, 29⟩ "1900-02-29T00:00:00.5" :=
    ⟨.fraction ⟨0, 0, 0⟩ ['5'], by decide, [], [], by decide, by decide, by decide⟩
  exact ⟨((spellings_alike leap).1 (by decide) _ (.text written)).1,
    ((spellings_alike leap).1 (by decide) _ (.instant last)).1,
    (spellings_alike common).2.1 (by decide) _ written' .day⟩

end Date
end RecordQuery
