import RecordQuery.Number.Basic
import RecordQuery.Proofs.Number.Rounding
import RecordQuery.Proofs.Text.Runs

/-! Decimal notation that is read back. The text of a number gives that number, and no
double-precision number has the text of a whole one. -/
namespace RecordQuery

/-- A row of digits. -/
def AllDigits (s : List Char) : Prop := ∀ c ∈ s, c.isDigit = true

theorem AllDigits.append {s t : List Char} (first : AllDigits s) (second : AllDigits t) :
    AllDigits (s ++ t) := by
  intro c member
  rcases List.mem_append.mp member with member | member
  · exact first c member
  · exact second c member

theorem readDigits?_eq {s : List Char} (nonempty : s ≠ []) (digits : AllDigits s) :
    readDigits? s = some (Nat.ofDigitChars 10 s 0) := by
  rw [readDigits?, if_pos]
  simpa [nonempty, AllDigits] using digits

theorem allDigits_toDigits (n : Nat) : AllDigits (Nat.toDigits 10 n) :=
  fun _ member => Nat.isDigit_of_mem_toDigits (by decide) (by decide) member

theorem readDigits?_toDigits (n : Nat) : readDigits? (Nat.toDigits 10 n) = some n := by
  rw [readDigits?_eq Nat.toDigits_ne_nil (allDigits_toDigits n), Nat.ofDigitChars_ten_toDigits]

/-- What starts with a digit has no sign. -/
theorem splitSign_of_allDigits {digits : List Char} (nonempty : digits ≠ []) (all : AllDigits digits)
    (rest : List Char) : splitSign (digits ++ rest) = (false, digits ++ rest) := by
  obtain ⟨c, digits, rfl⟩ := List.exists_cons_of_ne_nil nonempty
  have digit := all c List.mem_cons_self
  unfold splitSign
  split
  next same =>
    cases same
    cases digit
  next same =>
    cases same
    cases digit
  next => rfl

theorem readInt?_intText (i : Int) : readInt? (Number.intText i) = some i := by
  have read (negative : Bool) : ((readDigits? (Nat.toDigits 10 i.natAbs)).map fun n =>
      if negative then -(n : Int) else n) = some (if negative then -(i.natAbs : Int) else i.natAbs) := by
    rw [readDigits?_toDigits]
    rfl
  unfold Number.intText
  split
  next negative =>
    refine (read true).trans (congrArg some ?_)
    rw [if_pos rfl]
    omega
  next =>
    have sign := splitSign_of_allDigits Nat.toDigits_ne_nil (allDigits_toDigits i.natAbs) []
    rw [List.append_nil] at sign
    rw [readInt?, sign]
    refine (read false).trans (congrArg some ?_)
    rw [if_neg (by decide)]
    omega

theorem readNat?_toDigits (n : Nat) : readNat? (Nat.toDigits 10 n) = some n := by
  unfold readNat?
  split
  next digits same =>
    have digit := allDigits_toDigits n '+' (by rw [same]; exact List.mem_cons_self)
    cases digit
  next => exact readDigits?_toDigits n

/-- A numeral with a character besides digits and its sign is not whole. -/
theorem readInt?_eq_none {s : List Char} {c : Char} (member : c ∈ s) (digit : c.isDigit = false)
    (minus : c ≠ '-') (plus : c ≠ '+') : readInt? s = none := by
  have kept : c ∈ (splitSign s).2 := by
    unfold splitSign
    split <;> simp_all
  have none : readDigits? (splitSign s).2 = none := by
    rw [readDigits?, if_neg]
    intro all
    rw [Bool.and_eq_true, List.all_eq_true] at all
    rw [all.2 c kept] at digit
    cases digit
  simp [readInt?, none]

namespace Binary64

/-- A numeral with its sign. -/
def signed (negative : Bool) (unsigned : List Char) : List Char :=
  if negative then '-' :: unsigned else unsigned

theorem splitSign_signed (negative : Bool) {digits : List Char} (nonempty : digits ≠ [])
    (all : AllDigits digits) (rest : List Char) :
    splitSign (signed negative (digits ++ rest)) = (negative, digits ++ rest) := by
  cases negative with
  | true => rfl
  | false => exact splitSign_of_allDigits nonempty all rest

end Binary64

namespace Decimal

/-- Digits, a point, digits and an exponent. -/
theorem read?_point (negative : Bool) {whole fraction rest : List Char} {exponent : Int}
    (nonempty : whole ≠ []) (before : AllDigits whole) (after : AllDigits fraction)
    (stop : Text.Stops Char.isDigit rest) (read : readExponent? rest = some exponent) :
    read? (Binary64.signed negative (whole ++ '.' :: (fraction ++ rest))) =
      some ⟨negative, Nat.ofDigitChars 10 (whole ++ fraction) 0, exponent - fraction.length⟩ := by
  have point : Text.Stops Char.isDigit ('.' :: (fraction ++ rest)) := by simp
  have split : splitPoint (whole ++ '.' :: (fraction ++ rest)) = (whole, fraction, rest) := by
    unfold splitPoint
    rw [Text.takeWhile_run before point, Text.dropWhile_run before point]
    show (_, (fraction ++ rest).takeWhile Char.isDigit, (fraction ++ rest).dropWhile Char.isDigit) = _
    rw [Text.takeWhile_run after stop, Text.dropWhile_run after stop]
  unfold read?
  rw [Binary64.splitSign_signed negative nonempty before]
  dsimp only
  rw [split]
  dsimp only
  rw [readDigits?_eq (by simp [nonempty]) (before.append after), read]
  rfl

/-- Digits and an exponent. -/
theorem read?_digits (negative : Bool) {digits rest : List Char} {exponent : Int}
    (nonempty : digits ≠ []) (all : AllDigits digits) (stop : Text.Stops Char.isDigit rest)
    (point : rest.head? ≠ some '.') (read : readExponent? rest = some exponent) :
    read? (Binary64.signed negative (digits ++ rest)) =
      some ⟨negative, Nat.ofDigitChars 10 digits 0, exponent⟩ := by
  have split : splitPoint (digits ++ rest) = (digits, [], rest) := by
    unfold splitPoint
    rw [Text.takeWhile_run all stop, Text.dropWhile_run all stop]
    split
    · exact absurd rfl point
    · rfl
  unfold read?
  rw [Binary64.splitSign_signed negative nonempty all]
  dsimp only
  rw [split]
  dsimp only
  rw [List.append_nil, readDigits?_eq nonempty all, read]
  simp

end Decimal

namespace Binary64

/-- What is trimmed off is zeros. -/
theorem exists_eq_trimZeros (digits : List Char) :
    ∃ zeros, digits = trimZeros digits ++ List.replicate zeros '0' := by
  refine ⟨(digits.reverse.takeWhile (· == '0')).length, ?_⟩
  have all : digits.reverse.takeWhile (· == '0') =
      List.replicate (digits.reverse.takeWhile (· == '0')).length '0' := by
    rw [List.eq_replicate_iff]
    have zeros := List.all_takeWhile (p := (· == '0')) (l := digits.reverse)
    exact ⟨rfl, fun c member => by simpa using List.all_eq_true.mp zeros c member⟩
  have halves := congrArg List.reverse
    (List.takeWhile_append_dropWhile (p := (· == '0')) (l := digits.reverse))
  rw [List.reverse_append, List.reverse_reverse, all, List.reverse_replicate] at halves
  exact halves.symm

theorem allDigits_trimZeros {digits : List Char} (all : AllDigits digits) :
    AllDigits (trimZeros digits) := by
  obtain ⟨zeros, same⟩ := exists_eq_trimZeros digits
  intro c member
  exact all c (by rw [same]; exact List.mem_append_left _ member)

theorem ofDigitChars_zeros (digits : List Char) (zeros : Nat) :
    Nat.ofDigitChars 10 (digits ++ List.replicate zeros '0') 0 =
      Nat.ofDigitChars 10 digits 0 * powerOfTen zeros := by
  rw [Nat.ofDigitChars_append, Nat.ofDigitChars_replicate_zero, Nat.mul_comm]
  rfl

theorem ofDigitChars_leadingZeros (zeros : Nat) (digits : List Char) :
    Nat.ofDigitChars 10 (List.replicate zeros '0' ++ digits) 0 = Nat.ofDigitChars 10 digits 0 := by
  rw [Nat.ofDigitChars_append, Nat.ofDigitChars_replicate_zero, Nat.mul_zero]

theorem allDigits_zeros (zeros : Nat) : AllDigits (List.replicate zeros '0') := by
  intro c member
  rw [List.eq_of_mem_replicate member]
  rfl

/-- The numeral of digits whose first one has this power of ten, up to zeros at the end. -/
def Reads (s : List Char) (negative : Bool) (digits : List Char) (exponent : Int) : Prop :=
  ∃ zeros : Nat, Decimal.read? s = some ⟨negative, Nat.ofDigitChars 10 digits 0 * powerOfTen zeros,
    exponent + 1 - digits.length - zeros⟩

theorem reads_positional (negative : Bool) {digits : List Char} {exponent : Int}
    (all : AllDigits digits) (nonempty : digits ≠ []) :
    Reads (signed negative (positional digits exponent)) negative digits exponent := by
  unfold positional
  split
  next below =>
    have zeros := allDigits_zeros (-exponent - 1).toNat
    have read := Decimal.read?_point negative (by simp) (allDigits_zeros 1) (zeros.append all)
      (Text.stops_nil _) rfl
    rw [List.append_nil] at read
    refine ⟨0, read.trans ?_⟩
    have value : Nat.ofDigitChars 10
        (List.replicate 1 '0' ++ (List.replicate (-exponent - 1).toNat '0' ++ digits)) 0 =
          Nat.ofDigitChars 10 digits 0 := by
      rw [ofDigitChars_leadingZeros, ofDigitChars_leadingZeros]
    rw [value, Option.some.injEq, Decimal.mk.injEq]
    refine ⟨rfl, (Nat.mul_one _).symm, ?_⟩
    simp only [List.length_append, List.length_replicate]
    omega
  next above =>
    by_cases short : digits.length ≤ exponent.toNat + 1
    · have whole := all.append (allDigits_zeros (exponent.toNat + 1 - digits.length))
      have read := Decimal.read?_point negative (by simp [nonempty]) whole (allDigits_zeros 1)
        (Text.stops_nil _) rfl
      refine ⟨exponent.toNat + 1 - digits.length + 1, ?_⟩
      simp only [List.take_of_length_le short, List.drop_eq_nil_of_le short, List.isEmpty_nil, ↓reduceIte]
      refine read.trans ?_
      rw [ofDigitChars_zeros, ofDigitChars_zeros, Nat.mul_assoc, ← Decimal.powerOfTen_add,
        Option.some.injEq, Decimal.mk.injEq]
      refine ⟨rfl, rfl, ?_⟩
      simp only [List.length_replicate]
      omega
    · have none : exponent.toNat + 1 - digits.length = 0 := by omega
      have rest : (digits.drop (exponent.toNat + 1)).isEmpty = false := by
        simp
        omega
      have before : AllDigits (digits.take (exponent.toNat + 1)) :=
        fun c member => all c (List.mem_of_mem_take member)
      have after : AllDigits (digits.drop (exponent.toNat + 1)) :=
        fun c member => all c (List.mem_of_mem_drop member)
      have read := Decimal.read?_point negative (by simp [nonempty]) before after (Text.stops_nil _) rfl
      simp only [none, rest, List.replicate_zero, List.append_nil, Bool.false_eq_true, ↓reduceIte]
      rw [List.append_nil, List.take_append_drop] at read
      refine ⟨0, read.trans ?_⟩
      rw [Option.some.injEq, Decimal.mk.injEq]
      refine ⟨rfl, (Nat.mul_one _).symm, ?_⟩
      rw [List.length_drop]
      omega

theorem readExponent?_signed (exponent : Int) :
    Decimal.readExponent? ('e' :: (if exponent < 0 then '-' else '+') ::
      Nat.toDigits 10 exponent.natAbs) = some exponent := by
  have read := readDigits?_toDigits exponent.natAbs
  by_cases negative : exponent < 0
  · have value : -(exponent.natAbs : Int) = exponent := by omega
    simp only [Decimal.readExponent?, readInt?, splitSign, negative, read, ↓reduceIte]
    exact congrArg some value
  · have value : (exponent.natAbs : Int) = exponent := by omega
    simp only [Decimal.readExponent?, readInt?, splitSign, negative, read, ↓reduceIte]
    exact congrArg some value

theorem reads_scientific (negative : Bool) {digits : List Char} {exponent : Int}
    (all : AllDigits digits) (nonempty : digits ≠ []) :
    Reads (signed negative (scientific digits exponent)) negative digits exponent := by
  obtain ⟨c, rest, rfl⟩ := List.exists_cons_of_ne_nil nonempty
  have first : AllDigits [c] := fun d member => all d (by simp_all)
  have stop (s : List Char) : Text.Stops Char.isDigit ('e' :: s) := by simp
  unfold scientific
  refine ⟨0, ?_⟩
  by_cases single : rest = []
  · have read := Decimal.read?_digits negative (by simp) first (stop _) (by simp)
      (readExponent?_signed exponent)
    subst single
    refine read.trans ?_
    rw [Option.some.injEq, Decimal.mk.injEq]
    refine ⟨rfl, (Nat.mul_one _).symm, ?_⟩
    simp
  · have read := Decimal.read?_point negative (by simp) first
      (fun d member => all d (List.mem_cons_of_mem c member)) (stop _) (readExponent?_signed exponent)
    have some : rest.isEmpty = false := by simp [single]
    simp only [List.drop_succ_cons, List.drop_zero, List.take_succ_cons, List.take_zero, some,
      Bool.false_eq_true, ↓reduceIte, List.cons_append, List.nil_append] at read ⊢
    refine read.trans ?_
    rw [Option.some.injEq, Decimal.mk.injEq]
    refine ⟨rfl, (Nat.mul_one _).symm, ?_⟩
    rw [List.length_cons]
    omega

theorem negative_of_ofUnits {negative : Bool} {n d : Nat} {x : Binary64}
    (rounded : ofUnits negative n d = some x) : x.negative = negative := by
  unfold ofUnits at rounded
  dsimp only at rounded
  split at rounded
  · cases rounded
    rfl
  · cases rounded

/-- The digits of the shortest decimal, and the power of ten of the first one. -/
def shortestDigits (x : Binary64) : List Char := trimZeros (Nat.toDigits 10 x.shortest.digits)

def shortestExponent (x : Binary64) : Int :=
  x.shortest.exponent + (Nat.toDigits 10 x.shortest.digits).length - 1

theorem text_eq (x : Binary64) : x.text = signed x.negative
    (if x.mantissa = 0 then ['0', '.', '0']
    else if isPositional x.shortestExponent then positional x.shortestDigits x.shortestExponent
    else scientific x.shortestDigits x.shortestExponent) := rfl

theorem allDigits_shortestDigits (x : Binary64) : AllDigits x.shortestDigits :=
  allDigits_trimZeros (allDigits_toDigits _)

/-- Without the zeros at its end the shortest decimal still reads back. -/
theorem rounded_shortestDigits {x : Binary64} (nonzero : x.mantissa ≠ 0) :
    (⟨x.negative, Nat.ofDigitChars 10 x.shortestDigits 0,
      x.shortestExponent + 1 - x.shortestDigits.length⟩ : Decimal).rounded = some x := by
  have rounded := (Decimal.nearest_eq_some_iff nonzero).mp (nearest_shortest nonzero)
  have sign : x.negative = x.shortest.negative := negative_of_ofUnits rounded
  obtain ⟨zeros, same⟩ := exists_eq_trimZeros (Nat.toDigits 10 x.shortest.digits)
  have digits : x.shortest.digits = Nat.ofDigitChars 10 x.shortestDigits 0 * powerOfTen zeros := by
    rw [← ofDigitChars_zeros, shortestDigits, ← same, Nat.ofDigitChars_ten_toDigits]
  have length := congrArg List.length same
  rw [List.length_append, List.length_replicate] at length
  have exponent : x.shortest.exponent =
      x.shortestExponent + 1 - x.shortestDigits.length - zeros := by
    unfold shortestExponent shortestDigits
    omega
  rw [← Decimal.rounded_zeros _ _ _ zeros, ← digits, ← exponent, sign]
  exact rounded

theorem shortestDigits_ne_nil {x : Binary64} (nonzero : x.mantissa ≠ 0) : x.shortestDigits ≠ [] := by
  intro empty
  have rounded := rounded_shortestDigits nonzero
  rw [empty] at rounded
  refine absurd (mantissa_of_small ?_ rounded) nonzero
  rw [Nat.ofDigitChars_nil, Nat.zero_mul, Nat.zero_mul]
  exact Decimal.powerOfTen_pos _

/-- The text of a number is read as that number. -/
theorem ofText?_text (x : Binary64) : ofText? x.text = some x := by
  rw [text_eq]
  by_cases zero : x.mantissa = 0
  · have read := Decimal.read?_point x.negative (by simp) (allDigits_zeros 1) (allDigits_zeros 1)
      (Text.stops_nil _) rfl
    have exponent : x.exponent = 0 := by
      rcases x.normal with zero | normal
      · exact zero
      · rw [zero] at normal
        exact absurd normal (by decide)
    rw [if_pos zero]
    refine (congrArg (Option.bind · Decimal.nearest) read).trans ?_
    cases x
    subst zero exponent
    rfl
  · have reads : Reads x.text x.negative x.shortestDigits x.shortestExponent := by
      rw [text_eq, if_neg zero]
      split
      · exact reads_positional _ (allDigits_shortestDigits x) (shortestDigits_ne_nil zero)
      · exact reads_scientific _ (allDigits_shortestDigits x) (shortestDigits_ne_nil zero)
    obtain ⟨zeros, read⟩ := reads
    rw [← text_eq, ofText?, read, Option.bind_some, Decimal.nearest_eq_some_iff zero,
      Decimal.rounded_zeros]
    exact rounded_shortestDigits zero

/-- The text of a number has a point or an exponent. -/
theorem point_or_exponent (x : Binary64) : '.' ∈ x.text ∨ 'e' ∈ x.text := by
  have signed {c : Char} {s : List Char} (member : c ∈ s) : c ∈ signed x.negative s := by
    unfold Binary64.signed
    split
    · exact List.mem_cons_of_mem _ member
    · exact member
  rw [text_eq]
  split
  · exact .inl (signed (by simp))
  · split
    · refine .inl (signed ?_)
      unfold positional
      split <;> simp
    · refine .inr (signed ?_)
      simp [scientific]

/-- No text of a double-precision number is that of a whole one. -/
theorem readInt?_text (x : Binary64) : readInt? x.text = none := by
  rcases x.point_or_exponent with member | member
  · exact readInt?_eq_none member rfl (by decide) (by decide)
  · exact readInt?_eq_none member rfl (by decide) (by decide)

end Binary64

/-- The characters of numerals. -/
def isNumeral (c : Char) : Bool := c.isDigit || c == '-' || c == '+' || c == '.' || c == 'e'

theorem AllDigits.isNumeral {s : List Char} (all : AllDigits s) : ∀ c ∈ s, isNumeral c = true := by
  intro c member
  simp [RecordQuery.isNumeral, all c member]

/-- A word that does not start as a numeral is no count. -/
theorem readNat?_eq_none {c : Char} (other : isNumeral c = false) (s : List Char) : readNat? (c :: s) = none := by
  have digit : c.isDigit = false := by
    rw [Bool.eq_false_iff]
    intro digit
    simp [isNumeral, digit] at other
  have none : readDigits? (c :: s) = none := by simp [readDigits?, digit]
  unfold readNat?
  split
  next same =>
    rw [(List.cons.inj same).1] at other
    exact absurd other (by decide)
  · exact none

namespace Binary64

theorem isNumeral_positional {digits : List Char} (all : AllDigits digits) (exponent : Int) :
    ∀ c ∈ positional digits exponent, isNumeral c = true := by
  have zeros (n : Nat) := (allDigits_zeros n).isNumeral
  intro c member
  unfold positional at member
  split at member
  · simp only [List.cons_append, List.mem_cons, List.mem_append] at member
    rcases member with rfl | rfl | member | member
    · rfl
    · rfl
    · exact zeros _ c member
    · exact all.isNumeral c member
  · simp only [List.mem_append, List.mem_cons] at member
    rcases member with (member | member) | rfl | member
    · exact all.isNumeral c (List.mem_of_mem_take member)
    · exact zeros _ c member
    · rfl
    · split at member
      · rw [List.mem_singleton.mp member]
        rfl
      · exact all.isNumeral c (List.mem_of_mem_drop member)

theorem isNumeral_scientific {digits : List Char} (all : AllDigits digits) (exponent : Int) :
    ∀ c ∈ scientific digits exponent, isNumeral c = true := by
  intro c member
  simp only [scientific, List.mem_append, List.mem_cons] at member
  rcases member with (member | member) | rfl | rfl | member
  · exact all.isNumeral c (List.mem_of_mem_take member)
  · split at member
    · cases member
    · rcases List.mem_cons.mp member with rfl | member
      · rfl
      · exact all.isNumeral c (List.mem_of_mem_drop member)
  · rfl
  · split <;> rfl
  · exact (allDigits_toDigits _).isNumeral c member

end Binary64

namespace Number

theorem isNumeral_text (n : Number) : ∀ c ∈ n.text, isNumeral c = true := by
  have digits (k : Nat) := (allDigits_toDigits k).isNumeral
  have signed {s : List Char} (all : ∀ c ∈ s, isNumeral c = true) :
      ∀ c ∈ '-' :: s, isNumeral c = true := by
    intro c member
    rcases List.mem_cons.mp member with rfl | member
    · rfl
    · exact all c member
  cases n with
  | whole i fits =>
    show ∀ c ∈ intText i, isNumeral c = true
    unfold intText
    split
    · exact signed (digits _)
    · exact digits _
  | float x =>
    have unsigned : ∀ c ∈ (if x.mantissa = 0 then ['0', '.', '0']
        else if Binary64.isPositional x.shortestExponent then
          Binary64.positional x.shortestDigits x.shortestExponent
        else Binary64.scientific x.shortestDigits x.shortestExponent), isNumeral c = true := by
      split
      · decide
      · split
        · exact Binary64.isNumeral_positional x.allDigits_shortestDigits _
        · exact Binary64.isNumeral_scientific x.allDigits_shortestDigits _
    rw [text, Binary64.text_eq, Binary64.signed]
    split
    · exact signed unsigned
    · exact unsigned

theorem text_ne_nil (n : Number) : n.text ≠ [] := by
  intro empty
  cases n with
  | whole i fits =>
    have read := readInt?_intText i
    rw [show intText i = [] from empty] at read
    cases read
  | float x =>
    have member := x.point_or_exponent
    rw [show x.text = [] from empty] at member
    simp at member

/-- The text tells numbers apart. -/
theorem text_injective {a b : Number} (same : a.text = b.text) : a = b := by
  cases a with
  | whole i fits =>
    have read := readInt?_intText i
    cases b with
    | whole j fits' =>
      have read' := readInt?_intText j
      rw [← show intText i = intText j from same, read] at read'
      cases read'
      rfl
    | float y =>
      rw [show intText i = y.text from same, Binary64.readInt?_text] at read
      cases read
  | float x =>
    cases b with
    | whole j fits =>
      have read := readInt?_intText j
      rw [← show x.text = intText j from same, Binary64.readInt?_text] at read
      cases read
    | float y =>
      have read := Binary64.ofText?_text x
      rw [show x.text = y.text from same, Binary64.ofText?_text] at read
      cases read
      rfl

end Number
end RecordQuery
