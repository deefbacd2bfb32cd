import RecordQuery.Proofs.Text.Letters
import RecordQuery.Proofs.Text.Runs
import RecordQuery.Text.Keyword

/-! Keywords inside a text. A keyword is made of word characters, so that it is found
within one word or not at all, and what stands behind a character that is part of no word
is searched on its own. -/
namespace RecordQuery.Text

/-- Folding leads to ASCII from two characters only, the long s and the sign for kelvins. -/
theorem foldRuns_target : ∀ run ∈ foldRuns, 0x80 ≤ run.target ∨
    run.first = 0x17F ∧ run.last = 0x17F ∧ run.target = 0x73 ∨
    run.first = 0x212A ∧ run.last = 0x212A ∧ run.target = 0x6B := by
  decide +kernel

theorem toNat_ofNat_cases (n : Nat) : (Char.ofNat n).toNat = n ∨ (Char.ofNat n).toNat = 0 := by
  by_cases valid : n.isValidChar
  · have coded : Char.ofNat n = Char.ofNatAux n valid := dif_pos valid
    rw [coded]
    exact .inl rfl
  · have none : Char.ofNat n = ⟨0, .inl (by decide)⟩ := dif_neg valid
    rw [none]
    exact .inr rfl

def IsCapital (k : Char) : Prop := 65 ≤ k.toNat ∧ k.toNat ≤ 90

instance (k : Char) : Decidable (IsCapital k) := inferInstanceAs (Decidable (_ ∧ _))

theorem isCapital_letters (keyword : Keyword) : ∀ k ∈ keyword.letters, IsCapital k := by
  cases keyword <;> decide

theorem toNat_fold_of_isCapital {k : Char} (capital : IsCapital k) : (fold k).toNat = k.toNat + 32 := by
  obtain ⟨lower, upper⟩ := capital
  rw [fold, if_pos (by omega), toNat_toLower, if_pos ⟨lower, upper⟩]

/-- A capital letter matches itself and its small letter, and S and K one character more. -/
theorem sameLetter_cases {k c : Char} (capital : IsCapital k) (same : sameLetter k c = true) :
    c.toNat = k.toNat ∨ c.toNat = k.toNat + 32 ∨
      (c.toNat = 0x17F ∧ k.toNat = 83) ∨ (c.toNat = 0x212A ∧ k.toNat = 75) := by
  have folded : (fold c).toNat = k.toNat + 32 := by
    rw [← toNat_fold_of_isCapital capital, beq_iff_eq.mp same]
  obtain ⟨lower, upper⟩ := capital
  unfold fold at folded
  split at folded
  next ascii =>
    rw [toNat_toLower] at folded
    split at folded <;> omega
  next beyond =>
    split at folded
    next run found =>
      have covered := List.find?_some found
      simp only [FoldRun.covers, Bool.and_eq_true, decide_eq_true_eq, beq_iff_eq] at covered
      have value := toNat_ofNat_cases (run.target + (c.toNat - run.first))
      have target := foldRuns_target run (List.mem_of_find?_eq_some found)
      omega
    next => omega

theorem sameLetter_self (c : Char) : sameLetter c c = true := beq_self_eq_true _

theorem isWord_of_sameLetter {k c : Char} (capital : IsCapital k) (same : sameLetter k c = true) :
    isWord c = true := by
  have cases := sameLetter_cases capital same
  unfold IsCapital at capital
  by_cases ascii : c.toNat < 0x80
  · apply isWord_of_isAlphanum
    rw [isAlphanum_iff]
    omega
  · have two : c.toNat = 0x17F ∨ c.toNat = 0x212A := by omega
    rcases two with value | value
    · rw [show c = Char.ofNat 0x17F by rw [← value, Char.ofNat_toNat]]
      decide +kernel
    · rw [show c = Char.ofNat 0x212A by rw [← value, Char.ofNat_toNat]]
      decide +kernel

theorem isWord_of_blanks : ∀ n ∈ blanks, isWord (Char.ofNat n) = false := by decide +kernel

/-- No blank is part of a word. -/
theorem isWord_of_isBlank {c : Char} (blank : isBlank c = true) : isWord c = false := by
  have word := isWord_of_blanks c.toNat (by simpa [isBlank] using blank)
  rwa [Char.ofNat_toNat] at word

theorem isBlank_of_isWord {c : Char} (word : isWord c = true) : isBlank c = false := by
  rw [Bool.eq_false_iff]
  intro blank
  rw [isWord_of_isBlank blank] at word
  cases word

theorem solid_of_isName {s : List Char} (name : isName s = true) : ∀ c ∈ s, isBlank c = false :=
  fun c member => isBlank_of_isWord ((isName_iff.mp name).2 c member)

/-- A blank ends a word. -/
theorem stops_isWord_space (rest : List Char) : Stops isWord (' ' :: rest) := (stops_cons ..).mpr (by decide)

/-- Letters are not matched beyond the end of a word. -/
theorem skipLetters?_append_stops {ks : List Char} (capital : ∀ k ∈ ks, IsCapital k) (s : List Char)
    {rest : List Char} (stop : Stops isWord rest) :
    skipLetters? ks (s ++ rest) = (skipLetters? ks s).map (· ++ rest) := by
  induction ks generalizing s with
  | nil => rfl
  | cons k ks ih =>
    have ih := ih fun k member => capital k (List.mem_cons_of_mem _ member)
    cases s with
    | nil =>
      cases rest with
      | nil => rfl
      | cons c rest =>
        show (if sameLetter k c then skipLetters? ks rest else none) = none
        apply if_neg
        intro same
        have word := isWord_of_sameLetter (capital k List.mem_cons_self) same
        rw [(stops_cons isWord c rest).mp stop] at word
        cases word
    | cons c cs =>
      rw [List.cons_append, skipLetters?, skipLetters?]
      split
      · exact ih cs
      · rfl

/-- In lower case, letters other than S and K are matched in one spelling only. -/
theorem eq_of_skipLetters? {ks s rest : List Char}
    (letters : ∀ k ∈ ks, IsCapital k ∧ k ≠ 'S' ∧ k ≠ 'K') (lower : s.map Char.toLower = s)
    (skip : skipLetters? ks s = some rest) : s = ks.map Char.toLower ++ rest := by
  induction ks generalizing s with
  | nil =>
    cases skip
    rfl
  | cons k ks ih =>
    cases s with
    | nil => cases skip
    | cons c cs =>
      rw [List.map_cons, List.cons.injEq] at lower
      unfold skipLetters? at skip
      split at skip
      next same =>
        obtain ⟨capital, s_apart, k_apart⟩ := letters k List.mem_cons_self
        have value := congrArg Char.toNat lower.1
        have long : k.toNat ≠ 83 := fun equal => s_apart (Char.toNat_inj.mp equal)
        have kelvin : k.toNat ≠ 75 := fun equal => k_apart (Char.toNat_inj.mp equal)
        have cases := sameLetter_cases capital same
        have bounds : 65 ≤ k.toNat ∧ k.toNat ≤ 90 := capital
        have letter : c = k.toLower := by
          apply Char.toNat_inj.mp
          rw [toNat_toLower] at value ⊢
          rw [if_pos bounds]
          split at value <;> omega
        rw [List.map_cons, List.cons_append, ← letter,
          ← ih (fun k member => letters k (List.mem_cons_of_mem _ member)) lower.2 skip]
      · cases skip

theorem skipKeyword?_append_stops (keyword : Keyword) (s : List Char) {rest : List Char}
    (stop : Stops isWord rest) :
    skipKeyword? keyword (s ++ rest) = (skipKeyword? keyword s).map (· ++ rest) :=
  skipLetters?_append_stops (isCapital_letters keyword) s stop

theorem skipKeyword?_letters (keyword : Keyword) (rest : List Char) :
    skipKeyword? keyword (keyword.letters ++ rest) = some rest := by
  unfold skipKeyword?
  induction keyword.letters with
  | nil => rfl
  | cons k ks ih =>
    rw [List.cons_append, skipLetters?, if_pos (sameLetter_self k)]
    exact ih

/-- The letters of a keyword are part of a word. -/
theorem exists_word_of_skipLetters? {ks s rest : List Char} (capital : ∀ k ∈ ks, IsCapital k)
    (skip : skipLetters? ks s = some rest) :
    ∃ front, s = front ++ rest ∧ front.length = ks.length ∧ ∀ c ∈ front, isWord c = true := by
  induction ks generalizing s with
  | nil => exact ⟨[], by simpa [skipLetters?] using skip⟩
  | cons k ks ih =>
    cases s with
    | nil => cases skip
    | cons c s =>
      rw [skipLetters?] at skip
      split at skip
      next same =>
        obtain ⟨front, rfl, length, word⟩ := ih (fun k member => capital k (List.mem_cons_of_mem _ member)) skip
        refine ⟨c :: front, rfl, by simp [length], ?_⟩
        simpa [isWord_of_sameLetter (capital k List.mem_cons_self) same] using word
      · cases skip

/-- A whole keyword is the first word. -/
theorem takeWord_of_skipWholeKeyword? {keyword : Keyword} {s rest : List Char}
    (skip : skipWholeKeyword? keyword s = some rest) :
    s.take keyword.letters.length = takeWord s ∧ rest = dropWord s := by
  obtain ⟨found, ends⟩ := Option.filter_eq_some_iff.mp skip
  obtain ⟨front, rfl, length, word⟩ := exists_word_of_skipLetters? (isCapital_letters keyword) found
  have stop : Stops isWord rest := by
    intro c member
    simpa [wordEnds, Option.mem_def.mp member] using ends
  rw [takeWord, dropWord, takeWhile_run word stop, dropWhile_run word stop, ← length]
  exact ⟨List.take_left, rfl⟩

/-- Letters are found where the folded text starts with the folded letters. -/
theorem isSome_skipLetters? (ks s : List Char) : (skipLetters? ks s).isSome = true ↔ ks.map fold <+: s.map fold := by
  induction ks generalizing s with
  | nil => simp [skipLetters?]
  | cons k ks ih =>
    cases s with
    | nil => simp [skipLetters?]
    | cons c s =>
      rw [skipLetters?, List.map_cons, List.map_cons, List.cons_prefix_cons, ← ih]
      by_cases same : fold k = fold c <;> simp [sameLetter, same]

/-- Neither keyword is the beginning of the other one. -/
def Keyword.Apart (a b : Keyword) : Prop :=
  ¬(a.letters.map fold <+: b.letters.map fold) ∧ ¬(b.letters.map fold <+: a.letters.map fold)

instance (a b : Keyword) : Decidable (a.Apart b) := inferInstanceAs (Decidable (_ ∧ _))

/-- A text that starts with one keyword starts with no other one. -/
theorem Keyword.Apart.skipKeyword? {a b : Keyword} (apart : a.Apart b) {s rest : List Char}
    (skip : skipKeyword? a s = some rest) (t : List Char) : skipKeyword? b (s ++ t) = none := by
  rw [← Option.isNone_iff_eq_none, ← Option.isSome_eq_false_iff, Bool.eq_false_iff]
  intro other
  have first : a.letters.map fold <+: (s ++ t).map fold := by
    have start := (isSome_skipLetters? a.letters s).mp (Option.isSome_of_eq_some skip)
    exact start.trans (by simp)
  have second := (isSome_skipLetters? b.letters (s ++ t)).mp other
  exact (List.prefix_or_prefix_of_prefix first second).elim apart.1 apart.2

end RecordQuery.Text
