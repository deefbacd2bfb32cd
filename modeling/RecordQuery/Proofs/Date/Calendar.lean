import RecordQuery.Date.Basic

/-! The calendar and the numbers of its days. Day numbers count the days one by one from 1 January
1970, forwards and backwards, and every date is the date of its number. -/
namespace RecordQuery.Date

/-- A leap year has one day more. -/
theorem daysBeforeMonth_thirteen (year : Int) :
    daysBeforeMonth year 13 = if isLeapYear year then 366 else 365 := by
  cases leap : isLeapYear year <;> simp [daysBeforeMonth, daysInMonth, leap]

theorem daysBeforeMonth_succ (year : Int) {month : Nat} (first : 1 ≤ month) :
    daysBeforeMonth year (month + 1) = daysBeforeMonth year month + daysInMonth year month := by
  obtain ⟨month, rfl⟩ := Nat.exists_eq_add_of_le' first
  rfl

theorem daysBeforeMonth_mono (year : Int) {month month' : Nat} (earlier : month ≤ month') :
    daysBeforeMonth year month ≤ daysBeforeMonth year month' := by
  induction earlier with
  | refl => exact Nat.le_refl _
  | @step month' _ ih =>
    refine Nat.le_trans ih ?_
    cases month' with
    | zero => exact Nat.le_refl _
    | succ month' => exact Nat.le_add_right _ _

theorem daysBeforeYear_succ (year : Int) :
    daysBeforeYear (year + 1) = daysBeforeYear year + daysBeforeMonth year 13 := by
  rw [daysBeforeMonth_thirteen]
  unfold daysBeforeYear isLeapYear
  split
  next leap =>
    simp only [Bool.and_eq_true, Bool.or_eq_true, decide_eq_true_eq] at leap
    omega
  next common =>
    simp only [Bool.and_eq_true, Bool.or_eq_true, decide_eq_true_eq] at common
    omega

/-- 400 years have 146097 days, and the start of a year is nearly in proportion. -/
theorem daysBeforeYear_bounds (year : Int) :
    146097 * (year - 1) - 699 ≤ 400 * daysBeforeYear year ∧
      400 * daysBeforeYear year ≤ 146097 * (year - 1) + 396 := by
  unfold daysBeforeYear
  omega

/-- A day belongs to the year that starts before it and whose next one starts after it. -/
theorem yearOf_eq {year days : Int} (started : daysBeforeYear year ≤ days)
    (unfinished : days < daysBeforeYear (year + 1)) : yearOf days = year := by
  have lower := (daysBeforeYear_bounds year).1
  have upper := (daysBeforeYear_bounds (year + 1)).2
  have guess : days * 400 / 146097 + 1 = year - 1 ∨ days * 400 / 146097 + 1 = year := by omega
  unfold yearOf
  rcases guess with early | exact_year
  · have before := daysBeforeYear_succ (year - 1)
    rw [Int.sub_add_cancel] at before
    simp only [early, Int.sub_add_cancel]
    rw [if_neg (by omega), if_pos started]
  · simp only [exact_year]
    rw [if_neg (by omega), if_neg (by omega)]

theorem countP_range (n k : Nat) : ((List.range n).countP fun m => m + 1 ≤ k) = min n k := by
  induction n with
  | zero => simp
  | succ n ih =>
    rw [List.range_succ, List.countP_append, ih, List.countP_singleton]
    by_cases within : n + 1 ≤ k
    · rw [if_pos (by simpa using within)]
      omega
    · rw [if_neg (by simpa using within)]
      omega

theorem monthOf_eq {year : Int} {month dayOfYear : Nat} (last : month ≤ 12)
    (started : daysBeforeMonth year month ≤ dayOfYear)
    (unfinished : dayOfYear < daysBeforeMonth year (month + 1)) : monthOf year dayOfYear = month := by
  have starts (m : Nat) : daysBeforeMonth year (m + 1) ≤ dayOfYear ↔ m + 1 ≤ month := by
    constructor
    · intro early
      refine Nat.not_lt.mp fun later => ?_
      have order : daysBeforeMonth year (month + 1) ≤ daysBeforeMonth year (m + 1) := daysBeforeMonth_mono year later
      omega
    · intro earlier
      exact Nat.le_trans (daysBeforeMonth_mono year earlier) started
  simp only [monthOf, starts, countP_range]
  exact Nat.min_eq_right last

/-- The place of a day in its year. -/
theorem dayOfYear_bounds {d : Date} (valid : d.IsValid) :
    daysBeforeMonth d.year d.month + d.day - 1 < daysBeforeMonth d.year (d.month + 1) ∧
      daysBeforeMonth d.year (d.month + 1) ≤ daysBeforeMonth d.year 13 := by
  obtain ⟨first, last, _, within⟩ := valid
  refine ⟨?_, daysBeforeMonth_mono d.year (Nat.succ_le_succ last)⟩
  rw [daysBeforeMonth_succ d.year first]
  omega

/-- The date of a day number is the one that has the number. -/
theorem ofDayNumber?_dayNumber {d : Date} (valid : d.IsValid) (range : YearInRange d.year) :
    ofDayNumber? d.dayNumber = some d := by
  obtain ⟨within, fits⟩ := dayOfYear_bounds valid
  obtain ⟨first, last, started, _⟩ := valid
  have days : d.dayNumber + epoch = daysBeforeYear d.year + (daysBeforeMonth d.year d.month + d.day - 1 : Nat) := by
    unfold dayNumber
    omega
  have year : yearOf (d.dayNumber + epoch) = d.year := by
    rw [days]
    refine yearOf_eq (by omega) ?_
    rw [daysBeforeYear_succ]
    omega
  have dayOfYear : (d.dayNumber + epoch - daysBeforeYear d.year).toNat =
      daysBeforeMonth d.year d.month + d.day - 1 := by
    rw [days]
    omega
  have month : monthOf d.year (daysBeforeMonth d.year d.month + d.day - 1) = d.month :=
    monthOf_eq last (by omega) within
  have day : daysBeforeMonth d.year d.month + d.day - 1 - daysBeforeMonth d.year d.month + 1 = d.day := by omega
  simp only [ofDayNumber?, year, dayOfYear, month, day]
  exact if_pos ⟨range, first, last, started, by assumption⟩

/-! The day after a day. -/

def next (d : Date) : Date :=
  if d.day < daysInMonth d.year d.month then { d with day := d.day + 1 }
  else if d.month < 12 then ⟨d.year, d.month + 1, 1⟩
  else ⟨d.year + 1, 1, 1⟩

theorem daysInMonth_pos (year : Int) (month : Nat) : 1 ≤ daysInMonth year month := by
  unfold daysInMonth
  split
  · split <;> decide
  all_goals decide

theorem isValid_next {d : Date} (valid : d.IsValid) : d.next.IsValid := by
  obtain ⟨first, last, started, within⟩ := valid
  unfold next
  split
  · exact ⟨first, last, Nat.le_add_left 1 _, by assumption⟩
  · split
    next more => exact ⟨Nat.le_add_left 1 _, more, Nat.le_refl 1, daysInMonth_pos _ _⟩
    next => exact ⟨Nat.le_refl 1, (by decide : 1 ≤ 12), Nat.le_refl 1, daysInMonth_pos _ _⟩

theorem dayNumber_next {d : Date} (valid : d.IsValid) : d.next.dayNumber = d.dayNumber + 1 := by
  obtain ⟨year, month, day⟩ := d
  obtain ⟨first, last, started, within⟩ := valid
  have full := daysBeforeMonth_succ year first
  dsimp only [next] at *
  split
  · simp only [dayNumber]
    omega
  · split
    · simp only [dayNumber, full]
      omega
    · obtain rfl : month = 12 := by omega
      have start : daysBeforeMonth (year + 1) 1 = 0 := rfl
      simp only [dayNumber, daysBeforeYear_succ, start, full]
      omega

theorem dayNumber_epoch : dayNumber ⟨1970, 1, 1⟩ = 0 := rfl

/-- All milliseconds of a day are of its date. -/
theorem ofMilliseconds?_of_day {d : Date} (valid : d.IsValid) (range : YearInRange d.year) {milliseconds : Int}
    (started : d.dayNumber * 86400000 ≤ milliseconds) (unfinished : milliseconds < (d.dayNumber + 1) * 86400000) :
    ofMilliseconds? milliseconds = some d := by
  have day : milliseconds / 86400000 = d.dayNumber := by omega
  rw [ofMilliseconds?, day, ofDayNumber?_dayNumber valid range]

end RecordQuery.Date
