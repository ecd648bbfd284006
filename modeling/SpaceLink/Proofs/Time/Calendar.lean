import SpaceLink.Time.Calendar

/-!
The calendar gives each day a date of its own. The day is counted again from its date, and the date is one of its
month. Years begin in March here, as they do inside the calendar.
-/

set_option autoImplicit false

namespace SpaceLink.Date

-- The days of an era of 400 years before a year of it begins.
def daysBefore (year : Nat) : Nat := 365 * year + year / 4 - year / 100 + year / 400

-- The days of an era up to a day, without those that are added to years of 365.
def regularDays (day : Nat) : Nat := day - day / 1460 + day / 36524 - day / 146096

theorem regular_days_grow (day later : Nat) (before : day ≤ later) (inside : later < 146097) :
    regularDays day ≤ regularDays later := by
  have years : day - day / 1460 ≤ later - later / 1460 := by omega
  have centuries : day / 36524 - day / 146096 ≤ later / 36524 - later / 146096 := by omega
  unfold regularDays
  omega

theorem year_of_ends : ∀ year < 400,
    regularDays (daysBefore year) / 365 = year ∧ regularDays (daysBefore (year + 1) - 1) / 365 = year := by
  decide +kernel

theorem year_of_day (year day : Nat) (early : year < 400) (inside : daysBefore year + day < daysBefore (year + 1)) :
    regularDays (daysBefore year + day) / 365 = year := by
  obtain ⟨first, last⟩ := year_of_ends year early
  have whole : daysBefore (year + 1) ≤ 146097 := by
    unfold daysBefore
    omega
  have low := regular_days_grow (daysBefore year) (daysBefore year + day) (Nat.le_add_right _ _) (by omega)
  have high := regular_days_grow (daysBefore year + day) (daysBefore (year + 1) - 1) (by omega) (by omega)
  omega

theorem year_exists (count day : Nat) (inside : day < daysBefore count) :
    ∃ year < count, ∃ rest, day = daysBefore year + rest ∧ day < daysBefore (year + 1) := by
  induction count with
  | zero => cases inside
  | succ count ih =>
      by_cases earlier : day < daysBefore count
      · obtain ⟨year, before, own⟩ := ih earlier
        exact ⟨year, Nat.lt_succ_of_lt before, own⟩
      · exact ⟨count, Nat.lt_succ_self count, day - daysBefore count, by omega, inside⟩

-- The date of a day of a year.
def ofMarch (era : Int) (year day : Nat) : Date :=
  let march := (5 * day + 2) / 153
  let month := if march < 10 then march + 3 else march - 9
  ⟨year + era * 400 + (if month ≤ 2 then 1 else 0), month, day - (153 * march + 2) / 5 + 1⟩

theorem of_days_march (era : Int) (year day : Nat) (early : year < 400)
    (inside : daysBefore year + day < daysBefore (year + 1)) :
    ofDays (era * 146097 + (daysBefore year + day : Nat) - 719468) = ofMarch era year day := by
  have whole : daysBefore (year + 1) ≤ 146097 := by
    unfold daysBefore
    omega
  have known := year_of_day year day early inside
  have before : (365 * year + year / 4 - year / 100 : Int) = daysBefore year := by
    unfold daysBefore
    omega
  generalize daysBefore year = start at inside known before ⊢
  have shifted : era * 146097 + (start + day : Nat) - 719468 + 719468 = era * 146097 + (start + day : Nat) := by omega
  have eras : (era * 146097 + (start + day : Nat)) / 146097 = era := by omega
  have days : (era * 146097 + (start + day : Nat)) % 146097 = (start + day : Nat) := by omega
  have years : (((start + day : Nat) : Int) - ((start + day : Nat) : Int) / 1460 + ((start + day : Nat) : Int) / 36524 -
      ((start + day : Nat) : Int) / 146096) / 365 = year := by
    unfold regularDays at known
    omega
  have rest : ((start + day : Nat) : Int) - (365 * (year : Int) + (year : Int) / 4 - (year : Int) / 100) = day := by omega
  simp only [ofDays, shifted, eras, days, years, rest, ofMarch]
  have march : (5 * (day : Int) + 2) / 153 = ((5 * day + 2) / 153 : Nat) := by omega
  have passed : (153 * ((5 * day + 2) / 153) + 2) / 5 ≤ day := by omega
  rw [march]
  generalize (5 * day + 2) / 153 = march at passed ⊢
  have dayOfMonth : ((day : Int) - (153 * (march : Int) + 2) / 5 + 1).toNat = day - (153 * march + 2) / 5 + 1 := by omega
  rw [dayOfMonth]
  by_cases sameYear : march < 10
  · have notNext : ¬ ((march : Int) + 3 ≤ 2) := by omega
    rw [if_pos (by omega : (march : Int) < 10), if_pos sameYear, if_neg notNext, if_neg (by omega)]
    congr 1
  · rw [if_neg (by omega : ¬ (march : Int) < 10), if_neg sameYear]
    have month : ((march : Int) - 9).toNat = march - 9 := by omega
    have next : (march : Int) - 9 ≤ 2 ↔ march - 9 ≤ 2 := by omega
    rw [month]
    simp only [next]

theorem of_march_early (era : Int) (year day march : Nat) (counted : (5 * day + 2) / 153 = march) (early : march < 10) :
    ofMarch era year day = ⟨year + era * 400, march + 3, day - (153 * march + 2) / 5 + 1⟩ := by
  simp only [ofMarch, counted, if_pos early, if_neg (show ¬ march + 3 ≤ 2 by omega), Int.add_zero]

theorem of_march_late (era : Int) (year day march : Nat) (counted : (5 * day + 2) / 153 = march) (late : 10 ≤ march)
    (short : march ≤ 11) :
    ofMarch era year day = ⟨year + era * 400 + 1, march - 9, day - (153 * march + 2) / 5 + 1⟩ := by
  simp only [ofMarch, counted, if_neg (show ¬ march < 10 by omega), if_pos (show march - 9 ≤ 2 by omega)]

theorem to_days_march (era : Int) (year day : Nat) (early : year < 400) (short : day < 366) :
    (ofMarch era year day).toDays = era * 146097 + (daysBefore year + day : Nat) - 719468 := by
  obtain ⟨march, counted⟩ : ∃ march, (5 * day + 2) / 153 = march := ⟨_, rfl⟩
  by_cases sameYear : march < 10
  · rw [of_march_early era year day march counted sameYear]
    simp only [toDays, daysBefore, if_neg (show ¬ march + 3 ≤ 2 by omega), if_pos (show 2 < march + 3 by omega)]
    omega
  · rw [of_march_late era year day march counted (by omega) (by omega)]
    simp only [toDays, daysBefore, if_pos (show march - 9 ≤ 2 by omega), if_neg (show ¬ 2 < march - 9 by omega)]
    omega

-- The last day of a year is its leap day, in a year that has one.
theorem leap_of_long (era : Int) (year : Nat) (long : daysBefore year + 365 < daysBefore (year + 1)) :
    isLeap (year + era * 400 + 1) = true := by
  unfold daysBefore at long
  simp only [isLeap, Bool.and_eq_true, Bool.or_eq_true, beq_iff_eq, bne_iff_ne]
  omega

theorem march_valid (era : Int) (year day : Nat) (inside : daysBefore year + day < daysBefore (year + 1)) :
    (ofMarch era year day).isValid = true := by
  have short : day < 366 := by
    unfold daysBefore at inside
    omega
  obtain ⟨march, counted⟩ : ∃ march, (5 * day + 2) / 153 = march := ⟨_, rfl⟩
  by_cases sameYear : march < 10
  · rw [of_march_early era year day march counted sameYear]
    simp only [isValid, daysIn, decide_eq_true_eq, if_neg (show march + 3 ≠ 2 by omega)]
    split <;> omega
  · rw [of_march_late era year day march counted (by omega) (by omega)]
    have leap := leap_of_long era year
    by_cases january : march = 10
    · subst january
      simp only [isValid, daysIn, decide_eq_true_eq]
      rw [if_neg (by decide), if_neg (by decide)]
      omega
    · have february : march = 11 := by omega
      subst february
      simp only [isValid, daysIn, decide_eq_true_eq]
      rw [if_pos trivial]
      by_cases long : daysBefore year + 365 < daysBefore (year + 1)
      · rw [if_pos (leap long)]
        omega
      · split <;> omega

-- A day in its era, and in a year of that.
theorem day_placed (days : Int) :
    ∃ (era : Int) (year day : Nat), year < 400 ∧ daysBefore year + day < daysBefore (year + 1) ∧
      days = era * 146097 + (daysBefore year + day : Nat) - 719468 := by
  have whole : ((days + 719468) % 146097).toNat < daysBefore 400 := by
    have era : daysBefore 400 = 146097 := by decide
    omega
  obtain ⟨year, early, day, same, inside⟩ := year_exists 400 _ whole
  exact ⟨(days + 719468) / 146097, year, day, early, same ▸ inside, by omega⟩

theorem days_back (days : Int) : (ofDays days).toDays = days ∧ (ofDays days).isValid = true := by
  obtain ⟨era, year, day, early, inside, rfl⟩ := day_placed days
  have short : day < 366 := by
    unfold daysBefore at inside
    omega
  rw [of_days_march era year day early inside]
  exact ⟨to_days_march era year day early short, march_valid era year day inside⟩

end SpaceLink.Date
