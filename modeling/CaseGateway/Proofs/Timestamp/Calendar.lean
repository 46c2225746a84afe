/-
Counting days, and later times.

The number of the days before a year is linear in the year up to less than two days either
way, so the guess at the year of a day is right or one too small.  Months are found by
taking their lengths off.  Both are inverse to `dayNumber` on the dates of the calendar.

`DayAfter` and `Later` say how dates and times follow each other with carries from one
number to the next and no day numbers.  Along them the day numbers go up by one, and so
moving a timestamp by less than a day leads to what is so much later or earlier.
-/
import CaseGateway.Proofs.Timestamp.RoundTrip

namespace CaseGateway.Timestamp

/-! ### Years -/

/-- The number of days of a year. -/
def yearLength (year : Int) : Nat :=
  if isLeapYear year then 366 else 365

theorem isLeapYear_iff (year : Int) :
    isLeapYear year ↔ year % 4 = 0 ∧ (year % 100 ≠ 0 ∨ year % 400 = 0) := by
  simp [isLeapYear]

theorem daysBeforeYear_succ (year : Int) :
    daysBeforeYear (year + 1) = daysBeforeYear year + yearLength year := by
  simp only [daysBeforeYear, yearLength]
  by_cases h : isLeapYear year
  · rw [if_pos h]
    rw [isLeapYear_iff] at h
    omega
  · rw [if_neg h]
    rw [isLeapYear_iff] at h
    omega

/-- A year has 146097 / 400 days, but for less than two. -/
theorem daysBeforeYear_bounds (year : Int) :
    146097 * (year - 1) - 700 ≤ 400 * daysBeforeYear year ∧
      400 * daysBeforeYear year < 146097 * (year - 1) + 400 := by
  simp only [daysBeforeYear]
  omega

theorem yearOfDay_eq {year n : Int} (hfirst : daysBeforeYear year ≤ n)
    (hlast : n < daysBeforeYear (year + 1)) : yearOfDay n = year := by
  have hbelow := daysBeforeYear_bounds year
  have habove := daysBeforeYear_bounds (year + 1)
  have hguess : n * 400 / 146097 + 1 = year ∨ n * 400 / 146097 + 1 = year - 1 := by omega
  unfold yearOfDay
  rcases hguess with hguess | hguess
  · rw [hguess]
    simp only
    rw [if_neg (by omega), if_neg (by omega)]
  · have hsucc := daysBeforeYear_succ (year - 1)
    rw [Int.sub_add_cancel] at hsucc
    rw [hguess]
    simp only
    rw [Int.sub_add_cancel, if_neg (by omega), if_pos hfirst]

/-! ### Months -/

/-- The months' lengths in front of a day tell its month. -/
theorem monthAndDay_take (lengths : List Nat) :
    ∀ (month k l day : Nat), lengths[k]? = some l → 1 ≤ day → day ≤ l →
      monthAndDay month lengths ((lengths.take k).foldl (· + ·) 0 + (day - 1))
        = (month + k, day) := by
  induction lengths with
  | nil => intro month k l day hk; cases hk
  | cons first rest ih =>
      intro month k l day hk hday hl
      cases k with
      | zero =>
          obtain rfl : first = l := Option.some.inj hk
          rw [List.take_zero, List.foldl_nil, Nat.zero_add, monthAndDay, if_pos (by omega),
            Nat.sub_add_cancel hday]
          rfl
      | succ k =>
          have hsum : ((first :: rest).take (k + 1)).foldl (· + ·) 0
              = first + (rest.take k).foldl (· + ·) 0 := by
            rw [List.take_succ_cons, List.foldl_cons, Nat.add_comm 0 first, List.foldl_assoc]
          rw [hsum, Nat.add_assoc, monthAndDay, if_neg (by omega), Nat.add_sub_cancel_left,
            ih (month + 1) k l day hk hday hl]
          congr 1
          omega

theorem getElem?_monthLengths {year : Int} {month : Nat} (h : 1 ≤ daysInMonth year month) :
    1 ≤ month ∧ (monthLengths year)[month - 1]? = some (daysInMonth year month) := by
  unfold daysInMonth at h ⊢
  by_cases hzero : month = 0
  · simp [hzero] at h
  · rw [if_neg hzero, List.getD_eq_getElem?_getD] at h ⊢
    cases hl : (monthLengths year)[month - 1]? with
    | none => simp [hl] at h
    | some l => exact ⟨Nat.pos_of_ne_zero hzero, rfl⟩

theorem daysBeforeMonth_succ {year : Int} {month : Nat} (h : 1 ≤ daysInMonth year month) :
    daysBeforeMonth year (month + 1) = daysBeforeMonth year month + daysInMonth year month := by
  obtain ⟨hmonth, hl⟩ := getElem?_monthLengths h
  obtain ⟨k, rfl⟩ := Nat.exists_eq_add_of_le' hmonth
  rw [Nat.add_sub_cancel] at hl
  simp only [daysBeforeMonth, Nat.add_sub_cancel]
  rw [List.take_add_one, hl, List.foldl_append]
  rfl

/-- The twelve months make up the year. -/
theorem daysBeforeMonth_december (year : Int) :
    daysBeforeMonth year 12 + 31 = yearLength year ∧ daysInMonth year 12 = 31 := by
  unfold daysBeforeMonth daysInMonth monthLengths yearLength
  cases isLeapYear year
  · exact ⟨rfl, rfl⟩
  · exact ⟨rfl, rfl⟩

/-- No month ends behind its year. -/
theorem daysBeforeMonth_le (year : Int) :
    ∀ month ≤ 12, daysBeforeMonth year month + daysInMonth year month ≤ yearLength year := by
  unfold daysBeforeMonth daysInMonth monthLengths yearLength
  cases isLeapYear year
  · decide
  · decide

/-! ### Days -/

/-- A date is found from its number: first the year, and in it the month and the day. -/
theorem date_of_dayNumber {year : Int} {month day : Nat} (hday : 1 ≤ day)
    (hlength : day ≤ daysInMonth year month) :
    yearOfDay (dayNumber year month day) = year ∧
      monthAndDay 1 (monthLengths year) (dayNumber year month day - daysBeforeYear year).toNat
        = (month, day) := by
  have hmonth := Nat.le_trans hday hlength
  obtain ⟨hpos, hl⟩ := getElem?_monthLengths hmonth
  have hend := daysBeforeMonth_le year month (daysInMonth_bounds hmonth).1
  have hsucc := daysBeforeYear_succ year
  refine ⟨yearOfDay_eq ?_ ?_, ?_⟩
  · unfold dayNumber
    omega
  · unfold dayNumber
    omega
  · have hindex : (dayNumber year month day - daysBeforeYear year).toNat
        = daysBeforeMonth year month + (day - 1) := by
      unfold dayNumber
      omega
    rw [hindex, daysBeforeMonth, monthAndDay_take _ 1 (month - 1) _ day hl hday hlength]
    congr 1
    omega

/-! ### Dates that follow each other -/

/-- The second date is that of the day after the first. -/
inductive DayAfter (s t : Timestamp) : Prop
  | day (hyear : t.year = s.year) (hmonth : t.month = s.month) (hday : t.day = s.day + 1)
  | month (hlast : s.day = daysInMonth s.year s.month) (hyear : t.year = s.year)
    (hmonth : t.month = s.month + 1) (hday : t.day = 1)
  | year (hdecember : s.month = 12) (hlast : s.day = 31) (hyear : t.year = s.year + 1)
    (hmonth : t.month = 1) (hday : t.day = 1)

/-- The second within the day. -/
def secondOfDay (t : Timestamp) : Nat :=
  (t.hour * 60 + t.minute) * 60 + t.second

/-- The second timestamp is so many seconds later than the first, for less than a day. -/
inductive Later (seconds : Nat) (s t : Timestamp) : Prop
  | sameDay (hyear : t.year = s.year) (hmonth : t.month = s.month) (hday : t.day = s.day)
    (hsecond : t.secondOfDay = s.secondOfDay + seconds)
  | dayAfter (hdate : DayAfter s t) (hsecond : t.secondOfDay + 86400 = s.secondOfDay + seconds)

theorem secondOfDay_lt (t : Timestamp) : t.secondOfDay < 86400 := by
  obtain ⟨-, -, -, -, hhour, hminute, hsecond, -⟩ := t.valid
  unfold secondOfDay
  omega

theorem time_of_secondOfDay (t : Timestamp) :
    t.secondOfDay / 3600 = t.hour ∧ t.secondOfDay / 60 % 60 = t.minute ∧
      t.secondOfDay % 60 = t.second := by
  obtain ⟨-, -, -, -, -, hminute, hsecond, -⟩ := t.valid
  unfold secondOfDay
  omega

theorem DayAfter.dayNumber_eq {s t : Timestamp} (h : DayAfter s t) :
    dayNumber t.year t.month t.day = dayNumber s.year s.month s.day + 1 := by
  obtain ⟨-, -, hfirst, hdays, -⟩ := s.valid
  cases h with
  | day hyear hmonth hday =>
      rw [hyear, hmonth, hday]
      unfold dayNumber
      omega
  | month hlast hyear hmonth hday =>
      have hsucc := daysBeforeMonth_succ (Nat.le_trans hfirst hdays)
      rw [hyear, hmonth, hday]
      unfold dayNumber
      omega
  | year hdecember hlast hyear hmonth hday =>
      have hsucc := daysBeforeYear_succ s.year
      obtain ⟨hend, -⟩ := daysBeforeMonth_december s.year
      have hzero : daysBeforeMonth (s.year + 1) 1 = 0 := rfl
      rw [hyear, hmonth, hday, hdecember, hlast]
      unfold dayNumber
      omega

/-! ### Moving a timestamp -/

/-- The number of seconds from the start of year 1. -/
def instant (t : Timestamp) : Int :=
  dayNumber t.year t.month t.day * 86400 + t.secondOfDay

theorem Later.instant_eq {seconds : Nat} {s t : Timestamp} (h : Later seconds s t) :
    t.instant = s.instant + seconds := by
  unfold instant
  cases h with
  | sameDay hyear hmonth hday hsecond =>
      rw [hyear, hmonth, hday]
      omega
  | dayAfter hdate hsecond =>
      rw [hdate.dayNumber_eq]
      omega

/-- A timestamp is found from its number of seconds. -/
theorem shift?_eq_some {t u : Timestamp} {seconds : Int} (hu : u.nanosecond = 0)
    (h : t.instant + seconds = u.instant) : t.shift? seconds = some u := by
  have hsecond := u.secondOfDay_lt
  have hday : u.instant / 86400 = dayNumber u.year u.month u.day := by
    unfold instant
    omega
  have hrest : (u.instant % 86400).toNat = u.secondOfDay := by
    unfold instant
    omega
  obtain ⟨hyear, hdate⟩ := date_of_dayNumber u.valid.2.2.1 u.valid.2.2.2.1
  have hshift : t.shift? seconds
      = let day := (t.instant + seconds) / 86400
        let second := ((t.instant + seconds) % 86400).toNat
        let date := monthAndDay 1 (monthLengths (yearOfDay day))
          (day - daysBeforeYear (yearOfDay day)).toNat
        make? (yearOfDay day) date.1 date.2 (second / 3600) (second / 60 % 60) (second % 60) 0 := rfl
  simp only at hshift
  rw [hshift, h, hday, hrest, hyear, hdate]
  obtain ⟨hhour, hminute, hseconds⟩ := u.time_of_secondOfDay
  have hmake : make? u.year u.month u.day u.hour u.minute u.second u.nanosecond = some u :=
    make?_of_valid u.valid
  rw [hu] at hmake
  simp only [hhour, hminute, hseconds, hmake]

theorem Later.shift?_eq {seconds : Nat} {s t : Timestamp} (h : Later seconds s t)
    (ht : t.nanosecond = 0) : s.shift? seconds = some t :=
  shift?_eq_some ht h.instant_eq.symm

theorem Later.shift?_neg_eq {seconds : Nat} {s t : Timestamp} (h : Later seconds s t)
    (hs : s.nanosecond = 0) : t.shift? (-seconds) = some s :=
  shift?_eq_some hs (by rw [h.instant_eq]; omega)

/-! ### There are earlier and later times -/

/-- Every second of a day is one of a timestamp. -/
theorem exists_onDay {year : Int} {month day : Nat} (hfirst : firstYear ≤ year)
    (hlast : year ≤ lastYear) (hday : 1 ≤ day) (hlength : day ≤ daysInMonth year month)
    {second : Nat} (hsecond : second < 86400) :
    ∃ u : Timestamp, u.year = year ∧ u.month = month ∧ u.day = day ∧ u.nanosecond = 0 ∧
      u.secondOfDay = second := by
  have hvalid : Valid year month day (second / 3600) (second / 60 % 60) (second % 60) 0 :=
    ⟨hfirst, hlast, hday, hlength, by omega, by omega, by omega, by decide⟩
  refine ⟨⟨year, month, day, _, _, _, 0, hvalid⟩, rfl, rfl, rfl, rfl, ?_⟩
  simp only [secondOfDay]
  omega

theorem one_le_daysInMonth (year : Int) : ∀ month ≤ 12, 1 ≤ month → 1 ≤ daysInMonth year month := by
  unfold daysInMonth monthLengths
  cases isLeapYear year
  · decide
  · decide

theorem exists_dayBefore {t : Timestamp} (hyear : firstYear < t.year) {second : Nat}
    (hsecond : second < 86400) :
    ∃ s : Timestamp, DayAfter s t ∧ s.nanosecond = 0 ∧ s.secondOfDay = second := by
  obtain ⟨hfirst, hlast, hday, hlength, -⟩ := t.valid
  have hmonth := Nat.le_trans hday hlength
  have hpos := (getElem?_monthLengths hmonth).1
  have htwelve := (daysInMonth_bounds hmonth).1
  by_cases hfirstDay : t.day = 1
  · by_cases hjanuary : t.month = 1
    · have hdecember := (daysBeforeMonth_december (t.year - 1)).2
      obtain ⟨s, hy, hm, hd, hwhole, hs⟩ := exists_onDay (show firstYear ≤ t.year - 1 by omega)
        (by omega) (by omega) (Nat.le_of_eq hdecember.symm) hsecond
      exact ⟨s, .year hm hd (by omega) hjanuary hfirstDay, hwhole, hs⟩
    · have hbefore := one_le_daysInMonth t.year (t.month - 1) (by omega) (by omega)
      obtain ⟨s, hy, hm, hd, hwhole, hs⟩ := exists_onDay hfirst hlast hbefore (Nat.le_refl _) hsecond
      exact ⟨s, .month (by rw [hy, hm, hd]) hy.symm (by omega) hfirstDay, hwhole, hs⟩
  · obtain ⟨s, hy, hm, hd, hwhole, hs⟩ := exists_onDay hfirst hlast (show 1 ≤ t.day - 1 by omega)
      (show t.day - 1 ≤ daysInMonth t.year t.month by omega) hsecond
    exact ⟨s, .day hy.symm hm.symm (by omega), hwhole, hs⟩

theorem exists_dayAfter {t : Timestamp} (hyear : t.year < lastYear) {second : Nat}
    (hsecond : second < 86400) :
    ∃ u : Timestamp, DayAfter t u ∧ u.nanosecond = 0 ∧ u.secondOfDay = second := by
  obtain ⟨hfirst, hlast, hday, hlength, -⟩ := t.valid
  have htwelve := (daysInMonth_bounds (Nat.le_trans hday hlength)).1
  by_cases hlastDay : t.day = daysInMonth t.year t.month
  · by_cases hdecember : t.month = 12
    · have hthirtyFirst := (daysBeforeMonth_december t.year).2
      obtain ⟨u, hy, hm, hd, hwhole, hu⟩ := exists_onDay (show firstYear ≤ t.year + 1 by omega)
        (by omega) (Nat.le_refl 1) (one_le_daysInMonth (t.year + 1) 1 (by omega) (by omega)) hsecond
      refine ⟨u, .year hdecember ?_ hy hm hd, hwhole, hu⟩
      rw [hlastDay, hdecember, hthirtyFirst]
    · obtain ⟨u, hy, hm, hd, hwhole, hu⟩ := exists_onDay hfirst hlast (Nat.le_refl 1)
        (one_le_daysInMonth t.year (t.month + 1) (by omega) (by omega)) hsecond
      exact ⟨u, .month hlastDay hy hm hd, hwhole, hu⟩
  · obtain ⟨u, hy, hm, hd, hwhole, hu⟩ := exists_onDay hfirst hlast (show 1 ≤ t.day + 1 by omega)
      (show t.day + 1 ≤ daysInMonth t.year t.month by omega) hsecond
    exact ⟨u, .day hy hm hd, hwhole, hu⟩

theorem exists_earlier {t : Timestamp} (hyear : firstYear < t.year) {seconds : Nat}
    (hseconds : seconds < 86400) : ∃ s : Timestamp, s.nanosecond = 0 ∧ Later seconds s t := by
  obtain ⟨hfirst, hlast, hday, hlength, -⟩ := t.valid
  have hsecond := t.secondOfDay_lt
  by_cases h : seconds ≤ t.secondOfDay
  · obtain ⟨s, hy, hm, hd, hwhole, hs⟩ := exists_onDay hfirst hlast hday hlength
      (show t.secondOfDay - seconds < 86400 by omega)
    exact ⟨s, hwhole, .sameDay hy.symm hm.symm hd.symm (by omega)⟩
  · obtain ⟨s, hdate, hwhole, hs⟩ := exists_dayBefore hyear
      (show t.secondOfDay + 86400 - seconds < 86400 by omega)
    exact ⟨s, hwhole, .dayAfter hdate (by omega)⟩

theorem exists_later {t : Timestamp} (hyear : t.year < lastYear) {seconds : Nat}
    (hseconds : seconds < 86400) : ∃ u : Timestamp, u.nanosecond = 0 ∧ Later seconds t u := by
  obtain ⟨hfirst, hlast, hday, hlength, -⟩ := t.valid
  have hsecond := t.secondOfDay_lt
  by_cases h : t.secondOfDay + seconds < 86400
  · obtain ⟨u, hy, hm, hd, hwhole, hu⟩ := exists_onDay hfirst hlast hday hlength h
    exact ⟨u, hwhole, .sameDay hy hm hd hu⟩
  · obtain ⟨u, hdate, hwhole, hu⟩ := exists_dayAfter hyear
      (show t.secondOfDay + seconds - 86400 < 86400 by omega)
    exact ⟨u, hwhole, .dayAfter hdate (by omega)⟩

end CaseGateway.Timestamp
