import Mathlib.Logic.Function.Iterate
import Mathlib.Order.Monotone.Basic

/-!
The Gregorian calendar as it runs, from day to day and from second to second, also for the years in
which it was not yet in use.
-/

namespace Espresso

structure Date where
  year : Int
  month : Nat
  day : Nat
  deriving DecidableEq, Repr

namespace Date

def IsLeap (year : Int) : Prop := year % 4 = 0 ∧ (year % 100 ≠ 0 ∨ year % 400 = 0)

instance (year : Int) : Decidable (IsLeap year) := inferInstanceAs (Decidable (_ ∧ _))

def monthLength (year : Int) : Nat → Nat
  | 2 => if IsLeap year then 29 else 28
  | 4 | 6 | 9 | 11 => 30
  | _ => 31

def next (d : Date) : Date :=
  if d.day < monthLength d.year d.month then { d with day := d.day + 1 }
  else if d.month < 12 then { d with month := d.month + 1, day := 1 }
  else { year := d.year + 1, month := 1, day := 1 }

def origin : Date := ⟨0, 12, 31⟩

structure Valid (d : Date) : Prop where
  month_pos : 1 ≤ d.month
  month_le : d.month ≤ 12
  day_pos : 1 ≤ d.day
  day_le : d.day ≤ monthLength d.year d.month

def daysBefore (year : Int) : Int :=
  365 * (year - 1) + (year - 1) / 4 - (year - 1) / 100 + (year - 1) / 400

def daysOfMonths (year : Int) : Nat → Nat
  | 0 => 0
  | months + 1 => daysOfMonths year months + monthLength year (months + 1)

def number (d : Date) : Int := daysBefore d.year + daysOfMonths d.year (d.month - 1) + d.day

variable {d e : Date}

theorem monthLength_pos (year : Int) (month : Nat) : 1 ≤ monthLength year month := by
  unfold monthLength
  split <;> try split
  all_goals omega

theorem daysBefore_succ (year : Int) :
    daysBefore (year + 1) = daysBefore year + daysOfMonths year 12 := by
  by_cases h : IsLeap year
  all_goals
    simp only [daysBefore, daysOfMonths, monthLength, h, if_true, if_false]
    unfold IsLeap at h
    omega

theorem daysBefore_le {year later : Int} (h : year ≤ later) :
    daysBefore year ≤ daysBefore later := by
  unfold daysBefore
  omega

theorem daysOfMonths_le (year : Int) {months later : Nat} (h : months ≤ later) :
    daysOfMonths year months ≤ daysOfMonths year later := by
  apply monotone_nat_of_le_succ _ h
  intro months
  exact Nat.le_add_right ..

theorem Valid.next (h : d.Valid) : d.next.Valid := by
  unfold Date.next
  split
  · next hday => exact ⟨h.month_pos, h.month_le, Nat.le_add_left .., hday⟩
  · split
    · next hmonth => exact ⟨Nat.le_add_left .., hmonth, Nat.le_refl _, monthLength_pos ..⟩
    · exact ⟨Nat.le_refl _, Nat.le_add_left .., Nat.le_refl _, monthLength_pos ..⟩

theorem Valid.daysOfMonths_month (h : d.Valid) : daysOfMonths d.year d.month =
    daysOfMonths d.year (d.month - 1) + monthLength d.year d.month := by
  obtain ⟨months, hmonth⟩ := Nat.exists_eq_add_of_le' h.month_pos
  rw [hmonth, Nat.add_sub_cancel, daysOfMonths]

theorem Valid.number_next (h : d.Valid) : d.next.number = d.number + 1 := by
  have hmonth := h.daysOfMonths_month
  have hday := h.day_le
  unfold Date.next
  split
  · simp only [number]
    omega
  · split
    · simp only [number, Nat.add_sub_cancel]
      omega
    · -- The month is the last one, and the year has the days of all twelve.
      have hlast : d.month = 12 := Nat.le_antisymm h.month_le (by omega)
      have hyear := daysBefore_succ d.year
      rw [← hlast] at hyear
      simp only [number, Nat.sub_self, daysOfMonths]
      omega

theorem Valid.number_bounds (h : d.Valid) :
    daysBefore d.year < d.number ∧ d.number ≤ daysBefore (d.year + 1) := by
  have hmonth := h.daysOfMonths_month
  have hrest := daysOfMonths_le d.year h.month_le
  have hyear := daysBefore_succ d.year
  have hpos := h.day_pos
  have hday := h.day_le
  unfold number
  omega

theorem Valid.lt_year_iff (h : d.Valid) (year : Int) :
    year < d.year ↔ daysBefore (year + 1) < d.number := by
  obtain ⟨hlow, hhigh⟩ := h.number_bounds
  constructor
  · intro hlt
    exact Int.lt_of_le_of_lt (daysBefore_le hlt) hlow
  · intro hlt
    by_contra hle
    have hyears := daysBefore_le (Int.add_le_add_right (Int.not_lt.mp hle) 1)
    omega

theorem Valid.number_lt_of_year_lt (hd : d.Valid) (he : e.Valid) (h : d.year < e.year) :
    d.number < e.number := by
  have hyears := daysBefore_le (Int.add_one_le_of_lt h)
  exact Int.lt_of_le_of_lt (Int.le_trans hd.number_bounds.2 hyears) he.number_bounds.1

theorem Valid.number_lt_of_month_lt (hd : d.Valid) (he : e.Valid) (hyear : d.year = e.year)
    (h : d.month < e.month) : d.number < e.number := by
  have hmonth := hd.daysOfMonths_month
  have hmonths := daysOfMonths_le d.year (Nat.le_sub_one_of_lt h)
  have hday := hd.day_le
  have hpos := he.day_pos
  unfold number
  rw [← hyear]
  omega

theorem Valid.eq_of_number_eq (hd : d.Valid) (he : e.Valid) (h : d.number = e.number) : d = e := by
  have hyear : d.year = e.year := by
    rcases Int.lt_trichotomy d.year e.year with hlt | heq | hgt
    · exact absurd h (hd.number_lt_of_year_lt he hlt).ne
    · exact heq
    · exact absurd h (he.number_lt_of_year_lt hd hgt).ne'
  have hmonth : d.month = e.month := by
    rcases Nat.lt_trichotomy d.month e.month with hlt | heq | hgt
    · exact absurd h (hd.number_lt_of_month_lt he hyear hlt).ne
    · exact heq
    · exact absurd h (he.number_lt_of_month_lt hd hyear.symm hgt).ne'
  obtain ⟨year, month, day⟩ := d
  obtain ⟨year', month', day'⟩ := e
  obtain rfl : year = year' := hyear
  obtain rfl : month = month' := hmonth
  dsimp only [number] at h
  obtain rfl : day = day' := by omega
  rfl

theorem Valid.iterate_next (h : d.Valid) (days : Nat) :
    (Date.next^[days] d).Valid ∧ (Date.next^[days] d).number = d.number + days := by
  induction days with
  | zero => exact ⟨h, (Int.add_zero _).symm⟩
  | succ days ih =>
    rw [Function.iterate_succ_apply']
    refine ⟨ih.1.next, ?_⟩
    rw [ih.1.number_next, ih.2]
    omega

theorem valid_origin : origin.Valid := ⟨by decide, by decide, by decide, by decide⟩

theorem number_origin : origin.number = 0 := by decide

theorem Valid.iterate_next_origin (h : d.Valid) {days : Nat} (hd : d.number = days) :
    Date.next^[days] origin = d := by
  obtain ⟨hvalid, hnumber⟩ := valid_origin.iterate_next days
  apply hvalid.eq_of_number_eq h
  rw [hnumber, number_origin, hd, Int.zero_add]

end Date

structure Moment where
  date : Date
  weekday : Nat
  hour : Nat
  minute : Nat
  second : Nat
  deriving DecidableEq, Repr

namespace Moment

def next (m : Moment) : Moment :=
  if m.second < 59 then { m with second := m.second + 1 }
  else if m.minute < 59 then { m with minute := m.minute + 1, second := 0 }
  else if m.hour < 23 then { m with hour := m.hour + 1, minute := 0, second := 0 }
  else { date := m.date.next, weekday := (m.weekday + 1) % 7, hour := 0, minute := 0, second := 0 }

def origin : Moment := { date := ⟨1970, 1, 1⟩, weekday := 4, hour := 0, minute := 0, second := 0 }

def after (seconds : Nat) : Moment := next^[seconds] origin

def IsMidnight (m : Moment) : Prop := m.hour = 0 ∧ m.minute = 0 ∧ m.second = 0

instance (m : Moment) : Decidable m.IsMidnight := inferInstanceAs (Decidable (_ ∧ _))

theorem valid_date_origin : origin.date.Valid := ⟨by decide, by decide, by decide, by decide⟩

theorem number_date_origin : origin.date.number = 719163 := by decide

structure Shows (m : Moment) (days seconds : Nat) : Prop where
  date : m.date = Date.next^[days] origin.date
  weekday : m.weekday = (days + 4) % 7
  hour_lt : m.hour < 24
  minute_lt : m.minute < 60
  second_lt : m.second < 60
  seconds_eq : seconds = 86400 * days + 3600 * m.hour + 60 * m.minute + m.second

variable {m : Moment} {days seconds : Nat}

theorem shows_origin : origin.Shows 0 0 := ⟨rfl, rfl, by decide, by decide, by decide, rfl⟩

theorem Shows.next (h : m.Shows days seconds) : ∃ days', m.next.Shows days' (seconds + 1) := by
  obtain ⟨hdate, hweekday, hhour, hminute, hsecond, hseconds⟩ := h
  unfold Moment.next
  split
  · next hlt =>
    refine ⟨days, hdate, hweekday, hhour, hminute, Nat.succ_lt_succ hlt, ?_⟩
    dsimp only
    omega
  · split
    · next hlt =>
      refine ⟨days, hdate, hweekday, hhour, Nat.succ_lt_succ hlt, Nat.succ_pos _, ?_⟩
      dsimp only
      omega
    · split
      · next hlt =>
        refine ⟨days, hdate, hweekday, Nat.succ_lt_succ hlt, Nat.succ_pos _, Nat.succ_pos _, ?_⟩
        dsimp only
        omega
      · refine ⟨days + 1, ?_, ?_, Nat.succ_pos _, Nat.succ_pos _, Nat.succ_pos _, ?_⟩
        · rw [Function.iterate_succ_apply', ← hdate]
        · dsimp only
          omega
        · dsimp only
          omega

theorem shows_after (seconds : Nat) : (after seconds).Shows (seconds / 86400) seconds := by
  -- The induction leaves the number of days open; what the moment shows then settles it.
  have hex : ∃ days, (after seconds).Shows days seconds := by
    induction seconds with
    | zero => exact ⟨0, shows_origin⟩
    | succ seconds ih =>
      obtain ⟨days, h⟩ := ih
      rw [after, Function.iterate_succ_apply']
      exact h.next
  obtain ⟨days, h⟩ := hex
  obtain rfl : days = seconds / 86400 := by
    have := h.seconds_eq
    have := h.hour_lt
    have := h.minute_lt
    have := h.second_lt
    omega
  exact h

theorem valid_date_after (seconds : Nat) : (after seconds).date.Valid := by
  rw [(shows_after seconds).date]
  exact (valid_date_origin.iterate_next _).1

theorem number_date_after (seconds : Nat) :
    (after seconds).date.number = (seconds / 86400 : Nat) + 719163 := by
  rw [(shows_after seconds).date, (valid_date_origin.iterate_next _).2, number_date_origin,
    Int.add_comm]

theorem isMidnight_after_iff (seconds : Nat) :
    (after seconds).IsMidnight ↔ seconds % 86400 = 0 := by
  obtain ⟨-, -, hhour, hminute, hsecond, hseconds⟩ := shows_after seconds
  unfold IsMidnight
  omega

theorem lt_year_after_iff (year : Int) (seconds : Nat) : year < (after seconds).date.year ↔
    (Date.daysBefore (year + 1) - 719162) * 86400 ≤ seconds := by
  rw [(valid_date_after seconds).lt_year_iff, number_date_after]
  omega

end Moment

end Espresso
