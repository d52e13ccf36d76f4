import Espresso.LocalTime
import Espresso.Proofs.Calendar

namespace Espresso.LocalTime

def minuteOf (unix : Nat) (offset : Int) : Int := (unix + offset * 60) / 60

def moment (unix : Nat) (offset : Int) : Moment := .after (unix + offset * 60).toNat

structure InRange (unix : Nat) (offset : Int) : Prop where
  epoch_le : epoch ≤ unix
  year_le : (moment unix offset).date.year ≤ 262142

structure Reads (time : LocalTime) (unix : Nat) (offset : Int) : Prop where
  unix_eq : time.unix = unix
  hour_lt : time.hour < 24
  minute_lt : time.minute < 60
  weekday_eq : time.weekday = time.day % 7
  minute_eq : (time.day - firstDay) * 1440 + time.minuteOfDay = minuteOf unix offset

structure Shows (time : LocalTime) (m : Moment) : Prop where
  date : Date.next^[time.day] Date.origin = m.date
  weekday : time.weekday = m.weekday
  hour : time.hour = m.hour
  minute : time.minute = m.minute

variable {unix later : Nat} {offset : Int} {time a b : LocalTime}

theorem minuteOfDay_ofUnix (h : ofUnix unix offset = some time) :
    (time.minuteOfDay : Int) = minuteOf unix offset % 1440 := by
  unfold ofUnix at h
  dsimp only at h
  split at h
  · cases h
  · obtain rfl := Option.some.inj h
    simp only [minuteOfDay, minuteOf]
    omega

theorem exists_moment_eq (hlow : -720 ≤ offset) (h : epoch ≤ unix) :
    ∃ seconds : Nat, unix + offset * 60 = seconds ∧ moment unix offset = .after seconds := by
  unfold epoch at h
  obtain ⟨seconds, hseconds⟩ := Int.eq_ofNat_of_zero_le (a := unix + offset * 60) (by omega)
  refine ⟨seconds, hseconds, ?_⟩
  rw [moment, hseconds, Int.toNat_natCast]

theorem lt_epoch_iff : unix < epoch ↔ (moment unix 0).date.year < 2020 := by
  have hfirst : (Date.daysBefore (2019 + 1) - 719162) * 86400 = epoch := by decide
  have hmoment : moment unix 0 = .after unix := by
    rw [moment, Int.zero_mul, Int.add_zero, Int.toNat_natCast]
  have hyear := Moment.lt_year_after_iff 2019 unix
  rw [hfirst] at hyear
  rw [hmoment]
  omega

theorem year_le_iff (hlow : -720 ≤ offset) (h : epoch ≤ unix) :
    (moment unix offset).date.year ≤ 262142 ↔ unix + offset * 60 ≤ lastSecond := by
  obtain ⟨seconds, hseconds, hmoment⟩ := exists_moment_eq hlow h
  have hlast : (Date.daysBefore (262142 + 1) - 719162) * 86400 = lastSecond + 1 := by decide
  rw [hmoment, hseconds, ← Int.not_lt, Moment.lt_year_after_iff, hlast]
  omega

theorem inRange_iff (hlow : -720 ≤ offset) : InRange unix offset ↔
    ¬(unix < epoch ∨ greatestUnix < unix ∨ lastSecond < unix + offset * 60) := by
  constructor
  · rintro ⟨hepoch, hyear⟩
    rw [year_le_iff hlow hepoch] at hyear
    unfold lastSecond at hyear ⊢
    unfold greatestUnix
    omega
  · intro h
    have hepoch : epoch ≤ unix := by omega
    refine ⟨hepoch, (year_le_iff hlow hepoch).mpr ?_⟩
    omega

theorem not_inRange_iff : ¬InRange unix offset ↔
    unix < epoch ∨ 262142 < (moment unix offset).date.year := by
  have h : InRange unix offset ↔ epoch ≤ unix ∧ (moment unix offset).date.year ≤ 262142 :=
    ⟨fun h => ⟨h.epoch_le, h.year_le⟩, fun h => ⟨h.1, h.2⟩⟩
  rw [h, Classical.not_and_iff_not_or_not, Nat.not_le, Int.not_le]

theorem ofUnix_eq_none_iff (hlow : -720 ≤ offset) :
    ofUnix unix offset = none ↔ ¬InRange unix offset := by
  rw [inRange_iff hlow, Classical.not_not]
  unfold ofUnix
  dsimp only
  split
  · next h => exact iff_of_true rfl h
  · next h => exact iff_of_false nofun h

theorem inRange_of_ofUnix (hlow : -720 ≤ offset) (h : ofUnix unix offset = some time) :
    InRange unix offset := by
  by_contra hn
  rw [(ofUnix_eq_none_iff hlow).mpr hn] at h
  cases h

theorem exists_ofUnix (hlow : -720 ≤ offset) (h : InRange unix offset) :
    ∃ time, ofUnix unix offset = some time := by
  rw [← Option.ne_none_iff_exists', ne_eq, ofUnix_eq_none_iff hlow]
  exact not_not_intro h

theorem reads_ofUnix (hlow : -720 ≤ offset) (h : ofUnix unix offset = some time) :
    time.Reads unix offset := by
  unfold ofUnix at h
  dsimp only at h
  split at h
  · cases h
  · next hrange =>
    obtain rfl := Option.some.inj h
    unfold epoch at hrange
    constructor
    · rfl
    · dsimp only
      omega
    · dsimp only
      omega
    · simp only [firstDay]
      omega
    · simp only [firstDay, minuteOfDay, minuteOf]
      omega

theorem Reads.minuteOfDay_lt (h : time.Reads unix offset) : time.minuteOfDay < 1440 := by
  have hhour := h.hour_lt
  have hminute := h.minute_lt
  unfold minuteOfDay
  omega

theorem Reads.day_eq (h : time.Reads unix offset) :
    (time.day : Int) = (unix + offset * 60) / 86400 + firstDay := by
  have hread := h.minute_eq
  have hlt := h.minuteOfDay_lt
  unfold minuteOf at hread
  omega

theorem Reads.le (ha : a.Reads unix offset) (hb : b.Reads later offset) (h : unix ≤ later) :
    a.day < b.day ∨ a.day = b.day ∧ a.minuteOfDay ≤ b.minuteOfDay := by
  have hlta := ha.minuteOfDay_lt
  have hltb := hb.minuteOfDay_lt
  have hreada := ha.minute_eq
  have hreadb := hb.minute_eq
  unfold minuteOf at hreada hreadb
  omega

theorem shows_moment (hlow : -720 ≤ offset) (h : ofUnix unix offset = some time) :
    time.Shows (moment unix offset) := by
  have hreads := reads_ofUnix hlow h
  obtain ⟨seconds, hseconds, hmoment⟩ :=
    exists_moment_eq hlow (inRange_of_ofUnix hlow h).epoch_le
  have hday : (time.day : Int) = (seconds / 86400 : Nat) + 719163 := by
    rw [hreads.day_eq, hseconds, firstDay]
    omega
  obtain ⟨-, hmweekday, hmhour, hmminute, hmsecond, hmseconds⟩ := Moment.shows_after seconds
  obtain ⟨-, hhour, hminute, hweekday, hread⟩ := hreads
  unfold minuteOf minuteOfDay firstDay at hread
  rw [hmoment]
  constructor
  · apply (Moment.valid_date_after seconds).iterate_next_origin
    rw [Moment.number_date_after, hday]
  · omega
  · omega
  · omega

theorem isMidnight_moment_iff (hlow : -720 ≤ offset) (h : epoch ≤ unix) :
    (moment unix offset).IsMidnight ↔ (unix + offset * 60) % 86400 = 0 := by
  obtain ⟨seconds, hseconds, hmoment⟩ := exists_moment_eq hlow h
  rw [hmoment, hseconds, Moment.isMidnight_after_iff]
  omega

theorem day_succ (hlow : -720 ≤ offset) (ha : ofUnix unix offset = some a)
    (hb : ofUnix (unix + 1) offset = some b) :
    b.day = if (moment (unix + 1) offset).IsMidnight then a.day + 1 else a.day := by
  have hday := (reads_ofUnix hlow ha).day_eq
  have hnext := (reads_ofUnix hlow hb).day_eq
  simp only [isMidnight_moment_iff hlow (inRange_of_ofUnix hlow hb).epoch_le]
  split <;> omega

end Espresso.LocalTime
