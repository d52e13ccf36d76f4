import Espresso.Proofs.LocalTime
import Espresso.Proofs.Schedule.Changes
import Espresso.Proofs.Schedule.Precedence
import Espresso.Proofs.Settings.Ranges

namespace Espresso

namespace LocalTime

def IsWhole (day : Nat) (offset : Int) : Prop :=
  ∀ second : Int, (second + offset * 60) / 86400 + firstDay = day →
    ∃ unix : Nat, second = unix ∧ InRange unix offset

def startOf (day minute : Nat) (offset : Int) : Int :=
  ((day - firstDay) * 1440 + minute - offset) * 60

variable {unix day minute : Nat} {offset : Int} {time : LocalTime}

theorem Reads.shows_minute_iff (h : time.Reads unix offset) (hm : minute < 1440) :
    time.day = day ∧ time.minuteOfDay = minute ↔
      startOf day minute offset ≤ unix ∧ unix < startOf day minute offset + 60 := by
  have hread := h.minute_eq
  have hlt := h.minuteOfDay_lt
  unfold minuteOf at hread
  unfold startOf
  omega

theorem IsWhole.inRange (h : IsWhole day offset) (hm : minute < 1440)
    (hunix : startOf day minute offset ≤ unix ∧ unix < startOf day minute offset + 60) :
    InRange unix offset := by
  unfold startOf at hunix
  obtain ⟨unix', heq, hrange⟩ := h unix (by omega)
  rwa [Int.ofNat.inj heq]

theorem IsWhole.exists_start (h : IsWhole day offset) (hm : minute < 1440) :
    ∃ start : Nat, startOf day minute offset = start := by
  obtain ⟨start, hstart, -⟩ := h (startOf day minute offset) (by unfold startOf; omega)
  exact ⟨start, hstart⟩

end LocalTime

namespace ScheduleEntry

open LocalTime

variable {e : ScheduleEntry} {unix day : Nat} {offset : Int} {time : LocalTime}

def minuteOfDay (e : ScheduleEntry) : Nat := e.hour.toNat * 60 + e.minute.toNat

theorem Timed.minuteOfDay_lt (h : e.Timed) : e.minuteOfDay < 1440 := by
  have hhour := UInt8.le_iff_toNat_le.mp h.hour
  have hminute := UInt8.le_iff_toNat_le.mp h.minute
  unfold minuteOfDay
  simp only [UInt8.reduceToNat] at hhour hminute
  omega

theorem Timed.isDue_iff (h : e.Timed) (ht : time.Reads unix offset) : e.IsDue time ↔
    e.enabled = true ∧ e.days.contains (time.day % 7) = true ∧ time.minuteOfDay = e.minuteOfDay := by
  have hminute := UInt8.le_iff_toNat_le.mp h.minute
  have hminute' := ht.minute_lt
  simp only [UInt8.reduceToNat] at hminute
  rw [← ht.weekday_eq, Days.contains, Bool.and_eq_true, decide_eq_true_eq, LocalTime.minuteOfDay,
    minuteOfDay]
  constructor
  · rintro ⟨henabled, hweekday, hday, hhour, hmin⟩
    exact ⟨henabled, ⟨hweekday, hday⟩, by rw [hhour, hmin]⟩
  · rintro ⟨henabled, ⟨hweekday, hday⟩, hmin⟩
    exact ⟨henabled, hweekday, hday, by omega, by omega⟩

theorem Timed.hits_on_day_iff (h : e.Timed) (he : e.enabled = true) (hlow : -720 ≤ offset)
    (hday : e.days.contains (day % 7) = true) :
    (∃ time, ofUnix unix offset = some time ∧ time.day = day ∧ e.hits time = true) ↔
      InRange unix offset ∧ startOf day e.minuteOfDay offset ≤ unix ∧
        unix < startOf day e.minuteOfDay offset + 60 := by
  constructor
  · rintro ⟨time, htime, rfl, hhits⟩
    have hreads := reads_ofUnix hlow htime
    have hdue := (h.isDue_iff hreads).mp (hits_iff.mp hhits)
    exact ⟨inRange_of_ofUnix hlow htime,
      (hreads.shows_minute_iff h.minuteOfDay_lt).mp ⟨rfl, hdue.2.2⟩⟩
  · rintro ⟨hrange, hunix⟩
    obtain ⟨time, htime⟩ := exists_ofUnix hlow hrange
    have hreads := reads_ofUnix hlow htime
    obtain ⟨rfl, hminute⟩ := (hreads.shows_minute_iff h.minuteOfDay_lt).mpr hunix
    exact ⟨time, htime, rfl, hits_iff.mpr ((h.isDue_iff hreads).mpr ⟨he, hday, hminute⟩)⟩

theorem Timed.exists_window (h : e.Timed) (he : e.enabled = true) (hlow : -720 ≤ offset)
    (hwhole : IsWhole day offset) (hday : e.days.contains (day % 7) = true) :
    ∃ start : Nat, ∀ unix,
      (∃ time, ofUnix unix offset = some time ∧ time.day = day ∧ e.hits time = true) ↔
        start ≤ unix ∧ unix < start + 60 := by
  obtain ⟨start, hstart⟩ := hwhole.exists_start h.minuteOfDay_lt
  refine ⟨start, fun unix => ?_⟩
  have hwindow : startOf day e.minuteOfDay offset ≤ unix ∧
      unix < startOf day e.minuteOfDay offset + 60 ↔ start ≤ unix ∧ unix < start + 60 := by omega
  rw [h.hits_on_day_iff he hlow hday, ← hwindow]
  exact and_iff_right_of_imp (hwhole.inRange h.minuteOfDay_lt)

end ScheduleEntry

namespace LocalTime

/-- At each offset that the settings can have, the clock shows what the calendar does as long as it
is set and the calendar lasts. So its minutes do not go back, its days end at midnight and only
there, and an entry is due for one minute of each of its days. -/
theorem ofUnix_faithful :
    (∀ offset, (∃ es, ((default : Settings).edits es).time.localOffset = offset) ↔
      -720 ≤ offset ∧ offset ≤ 960) ∧
    (∀ unix, unix < 1577836800 ↔ (moment unix 0).date.year < 2020) ∧
    ∀ offset, -720 ≤ offset → offset ≤ 960 →
      (∀ unix, ofUnix unix offset = none ↔
        unix < 1577836800 ∨ 262142 < (moment unix offset).date.year) ∧
      (∀ unix time, ofUnix unix offset = some time → time.Shows (moment unix offset) ∧
        time.unix = unix ∧ time.hour < 24 ∧ time.minute < 60 ∧ time.weekday = time.day % 7 ∧
        ((time.day : Int) - 719163) * 1440 + time.minuteOfDay = (unix + offset * 60) / 60) ∧
      (∀ unix later a b, unix ≤ later → ofUnix unix offset = some a →
        ofUnix later offset = some b →
        a.day < b.day ∨ a.day = b.day ∧ a.minuteOfDay ≤ b.minuteOfDay) ∧
      (∀ unix a b, ofUnix unix offset = some a → ofUnix (unix + 1) offset = some b →
        b.day = if (moment (unix + 1) offset).IsMidnight then a.day + 1 else a.day) ∧
      ∀ e : ScheduleEntry, e.enabled = true → e.validate = .ok () →
        (∀ day, IsWhole day offset → e.days.contains (day % 7) = true →
          ∃ start : Nat, ∀ unix,
            (∃ time, ofUnix unix offset = some time ∧ time.day = day ∧ e.hits time = true) ↔
              start ≤ unix ∧ unix < start + 60) ∧
        ∀ unix time, ofUnix unix offset = some time → e.hits time = true →
          e.days.contains (time.day % 7) = true := by
  refine ⟨fun _ => Settings.exists_localOffset_edits_iff, fun _ => lt_epoch_iff, ?_⟩
  intro offset hlow _
  refine ⟨?_, ?_, ?_, fun _ _ _ => day_succ hlow, ?_⟩
  · intro unix
    exact (ofUnix_eq_none_iff hlow).trans not_inRange_iff
  · intro unix time h
    obtain ⟨hunix, hhour, hminute, hweekday, hread⟩ := reads_ofUnix hlow h
    exact ⟨shows_moment hlow h, hunix, hhour, hminute, hweekday, hread⟩
  · intro unix later a b hle ha hb
    exact (reads_ofUnix hlow ha).le (reads_ofUnix hlow hb) hle
  · intro e he hv
    have htimed := e.validate_eq_ok.mp hv
    refine ⟨fun day => htimed.exists_window he hlow, ?_⟩
    intro unix time h hhits
    have hdue := (htimed.isDue_iff (reads_ofUnix hlow h)).mp (ScheduleEntry.hits_iff.mp hhits)
    exact hdue.2.1

theorem ofUnix_faithful_west :
    let e := ScheduleEntry.daily 23 0 .turnOff
    (-720 : Int) ≤ -120 ∧ (-120 : Int) ≤ 960 ∧ e.enabled = true ∧ e.validate = .ok () ∧
      IsWhole 738885 (-120) ∧ e.days.contains (738885 % 7) = true ∧
      (∃ time, ofUnix 1704070800 (-120) = some time ∧ time.Shows (moment 1704070800 (-120)) ∧
        time.weekday = 0 ∧ time.hour = 23 ∧ time.day = 738885) ∧
      ∃ start : Nat, ∀ unix,
        (∃ time, ofUnix unix (-120) = some time ∧ time.day = 738885 ∧ e.hits time = true) ↔
          start ≤ unix ∧ unix < start + 60 := by
  intro e
  have hwhole : IsWhole 738885 (-120) := by
    intro second h
    unfold firstDay at h
    obtain ⟨unix, hunix⟩ := Int.eq_ofNat_of_zero_le (a := second) (by omega)
    refine ⟨unix, hunix, (inRange_iff (by decide)).mpr ?_⟩
    unfold epoch greatestUnix lastSecond
    omega
  obtain ⟨-, hshows, -, -, hentries⟩ := ofUnix_faithful.2.2 (-120) (by decide) (by decide)
  obtain ⟨hwindow, -⟩ := hentries e rfl rfl
  exact ⟨by decide, by decide, rfl, rfl, hwhole, by decide,
    ⟨_, rfl, (hshows 1704070800 _ rfl).1, by decide, by decide, by decide⟩,
    hwindow 738885 hwhole (by decide)⟩

end LocalTime

end Espresso
