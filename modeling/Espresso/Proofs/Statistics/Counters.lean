import Mathlib.Algebra.GroupWithZero.Nat
import Mathlib.Data.List.DropRight
import Espresso.Statistics.Change

namespace Espresso

theorem toNat_le_greatestCount (n : UInt32) : n.toNat ≤ greatestCount :=
  Nat.le_of_lt_succ n.toNat_lt

def Maintenance.covers (done kind : Maintenance) : Bool :=
  done = kind || (done = .backflush && kind = .groupClean)

namespace Statistics

inductive Counter where
  | shots
  | steamCycles
  | onMinutes
  | shotsToday
  | onMinutesToday
  | sessionShots
  | shotsSinceDescale
  | shotsSinceGroupClean
  | shotsSinceBackflush
  deriving DecidableEq

def count (s : Statistics) : Counter → UInt32
  | .shots => s.totalShots
  | .steamCycles => s.totalSteamCycles
  | .onMinutes => s.totalOnMinutes
  | .shotsToday => s.shotsToday
  | .onMinutesToday => s.onMinutesToday
  | .sessionShots => s.sessionShots
  | .shotsSinceDescale => s.shotsSinceDescale
  | .shotsSinceGroupClean => s.shotsSinceGroupClean
  | .shotsSinceBackflush => s.shotsSinceBackflush

def lastDone (s : Statistics) : Maintenance → UInt32
  | .descale => s.lastDescale
  | .groupClean => s.lastGroupClean
  | .backflush => s.lastBackflush

namespace Change

def day? : Change → Option UInt32
  | .rollDay day => some day
  | _ => none

def doneAt? (kind : Maintenance) : Change → Option UInt32
  | .maintenance done timestamp => if done.covers kind then some timestamp else none
  | _ => none

end Change

def latestDay (known : UInt32) (cs : List Change) : UInt32 :=
  (cs.filterMap Change.day?).foldl max known

def dated (known : UInt32) : List Change → List (UInt32 × Change)
  | [] => []
  | c :: cs => (known, c) :: dated (latestDay known [c]) cs

namespace Counter

def countsShots : Counter → Bool
  | .steamCycles | .onMinutes | .onMinutesToday => false
  | _ => true

def isDaily : Counter → Bool
  | .shotsToday | .onMinutesToday => true
  | _ => false

def kind? : Counter → Option Maintenance
  | .shotsSinceDescale => some .descale
  | .shotsSinceGroupClean => some .groupClean
  | .shotsSinceBackflush => some .backflush
  | _ => none

def gain (k : Counter) : Change → Nat
  | .shot => if k.countsShots then 1 else 0
  | .steamCycle => if k = .steamCycles then 1 else 0
  | .onMinutes minutes => if k = .onMinutes ∨ k = .onMinutesToday then minutes.toNat else 0
  | _ => 0

/-- Whether a counter begins anew with a change that comes when a day is known, zero for none. -/
def restarts (k : Counter) : UInt32 × Change → Bool
  | (_, .maintenance done _) => k.kind?.any done.covers
  | (_, .resetDaily) => k.isDaily
  | (known, .rollDay day) => k.isDaily && known ≠ 0 && known < day
  | (_, .startSession _) => k = .sessionShots
  | _ => false

def gained (k : Counter) (ds : List (UInt32 × Change)) : Nat := (ds.map fun d => k.gain d.2).sum

def recent (k : Counter) (ds : List (UInt32 × Change)) : List (UInt32 × Change) :=
  ds.rtakeWhile fun d => !k.restarts d

def tally (k : Counter) (s : Statistics) (cs : List Change) : Nat :=
  let ds := dated s.day cs
  (if ds.any k.restarts then 0 else (s.count k).toNat) + k.gained (k.recent ds)

end Counter

variable {k j : Counter} {s : Statistics} {c : Change} {cs : List Change}

theorem changes_append (s : Statistics) (cs : List Change) (c : Change) :
    s.changes (cs ++ [c]) = (s.changes cs).change c := List.foldl_append

theorem latestDay_append (known : UInt32) (first second : List Change) :
    latestDay known (first ++ second) = latestDay (latestDay known first) second := by
  rw [latestDay, List.filterMap_append, List.foldl_append]
  rfl

theorem dated_append (known : UInt32) (cs : List Change) (c : Change) :
    dated known (cs ++ [c]) = dated known cs ++ [(latestDay known cs, c)] := by
  induction cs generalizing known with
  | nil => rfl
  | cons b cs ih =>
    rw [List.cons_append, dated, ih, ← latestDay_append]
    rfl

theorem isNewDay_iff (s : Statistics) (day : UInt32) :
    s.isNewDay day = true ↔ s.day ≠ 0 ∧ s.day < day := by
  rw [isNewDay, Bool.and_eq_true, decide_eq_true_eq, decide_eq_true_eq]

theorem day_rollDay (s : Statistics) (day : UInt32) : (s.rollDay day).day = max s.day day := by
  rw [rollDay]
  split
  · next h =>
    rw [UInt32.max_def, if_pos (UInt32.le_of_lt ((s.isNewDay_iff day).mp h).2)]
  · rfl

theorem day_change (s : Statistics) (c : Change) : (s.change c).day = latestDay s.day [c] := by
  cases c with
  | rollDay day => exact s.day_rollDay day
  | energy amount =>
    show ((s.addEnergy amount).getD s).day = s.day
    rw [addEnergy]
    split <;> rfl
  | maintenance kind timestamp => cases kind <;> rfl
  | _ => rfl

theorem day_changes (s : Statistics) (cs : List Change) :
    (s.changes cs).day = latestDay s.day cs := by
  induction cs using List.reverseRecOn with
  | nil => rfl
  | append_singleton cs c ih => rw [changes_append, day_change, ih, latestDay_append]

theorem count_recordShot (s : Statistics) (k : Counter) :
    s.recordShot.count k = if k.countsShots then saturatingAdd (s.count k) 1 else s.count k := by
  cases k <;> rfl

theorem count_recordMaintenance (s : Statistics) (done : Maintenance) (timestamp : UInt32)
    (k : Counter) : (s.recordMaintenance done timestamp).count k =
      if k.kind?.any done.covers then 0 else s.count k := by
  cases done <;> cases k <;> rfl

theorem count_resetDaily (s : Statistics) (k : Counter) :
    s.resetDaily.count k = if k.isDaily then 0 else s.count k := by
  cases k <;> rfl

theorem count_rollDay (s : Statistics) (day : UInt32) (k : Counter) :
    (s.rollDay day).count k = if k.isDaily && s.isNewDay day then 0 else s.count k := by
  rw [rollDay]
  cases s.isNewDay day with
  | true => cases k <;> rfl
  | false =>
    rw [Bool.and_false]
    cases k <;> rfl

theorem toNat_count_change (s : Statistics) (c : Change) (k : Counter) :
    ((s.change c).count k).toNat =
      if k.restarts (s.day, c) then 0
      else min ((s.count k).toNat + k.gain c) greatestCount := by
  have hkept : (s.count k).toNat = min ((s.count k).toNat + 0) greatestCount :=
    (Nat.min_eq_left (toNat_le_greatestCount _)).symm
  cases c with
  | shot =>
    show (s.recordShot.count k).toNat = min ((s.count k).toNat + k.gain .shot) greatestCount
    rw [count_recordShot, Counter.gain]
    split
    · exact toNat_saturatingAdd _ 1
    · exact hkept
  | steamCycle =>
    cases k with
    | steamCycles => exact toNat_saturatingAdd _ 1
    | _ => exact hkept
  | energy amount =>
    have he : ((s.addEnergy amount).getD s).count k = s.count k := by
      rw [addEnergy]
      split
      · cases k <;> rfl
      · rfl
    exact (congrArg UInt32.toNat he).trans hkept
  | onMinutes minutes =>
    cases k with
    | onMinutes => exact toNat_saturatingAdd ..
    | onMinutesToday => exact toNat_saturatingAdd ..
    | _ => exact hkept
  | maintenance done timestamp =>
    show ((s.recordMaintenance done timestamp).count k).toNat =
      if k.kind?.any done.covers then 0 else _
    rw [count_recordMaintenance]
    split
    · rfl
    · exact hkept
  | resetDaily =>
    show (s.resetDaily.count k).toNat = if k.isDaily then 0 else _
    rw [count_resetDaily]
    split
    · rfl
    · exact hkept
  | rollDay day =>
    have hr : k.restarts (s.day, .rollDay day) = (k.isDaily && s.isNewDay day) := by
      rw [isNewDay, ← Bool.and_assoc]
      rfl
    show ((s.rollDay day).count k).toNat = _
    rw [count_rollDay, hr]
    split
    · rfl
    · exact hkept
  | startSession timestamp =>
    cases k with
    | sessionShots => rfl
    | _ => exact hkept

theorem Counter.tally_append (k : Counter) (s : Statistics) (cs : List Change) (c : Change) :
    k.tally s (cs ++ [c]) =
      if k.restarts (latestDay s.day cs, c) then 0 else k.tally s cs + k.gain c := by
  simp only [tally, dated_append, recent, List.rtakeWhile_concat, List.any_append, List.any_cons,
    List.any_nil, Bool.or_false]
  cases k.restarts (latestDay s.day cs, c) with
  | true => simp [gained]
  | false =>
    rw [Bool.or_false]
    simp [gained, Nat.add_assoc]

theorem toNat_count_changes (s : Statistics) (cs : List Change) (k : Counter) :
    ((s.changes cs).count k).toNat = min (k.tally s cs) greatestCount := by
  induction cs using List.reverseRecOn with
  | nil => exact (Nat.min_eq_left (toNat_le_greatestCount _)).symm
  | append_singleton cs c ih =>
    rw [changes_append, toNat_count_change, Counter.tally_append, day_changes, ih]
    split
    · rfl
    · omega

theorem lastDone_change (s : Statistics) (c : Change) (kind : Maintenance) :
    (s.change c).lastDone kind = (c.doneAt? kind).getD (s.lastDone kind) := by
  cases c with
  | energy amount =>
    show ((s.addEnergy amount).getD s).lastDone kind = s.lastDone kind
    rw [addEnergy]
    split
    · cases kind <;> rfl
    · rfl
  | maintenance done timestamp => cases done <;> cases kind <;> rfl
  | rollDay day =>
    show (s.rollDay day).lastDone kind = s.lastDone kind
    rw [rollDay]
    split <;> cases kind <;> rfl
  | _ => cases kind <;> rfl

theorem lastDone_changes (s : Statistics) (cs : List Change) (kind : Maintenance) :
    (s.changes cs).lastDone kind =
      (cs.filterMap (Change.doneAt? kind)).getLast?.getD (s.lastDone kind) := by
  induction cs using List.reverseRecOn with
  | nil => rfl
  | append_singleton cs c ih =>
    rw [changes_append, lastDone_change, ih, List.filterMap_append, List.getLast?_append,
      Option.getD_or]
    cases h : c.doneAt? kind <;> simp [h]

theorem Counter.gained_recent_le {ds : List (UInt32 × Change)}
    (hg : ∀ c, k.gain c ≤ j.gain c) (hr : ∀ d, j.restarts d = true → k.restarts d = true) :
    k.gained (k.recent ds) ≤ j.gained (j.recent ds) := by
  induction ds using List.reverseRecOn with
  | nil => exact Nat.le_refl _
  | append_singleton ds d ih =>
    have hd := hg d.2
    rw [recent, recent, List.rtakeWhile_concat, List.rtakeWhile_concat]
    cases hk : k.restarts d with
    | true => exact Nat.zero_le _
    | false =>
      have hj : j.restarts d = false := by
        rw [← Bool.not_eq_true]
        intro h
        exact Bool.false_ne_true (hk.symm.trans (hr d h))
      simp only [hj, Bool.not_false, if_true, gained, List.map_append, List.sum_append,
        List.map_cons, List.map_nil, List.sum_singleton]
      exact Nat.add_le_add ih hd

theorem Counter.count_le (hg : ∀ c, k.gain c ≤ j.gain c)
    (hr : ∀ d, j.restarts d = true → k.restarts d = true) (cs : List Change) :
    (zero.changes cs).count k ≤ (zero.changes cs).count j := by
  have hz (k : Counter) : (zero.count k).toNat = 0 := by
    cases k <;> rfl
  rw [UInt32.le_iff_toNat_le, toNat_count_changes, toNat_count_changes, tally, tally, hz, hz,
    ite_self, ite_self, Nat.zero_add, Nat.zero_add]
  have hle : k.gained (k.recent (dated zero.day cs)) ≤ j.gained (j.recent (dated zero.day cs)) :=
    gained_recent_le hg hr
  omega

theorem count_le_totalShots (hk : k.countsShots = true) (cs : List Change) :
    (zero.changes cs).count k ≤ (zero.changes cs).totalShots := by
  apply Counter.count_le (j := .shots)
  · intro c
    cases k with
    | steamCycles => cases hk
    | onMinutes => cases hk
    | onMinutesToday => cases hk
    | _ => cases c <;> exact Nat.le_refl _
  · rintro ⟨known, c⟩ hr
    cases c <;> cases hr

theorem shotsSinceGroupClean_le (cs : List Change) :
    (zero.changes cs).shotsSinceGroupClean ≤ (zero.changes cs).shotsSinceBackflush := by
  apply Counter.count_le (k := .shotsSinceGroupClean) (j := .shotsSinceBackflush)
  · intro c
    cases c <;> exact Nat.le_refl _
  · rintro ⟨known, c⟩ hr
    cases c with
    | maintenance done timestamp =>
      cases done with
      | backflush => rfl
      | _ => cases hr
    | _ => cases hr

/-- Whatever happens, every counter is the sum of what it has gained since it last began anew, cut
off at the greatest count. The day is the latest one seen, and a day is new if it is later than that,
unless no day was known. Hence the counters of a fresh start keep an order. -/
theorem counts_exactly (s : Statistics) (cs : List Change) :
    (∀ k : Counter, ((s.changes cs).count k).toNat = min (k.tally s cs) greatestCount) ∧
    (s.changes cs).day = latestDay s.day cs ∧
    (∀ day, (s.changes cs).isNewDay day = true ↔
      latestDay s.day cs ≠ 0 ∧ latestDay s.day cs < day) ∧
    (∀ kind, (s.changes cs).lastDone kind =
      (cs.filterMap (Change.doneAt? kind)).getLast?.getD (s.lastDone kind)) ∧
    let fresh := zero.changes cs
    fresh.shotsSinceGroupClean ≤ fresh.shotsSinceBackflush ∧
    fresh.shotsSinceBackflush ≤ fresh.totalShots ∧
    fresh.shotsSinceDescale ≤ fresh.totalShots ∧
    fresh.shotsToday ≤ fresh.totalShots ∧
    fresh.sessionShots ≤ fresh.totalShots := by
  refine ⟨s.toNat_count_changes cs, s.day_changes cs, ?_, s.lastDone_changes cs, ?_⟩
  · intro day
    rw [isNewDay_iff, day_changes]
  · exact ⟨shotsSinceGroupClean_le cs, count_le_totalShots (k := .shotsSinceBackflush) rfl cs,
      count_le_totalShots (k := .shotsSinceDescale) rfl cs,
      count_le_totalShots (k := .shotsToday) rfl cs, count_le_totalShots (k := .sessionShots) rfl cs⟩

end Statistics

end Espresso
