import Mathlib.Data.List.Sublists
import Espresso.Proofs.Schedule.Engine
import Espresso.Schedule.Pass

/-!
How often, and when, the engine looks into the table in a minute. It remembers the minute of day
of its last look and neither the day nor the minutes before.
-/

namespace Espresso

namespace LocalTime

def calendarMinute (t : LocalTime) : Nat × Nat := (t.day, t.minuteOfDay)

def Precedes (a b : LocalTime) : Prop :=
  a.day < b.day ∨ a.day = b.day ∧ a.minuteOfDay < b.minuteOfDay

instance (a b : LocalTime) : Decidable (a.Precedes b) := inferInstanceAs (Decidable (_ ∨ _))

def Forward (times : List LocalTime) : Prop := times.Pairwise fun a b => ¬b.Precedes a

instance (times : List LocalTime) : Decidable (Forward times) :=
  inferInstanceAs (Decidable (times.Pairwise _))

/-- A clock that, in whatever way it is set, does not come back to a minute of the calendar once it
has shown another minute of day. -/
def NeverReturns (times : List LocalTime) : Prop :=
  ∀ a c b, [a, c, b].Sublist times → a.calendarMinute = b.calendarMinute →
    c.minuteOfDay = a.minuteOfDay

variable {a b : LocalTime} {times : List LocalTime}

theorem calendarMinute_eq : a.calendarMinute = b.calendarMinute ↔
    a.day = b.day ∧ a.minuteOfDay = b.minuteOfDay := Prod.ext_iff

theorem Forward.neverReturns (h : Forward times) : NeverReturns times := by
  intro a c b hs hab
  have h := h.sublist hs
  simp only [List.pairwise_cons, List.mem_cons, List.not_mem_nil, or_false, forall_eq_or_imp,
    forall_eq] at h
  obtain ⟨⟨hca, -⟩, hbc, -⟩ := h
  rw [calendarMinute_eq] at hab
  unfold Precedes at hca hbc
  omega

theorem NeverReturns.sublist {kept : List LocalTime} (h : NeverReturns times)
    (hk : kept.Sublist times) : NeverReturns kept := by
  intro a c b hs
  exact h a c b (hs.trans hk)

theorem NeverReturns.of_left {c : LocalTime} (h : NeverReturns (a :: c :: times))
    (hc : c.minuteOfDay ≠ a.minuteOfDay) (hb : b ∈ times) :
    b.calendarMinute ≠ a.calendarMinute := by
  intro hba
  apply hc
  apply h a c b _ hba.symm
  exact ((List.singleton_sublist.mpr hb).cons_cons c).cons_cons a

end LocalTime

namespace ScheduleEngine

open LocalTime

variable {g : ScheduleEngine} {p q : Pass} {ps : List Pass} {a b : LocalTime}

theorem passes_cons (g : ScheduleEngine) (p : Pass) (ps : List Pass) :
    g.passes (p :: ps) = (g.pass p).2.passes ps := rfl

theorem shown_of_none (hp : p.time = none) : shown (p :: ps) = shown ps :=
  List.filterMap_cons_none hp

theorem shown_of_some (hp : p.time = some a) : shown (p :: ps) = a :: shown ps :=
  List.filterMap_cons_some hp

theorem shown_sublist (p : Pass) (ps : List Pass) : (shown ps).Sublist (shown (p :: ps)) :=
  (List.sublist_cons_self p ps).filterMap Pass.time

theorem fst_pass (g : ScheduleEngine) (p : Pass) : (g.pass p).1 =
    (g.chosen p).toList ++ if g.turnsOffIdle p then [.autoPowerOff] else [] := by
  cases p with
  | evaluate t time => exact (List.append_nil _).symm
  | tick t time mode shotActive now => exact fst_tick ..

theorem lastMinute_pass (g : ScheduleEngine) (p : Pass) :
    (g.pass p).2.lastMinute = p.time.elim g.lastMinute fun a => some a.minuteOfDay := by
  cases p with
  | evaluate t time => exact lastMinute_evaluate ..
  | tick t time mode shotActive now => exact lastMinute_tick ..

theorem lastMinute_passes (g : ScheduleEngine) (ps : List Pass) : (g.passes ps).lastMinute =
    (shown ps).getLast?.elim g.lastMinute fun a => some a.minuteOfDay := by
  induction ps generalizing g with
  | nil => rfl
  | cons p ps ih =>
    rw [passes_cons, ih, lastMinute_pass]
    cases hp : p.time with
    | none =>
      rw [shown_of_none hp]
      rfl
    | some a =>
      rw [shown_of_some hp, List.getLast?_cons]
      cases (shown ps).getLast? <;> rfl

theorem chosen_of_none (hp : p.time = none) : g.chosen p = none := by
  rw [chosen, hp]
  rfl

theorem chosen_of_eq (hp : p.time = some a) (h : g.lastMinute = some a.minuteOfDay) :
    g.chosen p = none := by
  rw [chosen, hp, evaluate, if_pos h]

theorem chosen_of_ne (hp : p.time = some a) (h : g.lastMinute ≠ some a.minuteOfDay) :
    g.chosen p = ScheduleEntry.winner (p.table.entries.filter fun e => e.hits a) := by
  rw [chosen, hp, evaluate, if_neg h]

theorem dispatches_of_chosen {e : ScheduleEntry} (hp : p.time = some a) (he : g.chosen p = some e) :
    g.dispatches (p :: ps) = (a, e) :: (g.pass p).2.dispatches ps := by
  rw [dispatches, hp, he]

theorem dispatches_of_not_chosen (he : g.chosen p = none) :
    g.dispatches (p :: ps) = (g.pass p).2.dispatches ps := by
  rw [dispatches, he]
  cases p.time <;> rfl

theorem dispatches_cases (g : ScheduleEngine) (p : Pass) (ps : List Pass) :
    (g.dispatches (p :: ps) = (g.pass p).2.dispatches ps) ∨
      ∃ a e, p.time = some a ∧ g.dispatches (p :: ps) = (a, e) :: (g.pass p).2.dispatches ps := by
  cases he : g.chosen p with
  | none => exact .inl (dispatches_of_not_chosen he)
  | some e =>
    cases hp : p.time with
    | none =>
      rw [chosen_of_none hp] at he
      cases he
    | some a => exact .inr ⟨a, e, rfl, dispatches_of_chosen hp he⟩

theorem mem_shown_of_mem_dispatches {d : LocalTime × ScheduleEntry} (hd : d ∈ g.dispatches ps) :
    d.1 ∈ shown ps := by
  induction ps generalizing g with
  | nil => cases hd
  | cons p ps ih =>
    have hsub := (shown_sublist p ps).subset
    rcases g.dispatches_cases p ps with h | ⟨a, e, hp, h⟩
    · rw [h] at hd
      exact hsub (ih hd)
    · rw [h, List.mem_cons] at hd
      rcases hd with rfl | hd
      · rw [shown_of_some hp]
        exact List.mem_cons_self ..
      · exact hsub (ih hd)

theorem dispatches_ne_of_remembered (hg : g.lastMinute = some a.minuteOfDay)
    (h : NeverReturns (a :: shown ps)) {d : LocalTime × ScheduleEntry}
    (hd : d ∈ g.dispatches ps) : d.1.calendarMinute ≠ a.calendarMinute := by
  induction ps generalizing g with
  | nil => cases hd
  | cons p ps ih =>
    cases hp : p.time with
    | none =>
      rw [dispatches_of_not_chosen (chosen_of_none hp)] at hd
      rw [shown_of_none hp] at h
      refine ih ?_ h hd
      rw [lastMinute_pass, hp]
      exact hg
    | some c =>
      rw [shown_of_some hp] at h
      -- A clock still in the minute of day leaves the engine as it is, and one that has left it does
      -- not show the minute of the calendar again.
      by_cases hc : c.minuteOfDay = a.minuteOfDay
      · rw [dispatches_of_not_chosen (chosen_of_eq hp (hg.trans (congrArg some hc.symm)))] at hd
        refine ih ?_ (h.sublist ((List.sublist_cons_self ..).cons_cons a)) hd
        rw [lastMinute_pass, hp, Option.elim, hc]
      · rcases List.mem_cons.mp (shown_of_some hp ▸ mem_shown_of_mem_dispatches hd) with hd | hd
        · rw [hd]
          exact fun hca => hc (calendarMinute_eq.mp hca).2
        · exact h.of_left hc hd

theorem nodup_dispatches (g : ScheduleEngine) {ps : List Pass} (h : NeverReturns (shown ps)) :
    ((g.dispatches ps).map fun d => d.1.calendarMinute).Nodup := by
  induction ps generalizing g with
  | nil => exact List.nodup_nil
  | cons p ps ih =>
    have hrest := h.sublist (shown_sublist p ps)
    rcases g.dispatches_cases p ps with hd | ⟨a, e, hp, hd⟩
    · rw [hd]
      exact ih _ hrest
    · rw [hd, List.map_cons, List.nodup_cons]
      refine ⟨?_, ih _ hrest⟩
      rw [List.mem_map]
      rintro ⟨d, hmem, hda⟩
      rw [shown_of_some hp] at h
      refine dispatches_ne_of_remembered ?_ h hmem hda
      rw [lastMinute_pass, hp]
      rfl

/-- However many passes there are, and whatever tables they come with: unless the clock comes back
to a minute that it has left, the engine hands on at most one entry of a table in a minute. A clock
that is never set back does not come back. -/
theorem dispatches_once_a_minute (g : ScheduleEngine) (ps : List Pass) :
    (NeverReturns (shown ps) → ((g.dispatches ps).map fun d => d.1.calendarMinute).Nodup) ∧
    (Forward (shown ps) → NeverReturns (shown ps)) ∧
    ∀ pre p post, ps = pre ++ p :: post → ((g.passes pre).pass p).1 =
      ((g.passes pre).chosen p).toList ++
        if (g.passes pre).turnsOffIdle p then [.autoPowerOff] else [] :=
  ⟨g.nodup_dispatches, Forward.neverReturns, fun pre p _ _ => fst_pass (g.passes pre) p⟩

theorem dispatches_once_a_minute_when_set :
    let t : ScheduleTable := ⟨[{ ScheduleEntry.daily 7 30 .turnOn with id := 1 },
      { ScheduleEntry.daily 6 0 .turnOff with id := 2 }], true, 1, 2⟩
    let ps : List Pass := [
      .evaluate t (LocalTime.ofUnix 1704094200 0),
      .tick t none .on false 60000,
      .tick t (LocalTime.ofUnix 1704094259 0) .on false 61000,
      .evaluate t (LocalTime.ofUnix 1704088800 0),
      .evaluate t (LocalTime.ofUnix 1704180600 0)]
    NeverReturns (shown ps) ∧
      (((start 0).dispatches ps).map fun d => d.1.calendarMinute).Nodup ∧
      ((start 0).dispatches ps).map (fun d => d.2.id) = [1, 2, 1] := by
  intro t ps
  have h : NeverReturns (shown ps) := by
    have hall : ∀ times ∈ (shown ps).sublists, ∀ a ∈ shown ps, ∀ c ∈ shown ps, ∀ b ∈ shown ps,
        times = [a, c, b] → a.calendarMinute = b.calendarMinute →
          c.minuteOfDay = a.minuteOfDay := by decide +kernel
    intro a c b hs hab
    have hmem := hs.subset
    simp only [List.cons_subset] at hmem
    exact hall _ (List.mem_sublists.mpr hs) a hmem.1 c hmem.2.1 b hmem.2.2.1 rfl hab
  exact ⟨h, (dispatches_once_a_minute (start 0) ps).1 h, by decide +kernel⟩

theorem dispatches_twice_when_set_back :
    let t : ScheduleTable := ⟨[{ ScheduleEntry.daily 7 30 .turnOn with id := 1 }], false, 60, 1⟩
    let ps : List Pass := [1704094200, 1704094140, 1704094200].map fun unix =>
      .evaluate t (LocalTime.ofUnix unix 0)
    ¬(((start 0).dispatches ps).map fun d => d.1.calendarMinute).Nodup := by
  decide +kernel

/-- A reading of a clock that is never set back, in another minute than the reading before: the
engine hands on the winner of that minute, unless the reading before was at the same time of another
day; then it takes the minute for the one it has handled, and hands on nothing. -/
theorem serves_new_minute (g : ScheduleEngine) {pre : List Pass} (hq : q.time = some b)
    (hforward : Forward (shown (pre ++ [q]))) :
    match (shown pre).getLast? with
    | none => g.lastMinute = none → (g.passes pre).chosen q =
        ScheduleEntry.winner (q.table.entries.filter fun e => e.hits b)
    | some a => a.calendarMinute ≠ b.calendarMinute →
        (a.minuteOfDay ≠ b.minuteOfDay → (g.passes pre).chosen q =
          ScheduleEntry.winner (q.table.entries.filter fun e => e.hits b)) ∧
        (a.minuteOfDay = b.minuteOfDay → a.day < b.day ∧ (g.passes pre).chosen q = none) := by
  have hlast := lastMinute_passes g pre
  cases hs : (shown pre).getLast? with
  | none =>
    intro hg
    rw [hs] at hlast
    apply chosen_of_ne hq
    rw [hlast, Option.elim, hg]
    exact nofun
  | some a =>
    intro hnew
    rw [hs] at hlast
    constructor
    · intro hne
      apply chosen_of_ne hq
      rw [hlast, Option.elim]
      exact fun h => hne (Option.some.inj h)
    · intro heq
      refine ⟨?_, chosen_of_eq hq (hlast.trans (congrArg some heq))⟩
      have hab : ¬b.Precedes a := by
        rw [shown, List.filterMap_append, Forward, List.pairwise_append] at hforward
        apply hforward.2.2 a (List.mem_of_getLast? hs) b
        rw [List.filterMap_cons_some hq]
        exact List.mem_cons_self ..
      rw [ne_eq, calendarMinute_eq] at hnew
      unfold Precedes at hab
      omega

theorem serves_new_minute_after_gap :
    let t : ScheduleTable := ⟨[{ ScheduleEntry.daily 7 30 .turnOn with id := 1 }], false, 60, 1⟩
    let pre : List Pass := [.evaluate t (LocalTime.ofUnix 1704141000 0), .evaluate t none]
    let q : Pass := .evaluate t (LocalTime.ofUnix 1704267000 0)
    Forward (shown (pre ++ [q])) ∧
      ((start 0).passes pre).chosen q = some { ScheduleEntry.daily 7 30 .turnOn with id := 1 } := by
  intro t pre q
  have hforward : Forward (shown (pre ++ [q])) := by decide +kernel
  refine ⟨hforward, ?_⟩
  have h := serves_new_minute (start 0) (rfl : q.time = some _) hforward
  exact (h (by decide +kernel)).1 (by decide +kernel)

theorem misses_same_time_of_next_day :
    let e : ScheduleEntry := { ScheduleEntry.daily 7 30 .turnOn with id := 1 }
    let t : ScheduleTable := ⟨[e], false, 60, 1⟩
    let pre : List Pass := [.evaluate t (LocalTime.ofUnix 1704094200 0)]
    let q : Pass := .evaluate t (LocalTime.ofUnix 1704180600 0)
    Forward (shown (pre ++ [q])) ∧ (shown (pre ++ [q])).Pairwise (fun a b => a.day ≠ b.day) ∧
      (∀ b ∈ shown [q], ScheduleEntry.winner (t.entries.filter fun e => e.hits b) = some e) ∧
      ((start 0).passes pre).chosen q = none := by
  decide +kernel

end ScheduleEngine

end Espresso
