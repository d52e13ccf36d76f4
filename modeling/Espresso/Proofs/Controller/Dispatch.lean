import Mathlib.Data.List.Chain
import Espresso.Proofs.Controller.Watch
import Espresso.Proofs.LocalTime

namespace Espresso

def Step.InMinute (s : Step) (offset m : Int) : Prop :=
  ∃ unix, s.readings.unix = some unix ∧ LocalTime.minuteOf unix offset = m

theorem Tuning.scheduleCheckInterval_pos {t : Tuning} (h : t.validate = .ok ()) :
    0 < t.scheduleCheckInterval.toNat := (validate_eq_ok.mp h).2.1.1

theorem Call.ne_boot_of_remembers {call : Call} (h : call.forgets = false) : call ≠ .boot := by
  rintro rfl
  cases h

namespace Controller

def tickTimes (steps : List Step) : List Nat :=
  (steps.filter fun s => s.call.isTick).map fun s => s.readings.uptime

theorem tickTimes_of_tick {s : Step} (ht : s.call = .tick) (steps : List Step) :
    tickTimes (s :: steps) = s.readings.uptime :: tickTimes steps := by
  rw [tickTimes, List.filter_cons_of_pos (p := fun s : Step => s.call.isTick)
    (Call.isTick_eq_true.mpr ht)]
  rfl

theorem tickTimes_of_ne_tick {s : Step} (ht : s.call ≠ .tick) (steps : List Step) :
    tickTimes (s :: steps) = tickTimes steps := by
  rw [tickTimes, List.filter_cons_of_neg (p := fun s : Step => s.call.isTick)
    fun hq => ht (Call.isTick_eq_true.mp hq)]
  rfl

/-- Steps on a clock that goes with the uptime, the ticks no further apart than they are tuned to
be, the first one counted from `since`. The time of day means the same all along, and the engine is
not told to forget what it has done. -/
structure Steady (c : Controller) (base offset : Int) (since : Nat) (steps : List Step) : Prop where
  ticks : (since :: tickTimes steps).IsChain fun t u => t ≤ u ∧ u ≤ t + c.tuning.tickInterval.toNat
  clock : ∀ s ∈ steps, s.call = .tick → ∃ unix, s.readings.unix = some unix ∧
    (unix : Int) = base + (s.readings.uptime / 1000 : Nat) ∧
      (LocalTime.ofUnix unix offset).isSome
  remembers : ∀ s ∈ steps, s.call.forgets = false
  offset_eq : ∀ pre, pre <+: steps → (c.run pre).settings.time.localOffset = offset

def opening (base offset m : Int) : Int := 1000 * (60 * (m - offset) - base)

/-- What a controller that ticks regularly has noted at uptime `since`: it has looked at the schedule
less than an interval ago, and the engine holds the minute of that look. -/
structure OnTime (c : Controller) (base offset : Int) (start since : Nat) : Prop where
  sound : c.settings.schedule.Sound
  checked : c.lastScheduleCheck = none ∧ c.engine.lastMinute = none ∧ since = start ∨
    ∃ v n, c.lastScheduleCheck = some v ∧ v ≤ since ∧
      since < v + c.tuning.scheduleCheckInterval.toNat ∧ c.engine.lastMinute = some n ∧
        (n : Int) = (base + (v / 1000 : Nat) + offset * 60) / 60 % 1440

def CheckedSince (c : Controller) (t : Int) : Prop := ∃ v, c.lastScheduleCheck = some v ∧ t ≤ v

section

variable {c : Controller} {base offset m : Int} {start since : Nat} {s : Step} {steps : List Step}

theorem Steady.of_ne_tick (h : c.Steady base offset since (s :: steps)) (ht : s.call ≠ .tick) :
    (c.after s).Steady base offset since steps := by
  have hticks := h.ticks
  rw [tickTimes_of_ne_tick ht] at hticks
  constructor
  · rw [tuning_after]
    exact hticks
  · intro t hm
    exact h.clock t (List.mem_cons_of_mem _ hm)
  · intro t hm
    exact h.remembers t (List.mem_cons_of_mem _ hm)
  · intro pre hp
    exact h.offset_eq (s :: pre) (List.cons_prefix_cons.mpr ⟨rfl, hp⟩)

theorem Steady.of_tick (h : c.Steady base offset since (s :: steps)) (ht : s.call = .tick) :
    since ≤ s.readings.uptime ∧ s.readings.uptime ≤ since + c.tuning.tickInterval.toNat ∧
      (c.after s).Steady base offset s.readings.uptime steps := by
  have hticks := h.ticks
  rw [tickTimes_of_tick ht, List.isChain_cons_cons] at hticks
  obtain ⟨⟨hlo, hhi⟩, hticks⟩ := hticks
  refine ⟨hlo, hhi, ?_, ?_, ?_, ?_⟩
  · rw [tuning_after]
    exact hticks
  · intro t hm
    exact h.clock t (List.mem_cons_of_mem _ hm)
  · intro t hm
    exact h.remembers t (List.mem_cons_of_mem _ hm)
  · intro pre hp
    exact h.offset_eq (s :: pre) (List.cons_prefix_cons.mpr ⟨rfl, hp⟩)

theorem Steady.localTime (h : c.Steady base offset since (s :: steps)) (ht : s.call = .tick) :
    ∃ unix time, s.readings.unix = some unix ∧ c.localTime s.readings = some time ∧
      LocalTime.minuteOf unix offset =
        (base + (s.readings.uptime / 1000 : Nat) + offset * 60) / 60 ∧
      (time.minuteOfDay : Int) =
        (base + (s.readings.uptime / 1000 : Nat) + offset * 60) / 60 % 1440 := by
  obtain ⟨unix, hunix, hbase, hsome⟩ := h.clock s (List.mem_cons_self ..) ht
  obtain ⟨time, htime⟩ := Option.isSome_iff_exists.mp hsome
  have hoff : c.settings.time.localOffset = offset := h.offset_eq [] (List.nil_prefix ..)
  refine ⟨unix, time, hunix, ?_, ?_, ?_⟩
  · rw [Controller.localTime, hunix, hoff]
    exact htime
  · rw [LocalTime.minuteOf, hbase]
  · rw [LocalTime.minuteOfDay_ofUnix htime, LocalTime.minuteOf, hbase]

theorem OnTime.of_ne_tick (h : c.OnTime base offset start since) (ht : s.call ≠ .tick)
    (hf : s.call.forgets = false) : (c.after s).OnTime base offset start since := by
  have hw := follows_after c s ht (Call.ne_boot_of_remembers hf)
  have hl : (c.after s).lastScheduleCheck = c.lastScheduleCheck := hw.lastScheduleCheck
  have hm : (c.after s).engine.lastMinute = c.engine.lastMinute := by
    have := hw.lastMinute
    rw [hf] at this
    exact this
  constructor
  · exact sound_after c s h.sound
  · rw [hl, hm, tuning_after]
    exact h.checked

theorem checked_after_tick (ht : s.call = .tick) :
    (c.after s).lastScheduleCheck =
        (if c.looks s then some s.readings.uptime else c.lastScheduleCheck) ∧
      (c.after s).engine.lastMinute =
        if c.looks s then
          (c.localTime s.readings).elim c.engine.lastMinute fun t => some t.minuteOfDay
        else c.engine.lastMinute := by
  have hdue : (c.facing s).core.checkIsDue s.readings = c.looks s := (c.looks_of_tick ht).symm
  have hl : (c.after s).lastScheduleCheck = (c.after s).core.lastScheduleCheck := rfl
  have hm : (c.after s).engine.lastMinute = (c.after s).core.engine.lastMinute := rfl
  obtain ⟨medium, dirty, h⟩ := core_after_tick c s ht
  rw [hl, hm, h, Core.check, hdue]
  split
  · exact ⟨rfl, ScheduleEngine.lastMinute_tick ..⟩
  · exact ⟨rfl, rfl⟩

theorem looks_of_some (ht : s.call = .tick) {v : Nat} (hv : c.lastScheduleCheck = some v) :
    c.looks s = decide (c.tuning.scheduleCheckInterval.toNat ≤ s.readings.uptime - v) := by
  rw [c.looks_of_tick ht]
  show c.lastScheduleCheck.all _ = _
  rw [hv]
  rfl

theorem looks_of_none (ht : s.call = .tick) (hv : c.lastScheduleCheck = none) :
    c.looks s = true := by
  rw [c.looks_of_tick ht]
  show c.lastScheduleCheck.all _ = _
  rw [hv]
  rfl

theorem OnTime.of_tick (h : c.OnTime base offset start since)
    (hc : c.Steady base offset since (s :: steps)) (ht : s.call = .tick)
    (hi : 0 < c.tuning.scheduleCheckInterval.toNat) :
    (c.after s).OnTime base offset start s.readings.uptime := by
  obtain ⟨hlo, hhi, -⟩ := hc.of_tick ht
  obtain ⟨unix, time, -, htime, -, hminute⟩ := hc.localTime ht
  obtain ⟨hl, hm⟩ := checked_after_tick (c := c) ht
  refine ⟨sound_after c s h.sound, .inr ?_⟩
  rw [hl, hm, tuning_after, htime]
  by_cases hdue : c.looks s = true
  · rw [if_pos hdue, if_pos hdue]
    exact ⟨_, _, rfl, Nat.le_refl _, by omega, rfl, hminute⟩
  · rw [if_neg hdue, if_neg hdue]
    rcases h.checked with ⟨hv, -⟩ | ⟨v, n, hv, hle, hlt, hn, hmod⟩
    · exact absurd (looks_of_none ht hv) hdue
    · rw [looks_of_some ht hv, decide_eq_true_eq] at hdue
      exact ⟨v, n, hv, by omega, by omega, hn, hmod⟩

theorem filter_announcedBy_due (h : c.OnTime base offset start since)
    (hc : c.Steady base offset since (s :: steps)) (ht : s.call = .tick)
    (hf : c.tuning.scheduleCheckInterval.toNat + c.tuning.tickInterval.toNat ≤ 60000)
    (hdue : c.looks s = true) {time : LocalTime}
    (htime : c.localTime s.readings = some time) :
    ((∀ v, c.lastScheduleCheck = some v → (base + (v / 1000 : Nat) + offset * 60) / 60 <
          (base + (s.readings.uptime / 1000 : Nat) + offset * 60) / 60) →
        (c.announcedBy s).filter (fun e => e.id ≠ 0) =
          (ScheduleEntry.winner (c.settings.schedule.entries.filter fun e => e.hits time)).toList) ∧
      (∀ v, c.lastScheduleCheck = some v → (base + (v / 1000 : Nat) + offset * 60) / 60 =
          (base + (s.readings.uptime / 1000 : Nat) + offset * 60) / 60 →
        (c.announcedBy s).filter (fun e => e.id ≠ 0) = []) := by
  obtain ⟨hlo, hhi, -⟩ := hc.of_tick ht
  obtain ⟨unix, time', -, htime', -, hminute⟩ := hc.localTime ht
  obtain rfl : time = time' := Option.some.inj (htime.symm.trans htime')
  have hann : (c.announcedBy s).filter (fun e => e.id ≠ 0) =
      (c.engine.evaluate c.settings.schedule (some time)).1.toList := by
    rw [announcedBy_of_tick c s ht, if_pos hdue, ← htime]
    exact (ScheduleEngine.filter_fst_tick _ _ _ _ _ _ h.sound.id_ne_zero).2
  rw [hann, ScheduleEngine.evaluate]
  -- The look before was so short a time ago that a minute of day seen again is the same minute.
  constructor
  · intro hlast
    have hne : c.engine.lastMinute ≠ some time.minuteOfDay := by
      rcases h.checked with ⟨-, hn, -⟩ | ⟨v, n, hv, hle, hlt, hn, hmod⟩
      · rw [hn]
        exact fun he => nomatch he
      · rw [hn]
        intro he
        obtain rfl := Option.some.inj he
        have hmv := hlast v hv
        omega
    rw [if_neg hne]
  · intro v hv hsame
    rcases h.checked with ⟨hn, -⟩ | ⟨v', n, hv', hle, hlt, hn, hmod⟩
    · rw [hn] at hv
      cases hv
    · obtain rfl := Option.some.inj (hv.symm.trans hv')
      have he : c.engine.lastMinute = some time.minuteOfDay := by
        rw [hn]
        congr 1
        omega
      rw [if_pos he]
      rfl

theorem lastScheduleCheck_of_quiet (ht : s.call ≠ .tick) (hb : s.call ≠ .boot) :
    (c.after s).lastScheduleCheck = c.lastScheduleCheck :=
  (follows_after c s ht hb).lastScheduleCheck

theorem exists_first_check {t : Int} (h : c.OnTime base offset start since)
    (hc : c.Steady base offset since steps) (hi : 0 < c.tuning.scheduleCheckInterval.toNat)
    (hf : c.tuning.scheduleCheckInterval.toNat + c.tuning.tickInterval.toNat ≤ 60000)
    (hstart : start ≤ t) (hearly : ¬c.CheckedSince t)
    (hend : ∃ u ∈ tickTimes steps, t + 59999 ≤ u) :
    ∃ pre s post, steps = pre ++ s :: post ∧ (c.run pre).looks s = true ∧
      ¬(c.run pre).CheckedSince t ∧ t ≤ s.readings.uptime ∧ s.readings.uptime < t + 60000 := by
  induction steps generalizing c since with
  | nil =>
    obtain ⟨u, hu, -⟩ := hend
    cases hu
  | cons s steps ih =>
    obtain ⟨u, hu, hle⟩ := hend
    have hback (hc' : ∃ since, (c.after s).OnTime base offset start since ∧
          (c.after s).Steady base offset since steps) (hearly' : ¬(c.after s).CheckedSince t)
        (hu' : u ∈ tickTimes steps) :
        ∃ pre s' post, s :: steps = pre ++ s' :: post ∧ (c.run pre).looks s' = true ∧
          ¬(c.run pre).CheckedSince t ∧ t ≤ s'.readings.uptime ∧ s'.readings.uptime < t + 60000 := by
      obtain ⟨since', h', hc'⟩ := hc'
      obtain ⟨pre, s', post, rfl, hs'⟩ := ih h' hc' (by rwa [tuning_after]) (by rwa [tuning_after])
        hearly' ⟨u, hu', hle⟩
      exact ⟨s :: pre, s', post, rfl, hs'⟩
    by_cases ht : s.call = .tick
    · obtain ⟨hlo, hhi, hsteady⟩ := hc.of_tick ht
      have hon := h.of_tick hc ht hi
      have hl := (checked_after_tick (c := c) ht).1
      rw [tickTimes_of_tick ht, List.mem_cons] at hu
      -- A tick at the end of the minute is due, for the last look is more than an interval old.
      by_cases hdue : c.looks s = true
      · rw [if_pos hdue] at hl
        by_cases hopen : t ≤ s.readings.uptime
        · refine ⟨[], s, steps, rfl, hdue, hearly, hopen, ?_⟩
          rcases h.checked with ⟨-, -, rfl⟩ | ⟨v, n, hv, hle, hlt, -⟩
          · omega
          · have : ¬t ≤ v := fun hv' => hearly ⟨v, hv, hv'⟩
            omega
        · refine hback ⟨_, hon, hsteady⟩ ?_ (hu.resolve_left (by omega))
          rintro ⟨v, hv, hv'⟩
          obtain rfl := Option.some.inj (hl.symm.trans hv)
          exact hopen hv'
      · rw [if_neg hdue] at hl
        refine hback ⟨_, hon, hsteady⟩ ?_ (hu.resolve_left ?_)
        · rintro ⟨v, hv, hv'⟩
          exact hearly ⟨v, hl.symm.trans hv, hv'⟩
        · rcases h.checked with ⟨hv, -⟩ | ⟨v, n, hv, -⟩
          · exact absurd (looks_of_none ht hv) hdue
          · rw [looks_of_some ht hv, decide_eq_true_eq] at hdue
            have : ¬t ≤ v := fun hv' => hearly ⟨v, hv, hv'⟩
            omega
    · have hr := hc.remembers s (List.mem_cons_self ..)
      have hl := lastScheduleCheck_of_quiet (c := c) ht (Call.ne_boot_of_remembers hr)
      rw [tickTimes_of_ne_tick ht] at hu
      refine hback ⟨since, h.of_ne_tick ht hr, hc.of_ne_tick ht⟩ ?_ hu
      rintro ⟨v, hv, hv'⟩
      exact hearly ⟨v, hl.symm.trans hv, hv'⟩

theorem OnTime.run {pre rest : List Step} (h : c.OnTime base offset start since)
    (hc : c.Steady base offset since (pre ++ rest))
    (hi : 0 < c.tuning.scheduleCheckInterval.toNat) :
    ∃ t, (c.run pre).OnTime base offset start t ∧ (c.run pre).Steady base offset t rest ∧
      ∀ x, c.CheckedSince x → (c.run pre).CheckedSince x := by
  induction pre generalizing c since with
  | nil => exact ⟨since, h, hc, fun _ hx => hx⟩
  | cons s pre ih =>
    have hi' : 0 < (c.after s).tuning.scheduleCheckInterval.toNat := by rwa [tuning_after]
    by_cases ht : s.call = .tick
    · obtain ⟨hlo, -, hsteady⟩ := hc.of_tick ht
      obtain ⟨t, hon, hrest, hmono⟩ := ih (h.of_tick hc ht hi) hsteady hi'
      refine ⟨t, hon, hrest, fun x hx => hmono x ?_⟩
      obtain ⟨v, hv, hxv⟩ := hx
      have hl := (checked_after_tick (c := c) ht).1
      split at hl
      · refine ⟨_, hl, ?_⟩
        rcases h.checked with ⟨hn, -⟩ | ⟨v', n, hv', hle, -⟩
        · rw [hn] at hv
          cases hv
        · obtain rfl := Option.some.inj (hv.symm.trans hv')
          omega
      · exact ⟨v, hl.trans hv, hxv⟩
    · have hr := hc.remembers s (List.mem_cons_self ..)
      obtain ⟨t, hon, hrest, hmono⟩ := ih (h.of_ne_tick ht hr) (hc.of_ne_tick ht) hi'
      refine ⟨t, hon, hrest, fun x hx => hmono x ?_⟩
      obtain ⟨v, hv, hxv⟩ := hx
      exact ⟨v, (lastScheduleCheck_of_quiet ht (Call.ne_boot_of_remembers hr)).trans hv, hxv⟩

theorem filter_announcedBy_checked {pre rest : List Step} (h : c.OnTime base offset start since)
    (hc : c.Steady base offset since (pre ++ s :: rest))
    (hi : 0 < c.tuning.scheduleCheckInterval.toNat)
    (hf : c.tuning.scheduleCheckInterval.toNat + c.tuning.tickInterval.toNat ≤ 60000)
    (hchecked : c.CheckedSince (opening base offset m))
    (hs : s.call = .tick → s.InMinute offset m) :
    ((c.run pre).announcedBy s).filter (fun e => e.id ≠ 0) = [] := by
  obtain ⟨t, hon, hrest, hmono⟩ := h.run hc hi
  by_cases ht : s.call = .tick
  · by_cases hlooks : (c.run pre).looks s = true
    · obtain ⟨v, hv, hopen⟩ := hmono _ hchecked
      obtain ⟨unix, hunix, hminute⟩ := hs ht
      obtain ⟨unix', time, hunix', htime, hm, -⟩ := hrest.localTime ht
      obtain rfl := Option.some.inj (hunix.symm.trans hunix')
      refine (filter_announcedBy_due hon hrest ht ?_ hlooks htime).2 v hv ?_
      · rwa [tuning_run]
      · have hle : v ≤ s.readings.uptime := by
          obtain ⟨hlo, -⟩ := hrest.of_tick ht
          rcases hon.checked with ⟨hn, -⟩ | ⟨v', n, hv', hle, -⟩
          · rw [hn] at hv
            cases hv
          · obtain rfl := Option.some.inj (hv.symm.trans hv')
            omega
        rw [opening] at hopen
        omega
    · rw [announcedBy_of_tick _ s ht, if_neg hlooks]
      rfl
  · rw [announcedBy_of_ne_tick _ s ht]
    rfl

theorem looks_eq_false_of_fresh {pre mid rest : List Step} (h : c.OnTime base offset start since)
    (hc : c.Steady base offset since (pre ++ (s :: mid ++ rest)))
    (hi : 0 < c.tuning.scheduleCheckInterval.toNat)
    (hfresh : ¬(c.run (pre ++ s :: mid)).CheckedSince (opening base offset m))
    (hs : s.call = .tick → s.InMinute offset m) : (c.run pre).looks s = false := by
  rw [← Bool.not_eq_true]
  intro hlooks
  have ht : s.call = .tick := Call.isTick_eq_true.mp (Bool.and_eq_true_iff.mp hlooks).1
  obtain ⟨t, hon, hrest, -⟩ := h.run hc hi
  have hi' : 0 < (c.run pre).tuning.scheduleCheckInterval.toNat := by rwa [tuning_run]
  obtain ⟨unix, time, hunix, -, hminute, -⟩ := hrest.localTime ht
  obtain ⟨unix', hunix', hm⟩ := hs ht
  obtain rfl := Option.some.inj (hunix'.symm.trans hunix)
  have hchecked : ((c.run pre).after s).CheckedSince (opening base offset m) := by
    refine ⟨s.readings.uptime, ?_, ?_⟩
    · rw [(checked_after_tick ht).1, if_pos hlooks]
    · rw [opening]
      omega
  obtain ⟨-, -, -, hmono⟩ := (hon.of_tick hrest ht hi').run (hrest.of_tick ht).2.2
    (by rwa [tuning_after])
  apply hfresh
  rw [run_append, run_cons]
  exact hmono _ hchecked

theorem dispatches_nothing_beside {pre post pre' post' : List Step} {s' : Step}
    (h : c.OnTime base offset start since) (hc : c.Steady base offset since (pre ++ s :: post))
    (hi : 0 < c.tuning.scheduleCheckInterval.toNat)
    (hf : c.tuning.scheduleCheckInterval.toNat + c.tuning.tickInterval.toNat ≤ 60000)
    (hlooks : (c.run pre).looks s = true)
    (hfresh : ¬(c.run pre).CheckedSince (opening base offset m))
    (hlo : opening base offset m ≤ s.readings.uptime)
    (hsplit : pre ++ s :: post = pre' ++ s' :: post') (hne : pre' ≠ pre)
    (hmin : s'.call = .tick → s'.InMinute offset m) :
    ((c.run pre').announcedBy s').filter (fun e => e.id ≠ 0) = [] ∧
      (pre'.length < pre.length → (c.run pre').looks s' = false) := by
  rcases List.append_eq_append_iff.mp hsplit with ⟨mid, rfl, hmid⟩ | ⟨mid, rfl, hmid⟩
  · cases mid with
    | nil => exact absurd (List.append_nil pre) hne
    | cons s₁ mid =>
      obtain ⟨rfl, rfl⟩ := List.cons.inj hmid
      have ht : s.call = .tick := Call.isTick_eq_true.mp (Bool.and_eq_true_iff.mp hlooks).1
      obtain ⟨t, hpre, hrest, -⟩ := h.run hc hi
      have hi' : 0 < (c.run pre).tuning.scheduleCheckInterval.toNat := by rwa [tuning_run]
      refine ⟨?_, fun hlen => ?_⟩
      · rw [run_append, run_cons]
        apply filter_announcedBy_checked (hpre.of_tick hrest ht hi') (hrest.of_tick ht).2.2
        · rwa [tuning_after]
        · rwa [tuning_after, tuning_run]
        · refine ⟨s.readings.uptime, ?_, hlo⟩
          rw [(checked_after_tick ht).1, if_pos hlooks]
        · exact hmin
      · rw [List.length_append] at hlen
        omega
  · cases mid with
    | nil => exact absurd (List.append_nil pre').symm hne
    | cons s₁ mid =>
      obtain ⟨rfl, -⟩ := List.cons.inj hmid
      rw [List.append_assoc] at hc
      have hlooks' := looks_eq_false_of_fresh h hc hi hfresh hmin
      refine ⟨?_, fun _ => hlooks'⟩
      by_cases ht' : s'.call = .tick
      · rw [announcedBy_of_tick _ s' ht', hlooks']
        rfl
      · rw [announcedBy_of_ne_tick _ s' ht']
        rfl

theorem onTime_boot (c : Controller) (r : Readings) (base offset : Int) (since : Nat) :
    (c.boot r).OnTime base offset since since where
  sound := sound_boot c r
  checked := .inl ⟨congrArg Core.lastScheduleCheck (core_boot c r),
    congrArg (fun k : Core => k.engine.lastMinute) (core_boot c r), rfl⟩

/-- In every minute of a steady run the first look at the schedule carries out the winner among the
entries whose time has come, and nothing else of the table is carried out in that minute. -/
theorem dispatches_once_in_minute (c : Controller) (r : Readings) (hv : c.tuning.validate = .ok ())
    (hf : c.tuning.scheduleCheckInterval.toNat + c.tuning.tickInterval.toNat ≤ 60000)
    (hc : (c.boot r).Steady base offset since steps) (hopen : since ≤ opening base offset m)
    (hend : ∃ u ∈ tickTimes steps, opening base offset m + 59999 ≤ u) :
    ∃ pre s post time, steps = pre ++ s :: post ∧
      ((c.boot r).run pre).looks s = true ∧ s.InMinute offset m ∧
      ((c.boot r).run pre).localTime s.readings = some time ∧
      (((c.boot r).run pre).announcedBy s).filter (fun e => e.id ≠ 0) =
        (ScheduleEntry.winner (((c.boot r).run pre).settings.schedule.entries.filter fun e =>
          e.hits time)).toList ∧
      ∀ pre' s' post', steps = pre' ++ s' :: post' → pre' ≠ pre →
        (s'.call = .tick → s'.InMinute offset m) →
          (((c.boot r).run pre').announcedBy s').filter (fun e => e.id ≠ 0) = [] ∧
            (pre'.length < pre.length → ((c.boot r).run pre').looks s' = false) := by
  have hon := onTime_boot c r base offset since
  have htuning : (c.boot r).tuning = c.tuning := congrArg Core.tuning (core_boot c r)
  have hi : 0 < (c.boot r).tuning.scheduleCheckInterval.toNat := by
    rw [htuning]
    exact Tuning.scheduleCheckInterval_pos hv
  rw [← htuning] at hf
  have hnone : (c.boot r).lastScheduleCheck = none :=
    congrArg Core.lastScheduleCheck (core_boot c r)
  generalize c.boot r = b at *
  have hearly : ¬b.CheckedSince (opening base offset m) := by
    rintro ⟨v, hv, -⟩
    rw [hnone] at hv
    cases hv
  obtain ⟨pre, s, post, rfl, hlooks, hfresh, hlo, hhi⟩ :=
    exists_first_check hon hc hi hf hopen hearly hend
  have ht : s.call = .tick := Call.isTick_eq_true.mp (Bool.and_eq_true_iff.mp hlooks).1
  obtain ⟨t, hpre, hrest, -⟩ := hon.run hc hi
  have hi' : 0 < (b.run pre).tuning.scheduleCheckInterval.toNat := by rwa [tuning_run]
  have hf' : (b.run pre).tuning.scheduleCheckInterval.toNat +
      (b.run pre).tuning.tickInterval.toNat ≤ 60000 := by rwa [tuning_run]
  obtain ⟨unix, time, hunix, htime, hminute, -⟩ := hrest.localTime ht
  refine ⟨pre, s, post, time, rfl, hlooks, ⟨unix, hunix, ?_⟩, htime, ?_, ?_⟩
  · rw [opening] at hlo hhi
    omega
  · apply (filter_announcedBy_due hpre hrest ht hf' hlooks htime).1
    intro v hv
    have hbefore : ¬opening base offset m ≤ v := fun hle => hfresh ⟨v, hv, hle⟩
    rw [opening] at hbefore hlo
    omega
  · exact fun _ _ _ => dispatches_nothing_beside hon hc hi hf hlooks hfresh hlo

theorem dispatches_once_at_noon :
    let c := blank ⟨30000, 30000, 300000, 5000, 2000, 60000⟩ (.reliable .empty)
    let b := c.boot ⟨0, none, 0⟩
    let steps : List Step := [
      ⟨⟨0, none, 0⟩, fun _ => none, .command (.addSchedule (.daily 12 27 .turnOn))⟩,
      ⟨⟨30000, some 1600000050, 0⟩, fun _ => none, .tick⟩,
      ⟨⟨60000, some 1600000080, 0⟩, fun _ => none, .tick⟩]
    ∃ pre s post time, steps = pre ++ s :: post ∧
      (b.run pre).looks s = true ∧ s.InMinute 0 26666667 ∧
      (b.run pre).localTime s.readings = some time ∧
      ((b.run pre).announcedBy s).filter (fun e => e.id ≠ 0) =
        (ScheduleEntry.winner ((b.run pre).settings.schedule.entries.filter fun e =>
          e.hits time)).toList ∧
      ∀ pre' s' post', steps = pre' ++ s' :: post' → pre' ≠ pre →
        (s'.call = .tick → s'.InMinute 0 26666667) →
          ((b.run pre').announcedBy s').filter (fun e => e.id ≠ 0) = [] ∧
            (pre'.length < pre.length → (b.run pre').looks s' = false) := by
  refine @dispatches_once_in_minute 1600000020 0 26666667 0 _ _ _ rfl (by decide) ?_
    (by decide) ⟨60000, by simp [tickTimes, Call.isTick], by decide⟩
  constructor
  · decide
  · intro s hs ht
    simp only [List.mem_cons, List.not_mem_nil, or_false] at hs
    rcases hs with rfl | rfl | rfl
    · cases ht
    · exact ⟨_, rfl, by decide, rfl⟩
    · exact ⟨_, rfl, by decide, rfl⟩
  · intro s hs
    simp only [List.mem_cons, List.not_mem_nil, or_false] at hs
    rcases hs with rfl | rfl | rfl <;> rfl
  · intro pre hpre
    obtain ⟨n, rfl⟩ : ∃ n, pre = List.take n _ := ⟨_, List.prefix_iff_eq_take.mp hpre⟩
    rcases n with _ | _ | _ | _ | n <;> rfl

end

end Controller

end Espresso
