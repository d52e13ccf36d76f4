import Espresso.Proofs.Controller.Frame
import Espresso.Proofs.Statistics.Counters

namespace Espresso

theorem Statistics.rollDay_of_le {s : Statistics} {day : UInt32} (h : day ≤ s.day) :
    s.isNewDay day = false ∧ s.rollDay day = s := by
  have hnew : s.isNewDay day = false := by simp [isNewDay, UInt32.not_lt.mpr h]
  have hmax : max s.day day = s.day := by
    rw [UInt32.max_def]
    split
    · next hle => exact UInt32.le_antisymm h hle
    · rfl
  rw [rollDay, hnew, hmax]
  exact ⟨rfl, rfl⟩

theorem Statistics.le_day_rollDay (s : Statistics) (day : UInt32) : day ≤ (s.rollDay day).day := by
  rw [day_rollDay, UInt32.max_def]
  split
  · exact UInt32.le_refl day
  · next h => exact UInt32.le_of_lt (UInt32.not_le.mp h)

namespace Controller

variable {c : Controller} {r r' : Readings} {s t : Step} {again : List Step}

structure Rests (c : Controller) (r : Readings) : Prop where
  shown : c.machine.live.uptime = r.uptime
  counted : c.lastTick = r.uptime
  carry : c.onTimeCarry < minute ∧ (c.machine.live.mode = .standby → c.onTimeCarry = 0)
  stats : r.uptime - c.lastStatsSave < c.tuning.statsSaveInterval.toNat
  history : c.historyDirty = true → r.uptime < c.historySaveDue
  day : ∀ time, c.localTime r = some time → UInt32.ofNat time.day ≤ c.stats.day
  schedule : ∃ last, c.lastScheduleCheck = some last ∧
    r.uptime - last < c.tuning.scheduleCheckInterval.toNat

namespace Rests

theorem congr (h : c.Rests r) (hu : r'.uptime = r.uptime) (hx : r'.unix = r.unix) :
    c.Rests r' := by
  have hl : c.localTime r' = c.localTime r := by rw [localTime, localTime, hx]
  obtain ⟨hshown, hcounted, hcarry, hstats, hhistory, hday, hschedule⟩ := h
  exact ⟨hu ▸ hshown, hu ▸ hcounted, hcarry, hu ▸ hstats, hu ▸ hhistory, hl ▸ hday, hu ▸ hschedule⟩

theorem setUptime (h : c.Rests r) :
    ({ c with machine := c.machine.setUptime r.uptime } : Controller) = c := by
  rw [Machine.setUptime, ← h.shown]

theorem creditOnTime (h : c.Rests r) : c.creditOnTime r.uptime = c := by
  obtain ⟨hlt, hzero⟩ := h.carry
  unfold Controller.creditOnTime
  rw [← h.counted, Nat.sub_self]
  split
  · next hm => rw [← hzero hm]
  · dsimp only
    rw [Nat.add_zero, Nat.mod_eq_of_lt hlt]
    exact if_pos hlt

theorem serviceStats (h : c.Rests r) : c.serviceStats r.uptime = c := if_pos h.stats

theorem serviceHistory (h : c.Rests r) : c.serviceHistory r = c :=
  if_neg fun hd => Nat.not_le.mpr (h.history hd.1) hd.2

theorem rollDay (h : c.Rests r) : c.rollDay r = c := by
  unfold Controller.rollDay
  split
  · rfl
  · next time ht =>
    obtain ⟨hnew, hroll⟩ := Statistics.rollDay_of_le (h.day time ht)
    simp [hnew, hroll]

theorem checkSchedule (h : c.Rests r) : c.checkSchedule r = c := by
  obtain ⟨last, hlast, hlt⟩ := h.schedule
  refine if_neg ?_
  simpa [hlast] using hlt

theorem tick (h : c.Rests r) : c.tick r = c := by
  rw [Controller.tick, h.setUptime, h.creditOnTime, h.serviceStats, h.serviceHistory, h.rollDay,
    h.checkSchedule]

theorem facing (h : c.Rests r) (t : Step) : (c.facing t).Rests r :=
  ⟨h.shown, h.counted, h.carry, h.stats, h.history, h.day, h.schedule⟩

theorem after (h : c.Rests t.readings) (ht : t.call = .tick) : c.after t = c.facing t := by
  rw [Controller.after, ht]
  exact (h.facing t).tick

theorem throughout (h : c.Rests r) (ha : ∀ t ∈ again, t.call = .tick ∧
    t.readings.uptime = r.uptime ∧ t.readings.unix = r.unix) :
    c.Throughout (fun d t => d.after t = d.facing t) again := by
  induction again generalizing c with
  | nil => trivial
  | cons t again ih =>
    obtain ⟨ht, hu, hx⟩ := ha t (List.mem_cons_self ..)
    have hafter : c.after t = c.facing t := (h.congr hu hx).after ht
    refine ⟨hafter, ih ?_ fun u hu => ha u (List.mem_cons_of_mem _ hu)⟩
    rw [hafter]
    exact h.facing t

end Rests

theorem creditOnTime_counted (c : Controller) (now : Nat) :
    ∃ stats outbox statsDirty onTimeCarry,
      (onTimeCarry < minute ∧ (c.machine.live.mode = .standby → onTimeCarry = 0)) ∧
      c.creditOnTime now = { c with stats, outbox, statsDirty, lastTick := now, onTimeCarry } := by
  unfold creditOnTime
  split
  · exact ⟨_, _, _, 0, ⟨by decide, fun _ => rfl⟩, rfl⟩
  · next hm =>
    dsimp only
    split
    · exact ⟨_, _, _, _, ⟨Nat.mod_lt _ (by decide), fun h => absurd h hm⟩, rfl⟩
    · exact ⟨_, _, _, _, ⟨Nat.mod_lt _ (by decide), fun h => absurd h hm⟩, rfl⟩

theorem serviceStats_waits (c : Controller) (now : Nat)
    (hv : 0 < c.tuning.statsSaveInterval.toNat) : ∃ medium statsDirty lastStatsSave,
      now - lastStatsSave < c.tuning.statsSaveInterval.toNat ∧
      c.serviceStats now = { c with medium, statsDirty, lastStatsSave } := by
  unfold serviceStats
  split
  · next hlt => exact ⟨_, _, _, hlt, rfl⟩
  · split
    · obtain ⟨medium, statsDirty, h⟩ := c.persistStats_frame now
      exact ⟨medium, statsDirty, now, by rwa [Nat.sub_self], h⟩
    · exact ⟨_, _, now, by rwa [Nat.sub_self], rfl⟩

theorem serviceHistory_waits (c : Controller) (r : Readings)
    (hv : 0 < c.tuning.historyRetryInterval.toNat) : ∃ medium historyDirty historySaveDue,
      (historyDirty = true → r.uptime < historySaveDue) ∧
      c.serviceHistory r = { c with medium, historyDirty, historySaveDue } := by
  have hretry : r.uptime < r.uptime + c.tuning.historyRetryInterval.toNat :=
    Nat.lt_add_of_pos_right hv
  unfold serviceHistory store
  split
  · dsimp only
    split
    · exact ⟨_, _, _, fun _ => hretry, rfl⟩
    · rcases c.history.save c.medium with ⟨_ | _, medium⟩
      · exact ⟨medium, _, _, fun _ => hretry, rfl⟩
      · exact ⟨medium, false, _, nofun, rfl⟩
  · next hd => exact ⟨_, _, _, fun hm => Nat.not_le.mp fun hle => hd ⟨hm, hle⟩, rfl⟩

theorem rollDay_seen (c : Controller) (r : Readings) : ∃ stats outbox statsDirty,
    (∀ time, c.localTime r = some time → UInt32.ofNat time.day ≤ stats.day) ∧
    c.rollDay r = { c with stats, outbox, statsDirty } := by
  unfold rollDay
  split
  · next hn => exact ⟨c.stats, c.outbox, c.statsDirty, hn ▸ nofun, rfl⟩
  · next time ht =>
    have hseen : ∀ t, c.localTime r = some t →
        UInt32.ofNat t.day ≤ (c.stats.rollDay (.ofNat time.day)).day := by
      intro t h
      obtain rfl := Option.some.inj (ht.symm.trans h)
      exact c.stats.le_day_rollDay _
    dsimp only
    split <;> exact ⟨_, _, _, hseen, rfl⟩

theorem checkSchedule_waits (c : Controller) (r : Readings)
    (hv : 0 < c.tuning.scheduleCheckInterval.toNat) : ∃ engine lastScheduleCheck outbox,
      (∃ last, lastScheduleCheck = some last ∧
        r.uptime - last < c.tuning.scheduleCheckInterval.toNat) ∧
      c.checkSchedule r = { c with engine, lastScheduleCheck, outbox } := by
  unfold checkSchedule
  split
  · exact ⟨_, some r.uptime, _, ⟨r.uptime, rfl, by rwa [Nat.sub_self]⟩, foldl_publish ..⟩
  · next hd =>
    refine ⟨_, c.lastScheduleCheck, _, ?_, rfl⟩
    cases hl : c.lastScheduleCheck with
    | none => simp [hl] at hd
    | some last => exact ⟨last, rfl, by simpa [hl] using hd⟩

theorem rests_tick (hv : c.tuning.validate = .ok ()) (r : Readings) : (c.tick r).Rests r := by
  obtain ⟨-, ⟨hcheck, -⟩, hsave, hretry⟩ := Tuning.validate_eq_ok.mp hv
  let c₀ : Controller := { c with machine := c.machine.setUptime r.uptime }
  -- The parts leave one another's work alone, so that each stays done when all are.
  obtain ⟨_, _, _, _, hcarry, h₁⟩ := c₀.creditOnTime_counted r.uptime
  obtain ⟨_, _, _, hstats, h₂⟩ := serviceStats_waits (c₀.creditOnTime r.uptime) r.uptime
    (by rwa [h₁])
  rw [h₁] at h₂ hstats
  obtain ⟨_, _, _, hhistory, h₃⟩ := serviceHistory_waits
    ((c₀.creditOnTime r.uptime).serviceStats r.uptime) r (by rwa [h₁, h₂])
  rw [h₁, h₂] at h₃
  obtain ⟨_, _, _, hday, h₄⟩ := rollDay_seen
    (((c₀.creditOnTime r.uptime).serviceStats r.uptime).serviceHistory r) r
  rw [h₁, h₂, h₃] at h₄ hday
  obtain ⟨_, _, _, hschedule, h₅⟩ := checkSchedule_waits
    ((((c₀.creditOnTime r.uptime).serviceStats r.uptime).serviceHistory r).rollDay r) r
    (by rwa [h₁, h₂, h₃, h₄])
  rw [h₁, h₂, h₃, h₄] at h₅ hschedule
  rw [tick, h₁, h₂, h₃, h₄, h₅]
  exact ⟨rfl, rfl, hcarry, hstats, hhistory, hday, hschedule⟩

/-- However often a controller ticks at one time, all but the first of the ticks do nothing: they
change neither the controller nor what is stored, try to store nothing and publish nothing, whatever
the store refuses and however much memory is free. -/
theorem ticks_once_at_a_time (hv : c.tuning.validate = .ok ()) (hs : s.call = .tick)
    (ha : ∀ t ∈ again, t.call = .tick ∧ t.readings.uptime = s.readings.uptime ∧
      t.readings.unix = s.readings.unix) :
    (c.after s).Throughout (fun d t => d.after t = d.facing t ∧
      (d.after t).medium.store = d.medium.store ∧ (d.after t).medium.attempts = [] ∧
      (d.after t).outbox = []) again := by
  have hrests : (c.after s).Rests s.readings := by
    rw [after, hs]
    exact rests_tick (c := c.facing s) hv s.readings
  refine (hrests.throughout ha).mono ?_
  intro d t h
  rw [h]
  exact ⟨rfl, rfl, rfl, rfl⟩

theorem ticks_once_at_a_time_with_room :
    let c := ((blank default (.reliable .empty)).boot ⟨0, none, 0⟩).run [
      ⟨⟨0, none, 0⟩, fun _ => none, .command .startShot⟩,
      ⟨⟨25000, none, 0⟩, fun _ => none, .command .endShot⟩]
    let first : Step := ⟨⟨31000, some 1704094200, 0⟩, fun _ => none, .tick⟩
    let again : Step := ⟨⟨31000, some 1704094200, 100000⟩, fun _ => none, .tick⟩
    c.tuning.validate = .ok () ∧ (c.after first).historyDirty = true ∧
      (c.after first).after again = (c.after first).facing again ∧
      ((c.after first).after again).medium.attempts = [] := by
  intro c first again
  have hv : c.tuning.validate = .ok () := Tuning.validate_eq_ok.mpr (by decide +kernel)
  have hagain : ∀ t ∈ [again], t.call = .tick ∧ t.readings.uptime = first.readings.uptime ∧
      t.readings.unix = first.readings.unix := by simp [first, again]
  have h := ticks_once_at_a_time (s := first) hv rfl hagain
  exact ⟨hv, by decide +kernel, h.1.1, h.1.2.2.1⟩

end Controller

end Espresso
