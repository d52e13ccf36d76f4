import Espresso.Proofs.Controller.Core
import Espresso.Proofs.Schedule.Engine
import Espresso.Proofs.Schedule.Table

namespace Espresso

/-- How a call that neither ticks nor boots leaves the watch over the schedule: the machine may have
been `stirred`, and the engine may have been told to `forget` its minute. -/
structure Core.Follows (k : Core) (r : Readings) (stirred forget : Bool) (k' : Core) : Prop where
  tuning : k'.tuning = k.tuning
  announced : k'.announced = k.announced
  lastScheduleCheck : k'.lastScheduleCheck = k.lastScheduleCheck
  lastActivity : k'.engine.lastActivity = if stirred then r.uptime else k.engine.lastActivity
  lastMinute : k'.engine.lastMinute = if forget then none else k.engine.lastMinute
  sound : k.settings.schedule.Sound → k'.settings.schedule.Sound

namespace Core.Follows

variable {k k' : Core} {r : Readings}

theorem refl (k : Core) (r : Readings) : k.Follows r false false k :=
  ⟨rfl, rfl, rfl, rfl, rfl, id⟩

theorem of_eq {m : Medium} {s : Settings} {h : ShotHistory} {d shot : Bool} {mode : MachineMode}
    (hs : s.schedule = k.settings.schedule)
    (he : k' = { k with
      medium := m
      settings := s
      history := h
      historyDirty := d
      mode
      shotActive := shot }) : k.Follows r false false k' := by
  subst he
  refine ⟨rfl, rfl, rfl, rfl, rfl, ?_⟩
  intro h
  rwa [hs]

theorem stir {stirred forget : Bool}
    (h : ({ k with engine := k.engine.resetIdle r.uptime } : Core).Follows r stirred forget k') :
    k.Follows r true forget k' where
  tuning := h.tuning
  announced := h.announced
  lastScheduleCheck := h.lastScheduleCheck
  lastActivity := by
    rw [h.lastActivity]
    cases stirred <;> rfl
  lastMinute := h.lastMinute
  sound := h.sound

end Core.Follows

def Command.forgets : Command → Bool
  | .factoryReset => true
  | _ => false

namespace Controller

def stirs (c : Controller) (r : Readings) : Command → Bool
  | .startShot => (c.startShot r).isSome
  | .endShot => (c.endShot r).isSome
  | .setMode mode => c.machine.live.mode = .standby && mode ≠ .standby
  | .factoryReset => true
  | _ => false

theorem stirs_of_isTelemetry (c : Controller) (r : Readings) {x : Command} (hx : x.isTelemetry) :
    c.stirs r x = false := by
  cases x <;> first | rfl | cases hx

theorem report_eq (k : Core) (t : MachineType) (force : Bool) :
    ∃ medium, ∃ settings : Settings, settings.schedule = k.settings.schedule ∧
      k.report t force = { k with medium, settings } := by
  simp only [Core.report]
  split
  · exact ⟨k.medium, k.settings, rfl, rfl⟩
  · refine ⟨_, _, ?_, rfl⟩
    rfl

theorem follows_report (k : Core) (r : Readings) (t : MachineType) (force : Bool) :
    k.Follows r false false (k.report t force) := by
  obtain ⟨medium, settings, hs, h⟩ := report_eq k t force
  exact .of_eq hs h

theorem follows_ifChanged {c : Controller} {r : Readings} {o : Option Controller} {stirred : Bool}
    (hs : o.isSome = false → stirred = false)
    (ho : ∀ d, o = some d → c.core.Follows r stirred false d.core) :
    c.core.Follows r stirred false (c.ifChanged o).2.core := by
  cases o with
  | none =>
    rw [hs rfl]
    exact .refl ..
  | some d => exact ho d rfl

theorem follows_setSchedule (c : Controller) (r : Readings) {t : ScheduleTable}
    (ht : c.settings.schedule.Sound → t.Sound) :
    c.core.Follows r false false (c.setSchedule t).core := by
  rw [core_setSchedule]
  exact ⟨rfl, rfl, rfl, rfl, rfl, ht⟩

theorem follows_map_setSchedule {c : Controller} {r : Readings} {t : Except Error ScheduleTable}
    (ht : ∀ u, t = .ok u → c.settings.schedule.Sound → u.Sound) :
    c.core.Follows r false false (c.ifGranted (t.map c.setSchedule)).2.core := by
  cases t with
  | error e => exact .refl ..
  | ok u => exact follows_setSchedule c r (ht u rfl)

theorem follows_perform (c : Controller) (r : Readings) (x : Command) :
    c.core.Follows r (c.stirs r x) x.forgets (c.perform r x).2.core := by
  cases x with
  | sample s => exact .of_eq rfl (core_observe c r s)
  | connectivity peer connected =>
    refine ifChanged_induction (.refl ..) ?_
    intro d hd
    exact .of_eq rfl (core_setConnected hd)
  | boardBoot version resetReason t =>
    rw [perform, core_bootBoard]
    exact follows_report ..
  | reportState state =>
    refine ifChanged_induction (.refl ..) ?_
    intro d hd
    exact .of_eq rfl (core_setState hd)
  | setMode mode =>
    apply follows_ifChanged
    · intro h
      rw [Controller.setMode, Option.isSome_map, Machine.setMode] at h
      by_cases hm : c.machine.live.mode = mode
      · simp [stirs, hm]
      · rw [if_neg hm] at h
        cases h
    · intro d hd
      obtain ⟨hne, hcore⟩ := core_setMode hd
      rw [hcore]
      by_cases hm : c.machine.live.mode = .standby
      · have hs : c.stirs r (.setMode mode) = true := by
          rw [hm] at hne
          simp [stirs, hm, hne.symm]
        simp only [hs, hm, if_true]
        exact .stir (.of_eq rfl rfl)
      · simp only [stirs, hm, if_false, decide_false, Bool.false_and]
        exact .of_eq rfl rfl
  | startShot =>
    apply follows_ifChanged
    · intro h
      exact h
    · intro d hd
      have hs : c.stirs r .startShot = true := by rw [stirs, hd]; rfl
      rw [hs, core_startShot hd]
      exact .stir (.of_eq rfl rfl)
  | endShot =>
    apply follows_ifChanged
    · intro h
      rwa [Option.isSome_map] at h
    · intro d hd
      obtain ⟨⟨shot, _⟩, he, rfl⟩ := Option.map_eq_some_iff.mp hd
      have hs : c.stirs r .endShot = true := by rw [stirs, he]; rfl
      rw [hs, (core_endShot he).2]
      exact .stir (.of_eq rfl rfl)
  | rateShot index rating =>
    refine ifGranted_induction (.refl ..) ?_
    intro d hd
    obtain ⟨history, -, h⟩ := core_rateShot hd
    exact .of_eq rfl h
  | clearHistory => exact .of_eq rfl (core_clearHistory c)
  | steamCycle => exact .of_eq rfl (core_setStats c _)
  | energy amount =>
    refine ifChanged_induction (.refl ..) ?_
    intro d hd
    exact .of_eq rfl (core_addEnergy hd)
  | maintenance kind => exact .of_eq rfl (core_recordMaintenance c r kind)
  | addSchedule e =>
    simp only [perform, addSchedule]
    cases ha : c.settings.schedule.add e with
    | error e => exact .refl ..
    | ok p => exact follows_setSchedule c r fun ht => ht.add ha
  | updateSchedule id e => exact follows_map_setSchedule fun u hu ht => ht.update hu
  | removeSchedule id => exact follows_map_setSchedule fun u hu ht => ht.remove hu
  | enableSchedule id enabled => exact follows_map_setSchedule fun u hu ht => ht.enable hu
  | autoOff enabled minutes => exact follows_map_setSchedule fun u hu ht => ht.setAutoOff hu
  | setMachineType t force =>
    show c.core.Follows r false false (c.setMachineType t force).2.core
    rw [core_setMachineType]
    exact follows_report ..
  | factoryReset =>
    rw [(perform_factoryReset c r).1, core_factoryReset]
    exact ⟨rfl, rfl, rfl, rfl, rfl, fun _ => ScheduleTable.sound_default⟩

theorem follows_handle (c : Controller) (r : Readings) (x : Command) :
    c.core.Follows r (!x.isTelemetry) x.forgets (c.handle r x).2.core := by
  have h := follows_perform c r x
  unfold handle
  split
  · next hx =>
    rw [stirs_of_isTelemetry c r hx] at h
    rwa [hx]
  · next hx =>
    rw [Bool.not_eq_true] at hx
    rw [hx]
    exact .stir (follows_perform (c.resetIdle r) r x)

theorem follows_applySection (c : Controller) (r : Readings) (name : String) (fields : Json) :
    c.core.Follows r false false (c.counted (c.applySection name fields)).2.core := by
  rcases core_applySection c name fields with h | ⟨n, h⟩
  · rw [h]
    exact .refl ..
  · exact .of_eq (Settings.schedule_set ..) h

theorem follows_applySettings (c : Controller) (r : Readings) (document : Json) :
    c.core.Follows r false false (c.counted (c.applySettings document)).2.core := by
  rcases core_applySettings c document with h | h
  · rw [h]
    exact .refl ..
  · exact .of_eq (Settings.schedule_patchAll ..) h

end Controller

def Call.forgets : Call → Bool
  | .command x => x.forgets
  | .direct x => x.forgets
  | .boot => true
  | _ => false

def Call.isTick : Call → Bool
  | .tick => true
  | _ => false

theorem Call.isTick_eq_true {q : Call} : q.isTick = true ↔ q = .tick := by
  cases q <;> simp [isTick]

namespace Controller

def announcedBy (c : Controller) (s : Step) : List ScheduleEntry := (c.after s).announced

def looks (c : Controller) (s : Step) : Bool := s.call.isTick && c.core.checkIsDue s.readings

/-- Whether a step counts as activity: a request of a user, granted or not, a shot that starts or
ends, a machine that leaves standby, a fresh start, and the rule of idle machines itself. -/
def stirring (c : Controller) (s : Step) : Bool :=
  match s.call with
  | .command x => !x.isTelemetry
  | .direct x => c.stirs s.readings x
  | .resetIdle => true
  | .boot => true
  | .tick => .autoPowerOff ∈ c.announcedBy s
  | _ => false

theorem stirs_facing (c : Controller) (s : Step) (r : Readings) (x : Command) :
    (c.facing s).stirs r x = c.stirs r x := by
  cases x with
  | startShot =>
    simp only [stirs, startShot, Option.isSome_map]
    rfl
  | endShot =>
    simp only [stirs, endShot, Option.isSome_map]
    rfl
  | _ => rfl

theorem follows_after (c : Controller) (s : Step) (ht : s.call ≠ .tick) (hb : s.call ≠ .boot) :
    (c.facing s).core.Follows s.readings (c.stirring s) s.call.forgets (c.after s).core := by
  rw [after, stirring]
  cases hq : s.call with
  | command x => exact follows_handle (c.facing s) s.readings x
  | direct x =>
    dsimp only
    rw [← stirs_facing c s]
    exact follows_perform (c.facing s) s.readings x
  | applySection name fields => exact follows_applySection ..
  | applySettings document => exact follows_applySettings ..
  | saveSection n => exact .of_eq rfl (core_saveSection ..)
  | saveAll =>
    obtain ⟨m, hm⟩ : ∃ m, (c.facing s).saveAll.2.core = { (c.facing s).core with medium := m } := by
      rw [core_saveAll]
      split <;> exact ⟨_, rfl⟩
    exact .of_eq rfl hm
  | resetSettings => exact .of_eq (s := .initial _) rfl (core_resetSettings ..)
  | resetDaily => exact .of_eq rfl (core_setStats ..)
  | resetIdle => exact .stir (.refl ..)
  | boot => exact absurd hq hb
  | tick => exact absurd hq ht

theorem core_after_boot (c : Controller) (s : Step) (hb : s.call = .boot) :
    (c.after s).core = ((c.facing s).boot s.readings).core := by
  rw [after, hb]
  rfl

theorem core_after_tick (c : Controller) (s : Step) (ht : s.call = .tick) :
    ∃ medium dirty, (c.after s).core =
      { (c.facing s).core.check s.readings with medium, historyDirty := dirty } := by
  rw [after, ht]
  exact core_tick (c.facing s) s.readings

theorem looks_of_tick (c : Controller) {s : Step} (ht : s.call = .tick) :
    c.looks s = c.core.checkIsDue s.readings := by
  rw [looks, ht]
  rfl

theorem looks_of_ne_tick (c : Controller) {s : Step} (ht : s.call ≠ .tick) : c.looks s = false := by
  rw [looks, Bool.and_eq_false_iff, ← Bool.not_eq_true, Call.isTick_eq_true]
  exact .inl ht

theorem tuning_after (c : Controller) (s : Step) : (c.after s).tuning = c.tuning := by
  show (c.after s).core.tuning = c.tuning
  by_cases ht : s.call = .tick
  · obtain ⟨medium, dirty, h⟩ := core_after_tick c s ht
    rw [h, Core.check]
    split <;> rfl
  · by_cases hb : s.call = .boot
    · rw [core_after_boot c s hb, core_boot]
      rfl
    · exact (follows_after c s ht hb).tuning

theorem tuning_run (c : Controller) (steps : List Step) : (c.run steps).tuning = c.tuning :=
  run_induction (P := fun d => d.tuning = c.tuning) rfl fun d s _ hd => (tuning_after d s).trans hd

theorem sound_after (c : Controller) (s : Step) (h : c.settings.schedule.Sound) :
    (c.after s).settings.schedule.Sound := by
  show (c.after s).core.settings.schedule.Sound
  by_cases ht : s.call = .tick
  · obtain ⟨medium, dirty, hk⟩ := core_after_tick c s ht
    rw [hk, Core.check]
    split <;> exact h
  · by_cases hb : s.call = .boot
    · rw [core_after_boot c s hb, core_boot]
      exact ScheduleTable.sound_load _
    · exact (follows_after c s ht hb).sound h

theorem sound_boot (c : Controller) (r : Readings) : (c.boot r).settings.schedule.Sound := by
  have h := congrArg Core.settings (core_boot c r)
  show (c.boot r).core.settings.schedule.Sound
  rw [h]
  exact ScheduleTable.sound_load _

theorem sound_run {c : Controller} (h : c.settings.schedule.Sound) (steps : List Step) :
    (c.run steps).settings.schedule.Sound :=
  run_induction h fun d s _ hd => sound_after d s hd

theorem announcedBy_of_ne_tick (c : Controller) (s : Step) (ht : s.call ≠ .tick) :
    c.announcedBy s = [] := by
  show (c.after s).core.announced = []
  by_cases hb : s.call = .boot
  · rw [core_after_boot c s hb, core_boot]
    rfl
  · exact (follows_after c s ht hb).announced

theorem announcedBy_of_tick (c : Controller) (s : Step) (ht : s.call = .tick) :
    c.announcedBy s = if c.looks s then (c.core.dispatch s.readings).1 else [] := by
  show (c.after s).core.announced = _
  have hdue : (c.facing s).core.checkIsDue s.readings = c.looks s := (c.looks_of_tick ht).symm
  obtain ⟨medium, dirty, h⟩ := core_after_tick c s ht
  rw [h, Core.check, hdue]
  split <;> rfl

end Controller

end Espresso
