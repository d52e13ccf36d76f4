import Espresso.Proofs.Controller.Watch

namespace Espresso

namespace Controller

/-- The uptime of the last activity of a run, `since` if the run has seen none. -/
def lastActive (c : Controller) (since : Nat) : List Step → Nat
  | [] => since
  | s :: steps => (c.after s).lastActive (if c.stirring s then s.readings.uptime else since) steps

/-- Whether a machine last used at `since` has been left on for too long. -/
def isOverdue (c : Controller) (since now : Nat) : Bool :=
  c.settings.schedule.autoOffEnabled && 1 ≤ c.settings.schedule.autoOffMinutes.toNat &&
    c.machine.live.mode ≠ .standby && !c.machine.live.shotActive &&
    since + c.settings.schedule.autoOffMinutes.toNat * 60000 ≤ now

theorem isIdleTimeout_eq_isOverdue (c : Controller) (r : Readings) :
    c.isIdleTimeout r = c.isOverdue c.engine.lastActivity r.uptime := by
  rw [Bool.eq_iff_iff, isIdleTimeout, ScheduleEngine.isIdleTimeout_eq_true, isOverdue]
  simp only [Bool.and_eq_true, decide_eq_true_eq, Bool.not_eq_true', and_assoc]
  rfl

theorem filter_dispatch (c : Controller) (r : Readings) (hc : c.settings.schedule.Sound) :
    (c.core.dispatch r).1.filter (fun e => e.id = 0) =
      if c.isIdleTimeout r then [.autoPowerOff] else [] :=
  (ScheduleEngine.filter_fst_tick _ _ _ _ _ _ hc.id_ne_zero).1

theorem autoPowerOff_mem_dispatch (c : Controller) (r : Readings)
    (hc : c.settings.schedule.Sound) :
    .autoPowerOff ∈ (c.core.dispatch r).1 ↔ c.isIdleTimeout r = true := by
  have hm : .autoPowerOff ∈ (c.core.dispatch r).1 ↔
      .autoPowerOff ∈ (c.core.dispatch r).1.filter fun e => e.id = 0 := by
    rw [List.mem_filter]
    exact ⟨fun h => ⟨h, rfl⟩, And.left⟩
  rw [hm, filter_dispatch c r hc]
  split <;> simp_all

theorem filter_announcedBy (c : Controller) (s : Step) (hc : c.settings.schedule.Sound) :
    (c.announcedBy s).filter (fun e => e.id = 0) =
      if c.looks s && c.isIdleTimeout s.readings then [.autoPowerOff] else [] := by
  by_cases ht : s.call = .tick
  · rw [announcedBy_of_tick c s ht]
    cases c.looks s with
    | false => rfl
    | true => exact filter_dispatch c s.readings hc
  · rw [announcedBy_of_ne_tick c s ht, looks_of_ne_tick c ht]
    rfl

theorem lastActivity_after (c : Controller) (s : Step) (hc : c.settings.schedule.Sound) :
    (c.after s).engine.lastActivity =
      if c.stirring s then s.readings.uptime else c.engine.lastActivity := by
  show (c.after s).core.engine.lastActivity = _
  by_cases ht : s.call = .tick
  · have hs : c.stirring s = decide (.autoPowerOff ∈ c.announcedBy s) := by
      rw [stirring, ht]
    have hdue : (c.facing s).core.checkIsDue s.readings = c.looks s := (c.looks_of_tick ht).symm
    obtain ⟨medium, dirty, hk⟩ := core_after_tick c s ht
    rw [hk, hs, announcedBy_of_tick c s ht, Core.check, hdue]
    cases c.looks s with
    | false => rfl
    | true =>
      have hl := ScheduleEngine.lastActivity_tick c.engine c.settings.schedule
        (c.core.localTime s.readings) c.machine.live.mode c.machine.live.shotActive s.readings.uptime
      simp only [if_true, autoPowerOff_mem_dispatch c s.readings hc, Bool.decide_eq_true]
      exact hl
  · by_cases hb : s.call = .boot
    · rw [core_after_boot c s hb, core_boot, stirring, hb]
      rfl
    · exact (follows_after c s ht hb).lastActivity

theorem lastActivity_run {c : Controller} (hc : c.settings.schedule.Sound) (steps : List Step) :
    (c.run steps).engine.lastActivity = c.lastActive c.engine.lastActivity steps := by
  induction steps generalizing c with
  | nil => rfl
  | cons s steps ih =>
    rw [run_cons, ih (sound_after c s hc), lastActive, lastActivity_after c s hc]

theorem lastActivity_boot (c : Controller) (r : Readings) :
    (c.boot r).engine.lastActivity = r.uptime :=
  congrArg (fun k : Core => k.engine.lastActivity) (core_boot c r)

theorem isIdleTimeout_after_autoPowerOff {c : Controller} {s : Step}
    (hc : c.settings.schedule.Sound) (hs : .autoPowerOff ∈ c.announcedBy s) {r : Readings}
    (hr : r.uptime < s.readings.uptime + c.settings.schedule.autoOffMinutes.toNat * 60000) :
    (c.after s).isIdleTimeout r = false := by
  by_cases ht : s.call = .tick
  · have hstir : c.stirring s = true := by
      rw [stirring, ht]
      exact decide_eq_true hs
    have hl := lastActivity_after c s hc
    have hset : (c.after s).settings = c.settings := by
      show (c.after s).core.settings = _
      obtain ⟨medium, dirty, h⟩ := core_after_tick c s ht
      rw [h, Core.check]
      split <;> rfl
    rw [isIdleTimeout_eq_isOverdue, hl, hstir, isOverdue, hset]
    simp only [if_true, decide_eq_false (Nat.not_le.mpr hr), Bool.and_false]
  · rw [announcedBy_of_ne_tick c s ht] at hs
    cases hs

theorem core_perform_telemetry (c : Controller) (r : Readings) {x : Command} (hx : x.isTelemetry) :
    ∃ medium, ∃ settings : Settings, settings.schedule = c.settings.schedule ∧
      (c.perform r x).2.core = { c.core with medium, settings } := by
  cases x with
  | sample s => exact ⟨_, _, rfl, core_observe c r s⟩
  | connectivity peer connected =>
    refine ⟨c.medium, c.settings, rfl, ?_⟩
    exact ifChanged_induction (P := fun k => k = c.core) rfl fun d hd => core_setConnected hd
  | boardBoot version resetReason t =>
    rw [perform, core_bootBoard]
    exact report_eq c.core t false
  | reportState state =>
    refine ⟨c.medium, c.settings, rfl, ?_⟩
    exact ifChanged_induction (P := fun k => k = c.core) rfl fun d hd => core_setState hd
  | _ => cases hx

theorem isIdleTimeout_after_telemetry (c : Controller) (s : Step) {x : Command}
    (hs : s.call = .command x) (hx : x.isTelemetry) (r : Readings) :
    (c.after s).isIdleTimeout r = c.isIdleTimeout r := by
  have hcore : (c.after s).core = ((c.facing s).perform s.readings x).2.core := by
    rw [after, hs]
    show ((c.facing s).handle s.readings x).2.core = _
    rw [handle, if_pos hx]
  obtain ⟨medium, settings, hsched, h⟩ := core_perform_telemetry (c.facing s) s.readings hx
  have hidle (d : Controller) : d.isIdleTimeout r = d.core.engine.isIdleTimeout
    d.core.settings.schedule d.core.mode d.core.shotActive r.uptime := rfl
  rw [hidle, hcore, h, hsched]
  rfl

theorem isTelemetry_iff {x : Command} : x.isTelemetry = true ↔
    (∃ sample, x = .sample sample) ∨ (∃ peer connected, x = .connectivity peer connected) ∨
      (∃ version resetReason t, x = .boardBoot version resetReason t) ∨
      ∃ state, x = .reportState state := by
  cases x <;> simp [Command.isTelemetry]

/-- A machine is turned off by a tick that looks at the schedule and finds it overdue, and by
nothing else. It is not overdue then, and telemetry does not put it off. -/
theorem announces_autoPowerOff (c : Controller) (r : Readings) (steps : List Step) (s : Step) :
    let d := (c.boot r).run steps
    let since := (c.boot r).lastActive r.uptime steps
    let off : ScheduleEntry :=
      ⟨0, true, ⟨127⟩, 0, 0, .turnOff, .sequential, "Auto Power-Off", by decide⟩
    ((d.announcedBy s).filter (fun e => e.id = 0) =
        if d.looks s && d.isOverdue since s.readings.uptime then [off] else []) ∧
      (s.call ≠ .tick → d.announcedBy s = []) ∧
      (off ∈ d.announcedBy s → ∀ q : Readings,
        q.uptime < s.readings.uptime + d.settings.schedule.autoOffMinutes.toNat * 60000 →
          (d.after s).isIdleTimeout q = false) ∧
      (∀ x : Command, x.isTelemetry = true ↔
        (∃ sample, x = .sample sample) ∨ (∃ peer connected, x = .connectivity peer connected) ∨
          (∃ version resetReason t, x = .boardBoot version resetReason t) ∨
          ∃ state, x = .reportState state) ∧
      (∀ x : Command, s.call = .command x → x.isTelemetry →
        (c.boot r).lastActive r.uptime (steps ++ [s]) = since ∧
          ∀ q, (d.after s).isIdleTimeout q = d.isIdleTimeout q) := by
  intro d since off
  have hoff : off = .autoPowerOff := by decide
  have hd : d.settings.schedule.Sound := sound_run (sound_boot c r) steps
  have hsince : d.engine.lastActivity = since := by
    rw [lastActivity_run (sound_boot c r), lastActivity_boot]
  rw [hoff]
  refine ⟨?_, ?_, ?_, fun _ => isTelemetry_iff, ?_⟩
  · rw [filter_announcedBy d s hd, isIdleTimeout_eq_isOverdue, hsince]
  · exact announcedBy_of_ne_tick d s
  · intro hs q hq
    exact isIdleTimeout_after_autoPowerOff hd hs hq
  · intro x hs hx
    refine ⟨?_, isIdleTimeout_after_telemetry d s hs hx⟩
    have hstir : d.stirring s = false := by
      rw [stirring, hs]
      simp [hx]
    have hl := lastActivity_run (sound_boot c r) (steps ++ [s])
    rw [lastActivity_boot] at hl
    rw [← hl, run_append, run_cons, run_nil, lastActivity_after d s hd, hstir, ← hsince]
    rfl

end Controller

end Espresso
