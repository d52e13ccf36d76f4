import Espresso.Proofs.Controller.Notice

namespace Espresso

def Status.unweighed (s : Status) : Status := { s with scale := false }

namespace Controller

def published : Controller → List Step → List Event
  | _, [] => []
  | c, s :: steps => (c.after s).outbox ++ (c.after s).published steps

def connectsScale (c : Controller) (s : Step) : Prop :=
  s.call.readsScale = true ∧ c.status.scale = false

def failsToReset (c : Controller) (s : Step) : Prop :=
  s.call = .resetSettings ∧ ∃ e, c.outcome s = .stored (.error e)

variable {c : Controller} {s : Step} {steps : List Step}

theorem told_settings (c : Controller) (hb : s.call ≠ .boot) :
    ((c.after s).outbox.filterMap Event.settings?).getLast?.getD (c.presumed s.call).settings =
      (c.after s).settings := by
  rw [← Knowledge.settings_hear]
  exact congrArg Knowledge.settings (told_after c hb)

theorem told_stats (c : Controller) (hb : s.call ≠ .boot) :
    (((c.after s).outbox.filterMap Event.stats?).getLast?.map Statistics.undated).getD
      c.stats.undated = (c.after s).stats.undated := by
  have h := congrArg Knowledge.stats (told_after c hb)
  rwa [Knowledge.stats_hear] at h

theorem told_status (c : Controller) (hb : s.call ≠ .boot) :
    ((c.after s).outbox.filterMap Event.status?).getLast?.getD (c.presumed s.call).status =
      (c.after s).status := by
  rw [← Knowledge.status_hear]
  exact congrArg Knowledge.status (told_after c hb)

theorem eq_some_of_changed {α : Type} {last : Option α} {before now : α}
    (h : last.getD before = now) (hne : now ≠ before) : last = some now :=
  (Option.getD_eq_iff.mp h).resolve_right fun h => hne h.2.symm

theorem status_presumed (h : ¬c.connectsScale s) : (c.presumed s.call).status = c.status := by
  show (if s.call.readsScale then { c.status with scale := true } else c.status) = c.status
  split
  · next hq =>
    have hs : c.status.scale = true := by
      rw [← Bool.not_eq_false]
      exact fun hs => h ⟨hq, hs⟩
    rw [← hs]
  · rfl

theorem unweighed_status_presumed (c : Controller) (q : Call) :
    (c.presumed q).status.unweighed = c.status.unweighed := by
  show (if q.readsScale then { c.status with scale := true } else c.status).unweighed = _
  split <;> rfl

theorem known_of_published {α : Type} {f : Controller → α} {g : Event → Option α}
    {Q : Controller → Step → Prop} (hq : c.Throughout Q steps)
    (h : ∀ d s, Q d s → ((d.after s).outbox.filterMap g).getLast?.getD (f d) =
      f (d.after s)) :
    ((c.published steps).filterMap g).getLast?.getD (f c) = f (c.run steps) := by
  induction steps generalizing c with
  | nil => rfl
  | cons s steps ih =>
    rw [published, List.filterMap_append, List.getLast?_append, Option.getD_or, h c s hq.1]
    exact ih hq.2

theorem settings_presumed (h : s.call ≠ .resetSettings) :
    (c.presumed s.call).settings = c.settings := by
  unfold presumed
  split
  · next hq => exact absurd hq h
  · rfl

theorem outbox_of_readsScale (h : s.call.readsScale = true) : (c.after s).outbox = [] := by
  rw [after]
  cases hq : s.call with
  | command x =>
    rw [hq] at h
    cases x with
    | sample sample => rfl
    | _ => cases h
  | direct x =>
    rw [hq] at h
    cases x with
    | sample sample => rfl
    | _ => cases h
  | _ =>
    rw [hq] at h
    cases h

theorem resetSettings_cases (c : Controller) :
    (∃ d : Controller, c.resetSettings = (.ok (), d.publishSettings)) ∨
      ∃ e, c.resetSettings.1 = .error e ∧ c.resetSettings.2.outbox =
        ({ c with settings := .initial c.settings.schedule } : Controller).syncType.outbox := by
  rw [resetSettings]
  generalize ({ c with settings := .initial c.settings.schedule } : Controller).syncType = d
  rcases hs : d.store d.settings.saveAll with ⟨e | _, d'⟩
  · exact .inr ⟨e, rfl, congrArg (fun p => p.2.outbox) hs.symm⟩
  · exact .inl ⟨d', rfl⟩

theorem settings_told_by_syncType (h : c.outbox = []) :
    c.syncType.outbox.filterMap Event.settings? = [] := by
  rw [syncType]
  split
  · show (c.outbox ++ [Event.stateChanged _]).filterMap Event.settings? = []
    rw [h]
    rfl
  · rw [h]
    rfl

theorem call_of_resetSettings (hq : s.call = .resetSettings) :
    c.after s = (c.facing s).resetSettings.2 ∧
      c.outcome s = .stored (c.facing s).resetSettings.1 := by
  rw [after, outcome, hq]
  exact ⟨rfl, rfl⟩

theorem told_by_resetSettings (hq : s.call = .resetSettings) (hr : ¬c.failsToReset s) :
    ((c.after s).outbox.filterMap Event.settings?).getLast? = some (c.after s).settings := by
  obtain ⟨hafter, houtcome⟩ := call_of_resetSettings (c := c) hq
  obtain ⟨d, hd⟩ | ⟨e, he, -⟩ := resetSettings_cases (c.facing s)
  · rw [hafter, hd]
    simp [publishSettings, publish, Event.settings?]
  · exact absurd ⟨hq, e, houtcome.trans (congrArg _ he)⟩ hr

theorem untold_by_failed_reset (hr : c.failsToReset s) :
    (c.after s).outbox.filterMap Event.settings? = [] := by
  obtain ⟨hq, e, he⟩ := hr
  obtain ⟨hafter, houtcome⟩ := call_of_resetSettings (c := c) hq
  obtain ⟨d, hd⟩ | ⟨-, -, ho⟩ := resetSettings_cases (c.facing s)
  · rw [houtcome, hd] at he
    cases he
  · rw [hafter, ho]
    exact settings_told_by_syncType rfl

/-- Observers are told every change of the status but one: a scale that shows itself by a reading is
connected without a word. Whoever keeps the last notice is never mistaken about anything else. -/
theorem status_changes_are_told (c : Controller) :
    (∀ s : Step, s.call ≠ .boot → (c.after s).status ≠ c.status →
      (¬c.connectsScale s →
        ((c.after s).outbox.filterMap Event.status?).getLast? = some (c.after s).status) ∧
      (c.connectsScale s →
        (c.after s).outbox = [] ∧ (c.after s).status = { c.status with scale := true })) ∧
    ∀ steps : List Step, (∀ s ∈ steps, s.call ≠ .boot) →
      let known := ((c.published steps).filterMap Event.status?).getLast?.getD c.status
      known.unweighed = (c.run steps).status.unweighed ∧
      (c.Throughout (fun d s => ¬d.connectsScale s) steps → known = (c.run steps).status) := by
  refine ⟨?_, ?_⟩
  · intro s hb hne
    have htold := told_status c hb
    constructor
    · intro hs
      rw [status_presumed hs] at htold
      exact eq_some_of_changed htold hne
    · intro hs
      have ho : (c.after s).outbox = [] := outbox_of_readsScale hs.1
      refine ⟨ho, ?_⟩
      rw [← htold, ho]
      exact if_pos hs.1
  · intro steps hb known
    constructor
    · have h := known_of_published (c := c) (f := fun d => d.status.unweighed)
        (g := fun e => e.status?.map Status.unweighed) (throughout_of_forall hb) ?_
      · rw [← List.map_filterMap, List.getLast?_map, Option.getD_map] at h
        exact h
      · intro d s hs
        rw [← List.map_filterMap, List.getLast?_map, ← unweighed_status_presumed d s.call,
          Option.getD_map, told_status d hs]
    · intro hq
      exact known_of_published ((throughout_of_forall hb).and hq) fun d s hs => by
        rw [← status_presumed hs.2, told_status d hs.1]

theorem status_changes_are_told_of_shot :
    let c := (blank default (.reliable .empty)).boot ⟨0, none, 0⟩
    let connect : Step := ⟨⟨1000, none, 0⟩, fun _ => none, .command (.connectivity .wifi true)⟩
    let start : Step := ⟨⟨2000, none, 0⟩, fun _ => none, .command .startShot⟩
    ((c.after start).outbox.filterMap Event.status?).getLast? = some (c.after start).status ∧
    ((c.published [connect, start]).filterMap Event.status?).getLast?.getD c.status =
      (c.run [connect, start]).status := by
  intro c connect start
  obtain ⟨hstep, hrun⟩ := status_changes_are_told c
  have htold := hstep start nofun (by decide +kernel)
  have hknown := hrun [connect, start] (by simp [connect, start])
  exact ⟨htold.1 nofun, hknown.2 ⟨nofun, nofun, trivial⟩⟩

/-- The scale is weighed with before its link is reported, and then the report changes nothing. -/
theorem scale_connects_untold :
    let c := (blank default (.reliable .empty)).boot ⟨0, none, 0⟩
    let weigh : Step :=
      ⟨⟨0, none, 0⟩, fun _ => none, .command (.sample (.scale (.ofNat 18) .zero true))⟩
    let connect : Step := ⟨⟨0, none, 0⟩, fun _ => none, .command (.connectivity .scale true)⟩
    (c.after weigh).status ≠ c.status ∧ (c.after weigh).outbox = [] ∧
      ((c.after weigh).after connect).outbox = [] :=
  ⟨by decide +kernel, rfl, rfl⟩

/-- Observers are told every change of the settings, of the schedule too and whatever the store
refuses, but one: settings that are reset and cannot be stored are put back without a word. -/
theorem settings_changes_are_told (c : Controller) {s : Step} (hb : s.call ≠ .boot)
    (hne : (c.after s).settings ≠ c.settings) :
    (¬c.failsToReset s →
      ((c.after s).outbox.filterMap Event.settings?).getLast? = some (c.after s).settings) ∧
    (c.failsToReset s →
      (c.after s).outbox.filterMap Event.settings? = [] ∧
      (c.after s).settings = .initial c.settings.schedule) := by
  have htold := told_settings c hb
  constructor
  · intro hr
    by_cases hq : s.call = .resetSettings
    · exact told_by_resetSettings hq hr
    · rw [settings_presumed hq] at htold
      exact eq_some_of_changed htold hne
  · intro hr
    have hsilent := untold_by_failed_reset hr
    rw [hsilent, hr.1] at htold
    exact ⟨hsilent, htold.symm⟩

theorem settings_changes_are_told_unstored :
    let c := (blank default (.reliable .empty)).boot ⟨0, none, 0⟩
    let s : Step := ⟨⟨1000, none, 0⟩, Fault.refusal [⟨.write, "*", .io⟩],
      .applySection "temperature" (.object [("brewSetpoint", .int 95)])⟩
    ((c.after s).outbox.filterMap Event.settings?).getLast? = some (c.after s).settings := by
  intro c s
  have hne : (c.after s).settings.temperature.brewSetpoint ≠
      c.settings.temperature.brewSetpoint := by
    decide +kernel
  have htold := settings_changes_are_told c (s := s) nofun fun h => hne (by rw [h])
  exact htold.1 nofun

/-- The setpoint is put back in memory, and nobody is told. -/
theorem settings_reset_untold :
    let c := ((blank default (.reliable .empty)).boot ⟨0, none, 0⟩).run [
      ⟨⟨0, none, 0⟩, fun _ => none,
        .applySection "temperature" (.object [("brewSetpoint", .int 95)])⟩]
    let s : Step := ⟨⟨0, none, 0⟩, Fault.refusal [⟨.write, "*", .io⟩], .resetSettings⟩
    (c.after s).settings ≠ c.settings ∧ (c.after s).outbox = [] := by
  intro c s
  have hne : (c.after s).settings.temperature.brewSetpoint ≠
      c.settings.temperature.brewSetpoint := by
    decide +kernel
  exact ⟨fun h => hne (by rw [h]), by decide +kernel⟩

theorem stats_changes_are_told (c : Controller) {s : Step} (hb : s.call ≠ .boot)
    (hne : (c.after s).stats.undated ≠ c.stats.undated) :
    ∃ stats, ((c.after s).outbox.filterMap Event.stats?).getLast? = some stats ∧
      stats.undated = (c.after s).stats.undated :=
  Option.map_eq_some_iff.mp (eq_some_of_changed (told_stats c hb) hne)

theorem stats_changes_are_told_at_midnight :
    let c := ((blank default (.reliable .empty)).boot ⟨0, some 1704067200, 0⟩).run [
      ⟨⟨0, some 1704067200, 0⟩, fun _ => none, .tick⟩,
      ⟨⟨0, some 1704067200, 0⟩, fun _ => none, .command .startShot⟩,
      ⟨⟨25000, some 1704067225, 0⟩, fun _ => none, .command .endShot⟩]
    let s : Step := ⟨⟨86400000, some 1704153600, 0⟩, Fault.refusal [⟨.write, "*", .io⟩], .tick⟩
    ∃ stats, ((c.after s).outbox.filterMap Event.stats?).getLast? = some stats ∧
      stats.undated = (c.after s).stats.undated := by
  intro c s
  exact stats_changes_are_told c (s := s) nofun (by decide +kernel)

end Controller

end Espresso
