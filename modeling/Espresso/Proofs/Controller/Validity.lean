import Espresso.Proofs.Controller.Core
import Espresso.Proofs.Settings.Ranges

namespace Espresso

namespace Settings

inductive Becomes (s : Settings) : Settings → Prop where
  | kept : s.Becomes s
  | edited (e : Edit) : s.Becomes (s.edit e)
  | typed (t : MachineType) :
    s.Becomes { s with machineInfo := { s.machineInfo with machineType := t } }
  | scheduled (schedule : ScheduleTable) : s.Becomes { s with schedule }
  | initial (schedule : ScheduleTable) : s.Becomes (.initial schedule)
  | loaded (m : Medium) (schedule : ScheduleTable) : s.Becomes { load m with schedule }

theorem Becomes.of_eq {s t : Settings} (h : t = s) : s.Becomes t := h ▸ .kept

theorem Becomes.valid {s t : Settings} (h : s.Becomes t) (hs : s.Valid) : t.Valid := by
  cases h with
  | kept => exact hs
  | edited e => exact hs.edit e
  | typed t => exact hs.setMachineType t
  | scheduled schedule => exact hs.with_schedule schedule
  | initial schedule => exact valid_initial schedule
  | loaded m schedule => exact (valid_load m).with_schedule schedule

end Settings

namespace Controller

variable {c : Controller} {s : Step}

theorem settings_publishStored (stored : Except StorageError Unit × Controller) :
    (publishStored stored).2.settings = stored.2.settings :=
  congrArg Core.settings (core_publishStored stored)

theorem settings_adopt (c : Controller) (settings : Settings) (touched : List Section) :
    (c.adopt settings touched).settings = settings :=
  congrArg Core.settings (core_adopt c settings touched)

theorem settings_ifChanged {α : Type} {o : Option α} {f : α → Controller}
    (h : ∀ a, (f a).settings = c.settings) : (c.ifChanged (o.map f)).2.settings = c.settings := by
  cases o with
  | none => rfl
  | some a => exact h a

theorem becomes_map_setSchedule (c : Controller) (t : Except Error ScheduleTable) :
    c.settings.Becomes (c.ifGranted (t.map c.setSchedule)).2.settings := by
  cases t with
  | error e => exact .kept
  | ok t => exact .scheduled t

theorem becomes_setMachineType (c : Controller) (t : MachineType) (force : Bool) :
    c.settings.Becomes (c.setMachineType t force).2.settings := by
  have h : (c.setMachineType t force).2.settings = (c.core.report t force).settings :=
    congrArg Core.settings (core_setMachineType c t force)
  rw [h, Core.report]
  dsimp only
  split
  · exact .kept
  · exact .typed t

theorem becomes_perform (c : Controller) (r : Readings) (x : Command) :
    c.settings.Becomes (c.perform r x).2.settings := by
  cases x with
  | boardBoot version resetReason t =>
    exact becomes_setMachineType { c with
      machine := ((c.machine.setBoard version resetReason).setConnected .controlBoard true).getD
        (c.machine.setBoard version resetReason) } t false
  | setMachineType t force => exact becomes_setMachineType c t force
  | connectivity peer connected => exact .of_eq (settings_ifChanged fun _ => rfl)
  | reportState state => exact .of_eq (settings_ifChanged fun _ => rfl)
  | setMode mode =>
    apply Settings.Becomes.of_eq
    apply settings_ifChanged
    intro machine
    dsimp only
    split <;> rfl
  | startShot => exact .of_eq (settings_ifChanged fun _ => rfl)
  | endShot =>
    apply Settings.Becomes.of_eq
    rw [perform, endShot, Option.map_map]
    exact settings_ifChanged fun _ => rfl
  | rateShot index rating =>
    simp only [perform, rateShot]
    cases c.history.rate index rating with
    | error e => exact .kept
    | ok history =>
      obtain ⟨historyDirty, historySaveDue, h⟩ := markHistory_frame { c with history } r
      exact .of_eq (congrArg Controller.settings h :)
  | energy amount => exact .of_eq (settings_ifChanged fun _ => rfl)
  | maintenance kind =>
    exact .of_eq (congrArg Core.settings (core_recordMaintenance c r kind) :)
  | addSchedule e =>
    simp only [perform, addSchedule]
    cases c.settings.schedule.add e with
    | error e => exact .kept
    | ok p => exact .scheduled p.2
  | updateSchedule id e => exact becomes_map_setSchedule ..
  | removeSchedule id => exact becomes_map_setSchedule ..
  | enableSchedule id enabled => exact becomes_map_setSchedule ..
  | autoOff enabled minutes => exact becomes_map_setSchedule ..
  | factoryReset =>
    have h : (c.factoryReset r).2.settings = default := congrArg Core.settings (core_factoryReset c r)
    rw [(perform_factoryReset c r).1, h]
    exact .initial _
  | _ => exact .of_eq rfl

theorem becomes_call (c : Controller) (r : Readings) (q : Call) :
    c.settings.Becomes (c.call r q).2.settings := by
  cases q with
  | command x =>
    show c.settings.Becomes (c.handle r x).2.settings
    unfold handle
    split
    · exact becomes_perform c r x
    · exact becomes_perform (c.resetIdle r) r x
  | direct x => exact becomes_perform c r x
  | applySection name fields =>
    show c.settings.Becomes (c.counted (c.applySection name fields)).2.settings
    obtain ⟨h, -⟩ | ⟨n, -, h⟩ := applySection_cases c name fields <;> rw [h]
    · exact .kept
    · rw [settings_adopt]
      exact .edited (.patch n fields)
  | applySettings document =>
    show c.settings.Becomes (c.counted (c.applySettings document)).2.settings
    obtain ⟨h, -⟩ | h := applySettings_cases c document <;> rw [h]
    · exact .kept
    · rw [settings_adopt]
      exact .edited (.patchAll document)
  | saveSection n =>
    exact .of_eq (settings_publishStored (c.store (c.settings.saveSection n)))
  | saveAll =>
    have h : c.saveAll.2.settings = c.settings := by
      refine (congrArg Core.settings (core_saveAll c)).trans ?_
      split <;> rfl
    exact .of_eq h
  | resetSettings =>
    have h : c.resetSettings.2.settings = .initial c.settings.schedule :=
      congrArg Core.settings (core_resetSettings c)
    show c.settings.Becomes c.resetSettings.2.settings
    rw [h]
    exact .initial _
  | boot => exact .loaded c.medium _
  | tick =>
    have h : (c.tick r).settings = c.settings := by
      obtain ⟨medium, dirty, h⟩ := core_tick c r
      refine (congrArg Core.settings h).trans ?_
      show (c.core.check r).settings = c.settings
      rw [Core.check]
      split <;> rfl
    exact .of_eq h
  | _ => exact .kept

theorem valid_after (h : c.settings.Valid) (s : Step) : (c.after s).settings.Valid :=
  (becomes_call (c.facing s) s.readings s.call).valid h

theorem valid_run (c : Controller) (r : Readings) (steps : List Step) :
    ((c.boot r).run steps).settings.Valid := by
  apply run_induction (P := fun d => d.settings.Valid)
  · exact (Settings.valid_load c.medium).with_schedule _
  · intro d s _ hd
    exact valid_after hd s

end Controller

end Espresso
