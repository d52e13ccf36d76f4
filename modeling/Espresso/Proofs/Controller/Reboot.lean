import Espresso.Proofs.Controller.Core
import Espresso.Proofs.Controller.Spaces
import Espresso.Proofs.Schedule.RoundTrip
import Espresso.Proofs.Settings.Persistence
import Espresso.Proofs.Shot

namespace Espresso

/-- What a medium must hold for a fresh start to bring back settings and history. A history marked
dirty is not stored yet. -/
structure Backed (m : Medium) (s : Settings) (h : ShotHistory) (dirty : Bool) : Prop where
  ready : m.Ready
  valid : s.Valid
  recalls : s.Recalls m
  sound : s.schedule.Sound
  schedule : (ScheduleTable.load m).same s.schedule = true
  soundHistory : h.Sound
  history : dirty = false → (ShotHistory.load m).toList = h.toList

namespace Backed

variable {m m' : Medium} {s t : Settings} {h h' : ShotHistory} {dirty : Bool}

theorem frame (hb : Backed m s h dirty) (hm : m'.Ready)
    (hsections : ∀ n, m'.read (Settings.address n) = m.read (Settings.address n))
    (hschedule : m'.read ScheduleTable.address = m.read ScheduleTable.address)
    (hhistory : m'.read ShotHistory.address = m.read ShotHistory.address) : Backed m' s h dirty where
  ready := hm
  valid := hb.valid
  recalls := hb.recalls.congr hsections fun _ => rfl
  sound := hb.sound
  schedule := by
    rw [ScheduleTable.load_congr hschedule]
    exact hb.schedule
  soundHistory := hb.soundHistory
  history hd := by
    rw [ShotHistory.load_congr hhistory]
    exact hb.history hd

theorem load (hm : m.Ready) :
    Backed m { Settings.load m with schedule := ScheduleTable.load m } (ShotHistory.load m) false where
  ready := hm
  valid := (Settings.valid_load m).with_schedule _
  recalls := (Settings.recalls_load m).congr (fun _ => rfl) (Settings.get_with_schedule _ _)
  sound := ScheduleTable.sound_load m
  schedule := ScheduleTable.same_of_entries rfl rfl rfl
  soundHistory := ShotHistory.sound_load m
  history _ := rfl

theorem saveStats (hb : Backed m s h dirty) (stats : Statistics) :
    Backed (stats.save m).2 s h dirty := by
  apply hb.frame (hb.ready.write _ _)
  · intro n
    exact hb.ready.read_write_of_ne (path_ne_address n (by decide)).symm _
  · exact hb.ready.read_write_of_ne (by decide) _
  · exact hb.ready.read_write_of_ne (by decide) _

theorem saveSections (hb : Backed m s h dirty) (sections : List Section) (ht : t.Valid)
    (hschedule : t.schedule = s.schedule) (hn : ∀ n, n ∉ sections → t.get n = s.get n) :
    Backed (t.saveSections sections m).2 t h dirty := by
  have hready := Settings.ready_saveSections t sections hb.ready
  have hread {a : Address} (ha : a ∈ [Statistics.address, ShotHistory.address, ScheduleTable.address]) :
      (t.saveSections sections m).2.read a = m.read a :=
    Settings.read_saveSections t sections hb.ready fun n _ => path_ne_address n ha
  refine ⟨hready, ht, Settings.recalls_saveSections hb.ready ht hb.recalls hn, ?_, ?_,
    hb.soundHistory, ?_⟩
  · rw [hschedule]
    exact hb.sound
  · rw [hschedule, ScheduleTable.load_congr (hread (by decide))]
    exact hb.schedule
  · intro hd
    rw [ShotHistory.load_congr (hread (by decide))]
    exact hb.history hd

theorem saveSchedule (hb : Backed m s h dirty) {schedule : ScheduleTable} (hs : schedule.Sound) :
    Backed (schedule.save m).2 { s with schedule } h dirty where
  ready := hb.ready.write _ _
  valid := hb.valid.with_schedule schedule
  recalls := by
    apply hb.recalls.congr
    · intro n
      exact hb.ready.read_write_of_ne (path_ne_address n (by decide)).symm _
    · exact Settings.get_with_schedule s schedule
  sound := hs
  schedule := ScheduleTable.load_save hb.ready hs
  soundHistory := hb.soundHistory
  history hd := by
    have hshots : (schedule.save m).2.read ShotHistory.address = m.read ShotHistory.address :=
      hb.ready.read_write_of_ne (by decide) _
    rw [ShotHistory.load_congr hshots]
    exact hb.history hd

theorem saveHistory (hb : Backed m s h dirty) (hh : h'.Sound) :
    Backed (h'.save m).2 s h' false where
  ready := ShotHistory.ready_save h' hb.ready
  valid := hb.valid
  recalls := by
    apply hb.recalls.congr
    · intro n
      exact ShotHistory.read_save_of_ne hb.ready h' (path_ne_address n (by decide)).symm
    · intro n
      rfl
  sound := hb.sound
  schedule := by
    rw [ScheduleTable.load_congr (ShotHistory.read_save_of_ne hb.ready h' (by decide))]
    exact hb.schedule
  soundHistory := hh
  history _ := ShotHistory.load_save hb.ready hh

theorem mark (hb : Backed m s h dirty) (hh : h'.Sound) : Backed m s h' true :=
  ⟨hb.ready, hb.valid, hb.recalls, hb.sound, hb.schedule, hh, fun hd => nomatch hd⟩

theorem erase (hm : m.Ready) (h : ShotHistory) :
    Backed (Controller.eraseSpaces Controller.spaces m).2 default h.clear false where
  ready := by
    have hserves := (Medium.serves_eraseSpaces hm.serves Controller.spaces).1
    refine ⟨hserves.available, fun a => ?_⟩
    rw [Medium.refuses_eraseSpaces, hm.refuses_eq]
  valid := Settings.valid_initial _
  recalls := by
    intro n
    have hr := Medium.read_eraseSpaces hm.serves (a := Settings.address n) (List.mem_cons_self ..)
    left
    rw [Settings.loaded, hr]
    cases n <;> rfl
  sound := ScheduleTable.sound_default
  schedule := by
    rw [ScheduleTable.load, Medium.read_eraseSpaces hm.serves (by decide)]
    exact ScheduleTable.same_of_entries rfl rfl rfl
  soundHistory := ShotHistory.sound_clear h
  history _ := ShotHistory.load_of_error (Medium.read_eraseSpaces hm.serves (by decide))

end Backed

def Core.Backed (k : Core) : Prop := Espresso.Backed k.medium k.settings k.history k.historyDirty

namespace Controller

theorem backed_report {k : Core} (h : k.Backed) (t : MachineType) (force : Bool) :
    (k.report t force).Backed := by
  unfold Core.report
  dsimp only
  split
  · exact h
  · apply Backed.saveSections h [.machineInfo] (h.valid.setMachineType t) rfl
    intro n hn
    cases n with
    | machineInfo => exact absurd (List.mem_singleton_self _) hn
    | _ => rfl

theorem backed_setSchedule {c : Controller} (h : c.core.Backed) {t : ScheduleTable}
    (ht : t.Sound) : (c.setSchedule t).core.Backed := by
  rw [core_setSchedule]
  exact Backed.saveSchedule h ht

theorem backed_map_setSchedule {c : Controller} (h : c.core.Backed) {t : Except Error ScheduleTable}
    (ht : ∀ u, t = .ok u → u.Sound) : (c.ifGranted (t.map c.setSchedule)).2.core.Backed := by
  cases t with
  | error e => exact h
  | ok u => exact backed_setSchedule h (ht u rfl)

theorem backed_perform {c : Controller} (h : c.core.Backed) (r : Readings) (x : Command) :
    (c.perform r x).2.core.Backed := by
  cases x with
  | sample s =>
    show (c.observe r s).core.Backed
    rwa [core_observe]
  | connectivity peer connected =>
    refine ifChanged_induction h ?_
    intro d hd
    rwa [core_setConnected hd]
  | boardBoot version resetReason t =>
    show (c.bootBoard version resetReason t).core.Backed
    rw [core_bootBoard]
    exact backed_report h t false
  | reportState state =>
    refine ifChanged_induction h ?_
    intro d hd
    rwa [core_setState hd]
  | setMode mode =>
    refine ifChanged_induction h ?_
    intro d hd
    rw [(core_setMode hd).2]
    exact h
  | startShot =>
    refine ifChanged_induction h ?_
    intro d hd
    rw [core_startShot hd]
    exact h
  | endShot =>
    refine ifChanged_induction h ?_
    intro d hd
    obtain ⟨⟨shot, _⟩, he, rfl⟩ := Option.map_eq_some_iff.mp hd
    obtain ⟨hshot, hcore⟩ := core_endShot he
    have hsound : shot.Sound := by
      rw [← hshot]
      intro n hn
      cases hn
    rw [hcore]
    exact Backed.mark h (h.soundHistory.add hsound)
  | rateShot index rating =>
    refine ifGranted_induction h ?_
    intro d hd
    obtain ⟨history, hr, hcore⟩ := core_rateShot hd
    rw [hcore]
    exact Backed.mark h (h.soundHistory.rate hr)
  | clearHistory => exact Backed.saveHistory h (ShotHistory.sound_clear _)
  | steamCycle =>
    show (c.setStats c.stats.recordSteamCycle).core.Backed
    rwa [core_setStats]
  | energy amount =>
    refine ifChanged_induction h ?_
    intro d hd
    rwa [core_addEnergy hd]
  | maintenance kind =>
    show (c.recordMaintenance r kind).core.Backed
    rw [core_recordMaintenance]
    exact Backed.saveStats h _
  | addSchedule e =>
    simp only [perform, addSchedule]
    cases ha : c.settings.schedule.add e with
    | error e => exact h
    | ok p => exact backed_setSchedule h (h.sound.add ha)
  | updateSchedule id e => exact backed_map_setSchedule h fun u hu => h.sound.update hu
  | removeSchedule id => exact backed_map_setSchedule h fun u hu => h.sound.remove hu
  | enableSchedule id enabled => exact backed_map_setSchedule h fun u hu => h.sound.enable hu
  | autoOff enabled minutes => exact backed_map_setSchedule h fun u hu => h.sound.setAutoOff hu
  | setMachineType t force =>
    show (c.setMachineType t force).2.core.Backed
    rw [core_setMachineType]
    exact backed_report h t force
  | factoryReset =>
    rw [(perform_factoryReset c r).1, core_factoryReset]
    exact Backed.erase h.ready _

theorem backed_handle {c : Controller} (h : c.core.Backed) (r : Readings) (x : Command) :
    (c.handle r x).2.core.Backed := by
  unfold handle
  split
  · exact backed_perform h r x
  · exact backed_perform (c := c.resetIdle r) h r x

theorem backed_applySection {c : Controller} (h : c.core.Backed) (name : String) (fields : Json) :
    (c.counted (c.applySection name fields)).2.core.Backed := by
  rcases core_applySection c name fields with hc | ⟨n, hc⟩
  · rwa [hc]
  · rw [hc]
    apply Backed.saveSections h _ (h.valid.patch n fields) (Settings.schedule_set ..)
    intro k hk
    exact Settings.get_set_of_ne _ (mt List.mem_singleton.mpr hk) _

theorem backed_applySettings {c : Controller} (h : c.core.Backed) (document : Json) :
    (c.counted (c.applySettings document)).2.core.Backed := by
  rcases core_applySettings c document with hc | hc
  · rwa [hc]
  · rw [hc]
    apply Backed.saveSections h _ (h.valid.patchAll document) (Settings.schedule_patchAll ..)
    intro n hn
    exact Settings.get_patchAll h.valid hn

theorem backed_saveAll {c : Controller} (h : c.core.Backed) : c.saveAll.2.core.Backed := by
  have hsections : (c.core.store c.settings.saveAll).Backed :=
    Backed.saveSections h _ h.valid rfl fun _ _ => rfl
  rw [core_saveAll]
  split
  · exact Backed.saveSchedule hsections h.sound
  · exact hsections

theorem backed_resetSettings {c : Controller} (h : c.core.Backed) :
    c.resetSettings.2.core.Backed := by
  rw [core_resetSettings]
  apply Backed.saveSections h _ (Settings.valid_initial _) rfl
  intro n hn
  exact absurd n.mem_all hn

theorem backed_boot {c : Controller} (h : c.medium.Ready) (r : Readings) :
    (c.boot r).core.Backed := by
  rw [core_boot]
  exact Backed.load h

theorem backed_serviceStats {c : Controller} (h : c.core.Backed) (now : Nat) :
    (c.serviceStats now).core.Backed := by
  rcases core_serviceStats c now with hc | hc
  · rwa [hc]
  · rw [hc]
    exact Backed.saveStats h _

theorem backed_serviceHistory {c : Controller} (h : c.core.Backed) (r : Readings) :
    (c.serviceHistory r).core.Backed := by
  rcases core_serviceHistory c r with hc | ⟨-, hc⟩
  · rwa [hc]
  · have hsaved := Backed.saveHistory h h.soundHistory
    rw [hc]
    cases (c.history.save c.medium).1.isOk with
    | true => exact hsaved
    | false => exact hsaved.mark h.soundHistory

theorem backed_check {k : Core} (h : k.Backed) (r : Readings) : (k.check r).Backed := by
  unfold Core.check
  split <;> exact h

theorem backed_tick {c : Controller} (h : c.core.Backed) (r : Readings) :
    (c.tick r).core.Backed := by
  have hcredit : ((({ c with machine := c.machine.setUptime r.uptime } :
      Controller).creditOnTime r.uptime)).core.Backed := by
    rw [core_creditOnTime]
    exact h
  have hhistory := backed_serviceHistory (backed_serviceStats hcredit r.uptime) r
  have hbefore : (c.beforeCheck r).core.Backed := by
    rw [beforeCheck, core_rollDay]
    exact hhistory
  rw [show (c.tick r).core = (c.beforeCheck r).core.check r from core_checkSchedule ..]
  exact backed_check hbefore r

theorem backed_facing {c : Controller} (h : c.core.Backed) {s : Step}
    (hs : ∀ a, s.refuses a = none) : (c.facing s).core.Backed := by
  have hready : (c.facing s).core.medium.Ready := ⟨h.ready.available, hs⟩
  have hread (a : Address) : (c.facing s).core.medium.read a = c.medium.read a :=
    h.ready.read_congr hready rfl
  exact Backed.frame h hready (fun n => hread _) (hread _) (hread _)

theorem backed_after {c : Controller} (h : c.core.Backed) {s : Step}
    (hs : ∀ a, s.refuses a = none) : (c.after s).core.Backed := by
  have hf := backed_facing h hs
  rw [after]
  cases s.call with
  | command x => exact backed_handle hf s.readings x
  | direct x => exact backed_perform hf s.readings x
  | applySection name fields => exact backed_applySection hf name fields
  | applySettings document => exact backed_applySettings hf document
  | saveSection n =>
    show ((c.facing s).saveSection n).2.core.Backed
    rw [core_saveSection]
    exact Backed.saveSections hf [n] hf.valid rfl fun _ _ => rfl
  | saveAll => exact backed_saveAll hf
  | resetSettings => exact backed_resetSettings hf
  | resetDaily =>
    show ((c.facing s).setStats _).core.Backed
    rwa [core_setStats]
  | resetIdle => exact hf
  | boot => exact backed_boot hf.ready s.readings
  | tick => exact backed_tick hf s.readings

theorem backed_run {c : Controller} (h : c.core.Backed) {steps : List Step}
    (hs : ∀ s ∈ steps, ∀ a, s.refuses a = none) : (c.run steps).core.Backed :=
  run_induction (P := fun d => d.core.Backed) h fun _ s hmem hd => backed_after hd (hs s hmem)

/-- As long as the store lets everything through, a fresh start brings back what is in memory after
any run: the sections, if the host name is one that a document could set and the numbers read back
from their texts, the schedule, and the history unless it is marked. -/
theorem reboot_restores {c : Controller} (hm : c.medium.Ready) (r : Readings) {steps : List Step}
    (hs : ∀ s ∈ steps, ∀ a, s.refuses a = none) :
    let d := (c.boot r).run steps
    (Text.isHostLabel d.settings.network.hostname = true → d.settings.Legible →
      ∀ n, (Settings.load d.medium).get n = d.settings.get n) ∧
    (ScheduleTable.load d.medium).same d.settings.schedule = true ∧
    (d.historyDirty = false → (ShotHistory.load d.medium).toList = d.history.toList) := by
  intro d
  have h : d.core.Backed := backed_run (backed_boot hm r) hs
  refine ⟨?_, h.schedule, h.history⟩
  intro hlabel hlegible n
  exact h.recalls.get_load h.valid hlabel hlegible n

theorem reboot_restores_setpoint :
    let steps : List Step := [
      ⟨⟨1000, none, 0⟩, fun _ => none,
        .applySection "temperature" (.object [("brewSetpoint", .int 92)])⟩,
      ⟨⟨2000, none, 0⟩, fun _ => none, .command .startShot⟩,
      ⟨⟨30000, none, 0⟩, fun _ => none, .command .endShot⟩,
      ⟨⟨40000, none, 100000⟩, fun _ => none, .tick⟩]
    let d := ((blank default (.reliable .empty)).boot ⟨0, none, 0⟩).run steps
    (∀ n, (Settings.load d.medium).get n = d.settings.get n) ∧
    (ScheduleTable.load d.medium).same d.settings.schedule = true ∧
    (ShotHistory.load d.medium).toList = d.history.toList := by
  obtain ⟨hsettings, hschedule, hhistory⟩ :=
    @reboot_restores (blank default (.reliable .empty)) ⟨rfl, fun _ => rfl⟩ ⟨0, none, 0⟩ [
      ⟨⟨1000, none, 0⟩, fun _ => none,
        .applySection "temperature" (.object [("brewSetpoint", .int 92)])⟩,
      ⟨⟨2000, none, 0⟩, fun _ => none, .command .startShot⟩,
      ⟨⟨30000, none, 0⟩, fun _ => none, .command .endShot⟩,
      ⟨⟨40000, none, 100000⟩, fun _ => none, .tick⟩] (by simp)
  refine ⟨hsettings (by decide +kernel) ?_, hschedule, hhistory (by decide +kernel)⟩
  intro n
  cases n <;> decide +kernel

end Controller

end Espresso
