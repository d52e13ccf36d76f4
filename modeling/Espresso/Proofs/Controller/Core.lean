import Espresso.Proofs.Controller.Frame

namespace Espresso

def Event.entry? : Event → Option ScheduleEntry
  | .scheduleTriggered e => some e
  | _ => none

/-- What a controller keeps, and what decides over its schedule. -/
structure Core where
  tuning : Tuning
  medium : Medium
  settings : Settings
  history : ShotHistory
  historyDirty : Bool
  mode : MachineMode
  shotActive : Bool
  engine : ScheduleEngine
  lastScheduleCheck : Option Nat
  announced : List ScheduleEntry

namespace Core

def checkIsDue (k : Core) (r : Readings) : Bool :=
  k.lastScheduleCheck.all fun last => k.tuning.scheduleCheckInterval.toNat ≤ r.uptime - last

def localTime (k : Core) (r : Readings) : Option LocalTime :=
  r.unix.bind fun unix => LocalTime.ofUnix unix k.settings.time.localOffset

def dispatch (k : Core) (r : Readings) : List ScheduleEntry × ScheduleEngine :=
  k.engine.tick k.settings.schedule (k.localTime r) k.mode k.shotActive r.uptime

def check (k : Core) (r : Readings) : Core :=
  if k.checkIsDue r then
    { k with
      engine := (k.dispatch r).2
      lastScheduleCheck := some r.uptime
      announced := k.announced ++ (k.dispatch r).1 }
  else k

def store (k : Core) (save : Medium → Except StorageError Unit × Medium) : Core :=
  { k with medium := (save k.medium).2 }

def report (k : Core) (t : MachineType) (force : Bool) : Core :=
  let configured := k.settings.machineInfo.machineType
  if (!force && configured ≠ .unknown && configured ≠ t) || configured = t then k
  else
    let machineInfo := { k.settings.machineInfo with machineType := t }
    let settings := { k.settings with machineInfo }
    { k with settings }.store (settings.saveSection .machineInfo)

end Core

namespace Controller

def announced (c : Controller) : List ScheduleEntry := c.outbox.filterMap Event.entry?

def core (c : Controller) : Core where
  tuning := c.tuning
  medium := c.medium
  settings := c.settings
  history := c.history
  historyDirty := c.historyDirty
  mode := c.machine.live.mode
  shotActive := c.machine.live.shotActive
  engine := c.engine
  lastScheduleCheck := c.lastScheduleCheck
  announced := c.announced

theorem announced_publish (c : Controller) (e : Event) :
    (c.publish e).announced = c.announced ++ e.entry?.toList := by
  cases e <;> simp [announced, publish, Event.entry?]

theorem core_publish (c : Controller) {e : Event} (he : e.entry? = none) :
    (c.publish e).core = c.core := by
  have h : (c.publish e).announced = c.announced := by simp [announced_publish, he]
  have hc : (c.publish e).core = { c.core with announced := (c.publish e).announced } := rfl
  rw [hc, h]
  rfl

theorem core_publishSettings (c : Controller) : c.publishSettings.core = c.core :=
  core_publish c rfl

theorem core_publishStats (c : Controller) : c.publishStats.core = c.core := core_publish c rfl

theorem core_publishState (c : Controller) : c.publishState.core = c.core := core_publish c rfl

theorem ifChanged_induction {P : Core → Prop} {c : Controller} {o : Option Controller}
    (hc : P c.core) (ho : ∀ d, o = some d → P d.core) : P (c.ifChanged o).2.core := by
  cases o with
  | none => exact hc
  | some d => exact ho d rfl

theorem ifGranted_induction {P : Core → Prop} {c : Controller} {o : Except Error Controller}
    (hc : P c.core) (ho : ∀ d, o = .ok d → P d.core) : P (c.ifGranted o).2.core := by
  cases o with
  | error e => exact hc
  | ok d => exact ho d rfl

theorem core_store (c : Controller) (save : Medium → Except StorageError Unit × Medium) :
    (c.store save).2.core = c.core.store save := rfl

theorem core_persist (c : Controller) (n : Section) :
    (c.persist n).core = c.core.store (c.settings.saveSection n) := rfl

theorem core_foldl_persist (c : Controller) (touched : List Section) :
    (touched.foldl persist c).core = c.core.store (c.settings.saveSections touched) := by
  induction touched generalizing c with
  | nil => rfl
  | cons n touched ih =>
    rw [List.foldl_cons, ih]
    rfl

theorem core_persistStats (c : Controller) (now : Nat) :
    (c.persistStats now).core = c.core.store c.stats.save := by
  unfold persistStats
  split <;> rename_i h <;> exact congrArg (fun p => p.2.core) h.symm

theorem core_setStats (c : Controller) (stats : Statistics) : (c.setStats stats).core = c.core := by
  rw [setStats, core_publishStats]
  rfl

theorem core_syncType (c : Controller) : c.syncType.core = c.core := by
  rw [syncType, Machine.setType]
  by_cases h : c.machine.live.machineType = c.settings.machineInfo.machineType
  · simp only [h, if_true]
  · simp only [h, if_false, core_publishState]
    rfl

theorem settings_syncType (c : Controller) : c.syncType.settings = c.settings :=
  congrArg Core.settings (core_syncType c)

theorem core_adopt (c : Controller) (settings : Settings) (touched : List Section) :
    (c.adopt settings touched).core =
      { c.core with settings }.store (settings.saveSections touched) := by
  simp only [adopt, core_publishSettings, core_foldl_persist]
  split
  · rw [core_syncType, settings_syncType]
    rfl
  · rfl

theorem applySection_cases (c : Controller) (name : String) (fields : Json) :
    ((c.counted (c.applySection name fields)).2 = c ∧
      ∀ n, Section.ofName name = .ok n → Settings.count n fields = 0) ∨
    ∃ n, Section.ofName name = .ok n ∧
      (c.counted (c.applySection name fields)).2 = c.adopt (c.settings.patch n fields) [n] := by
  unfold applySection
  cases Section.ofName name with
  | error e => exact .inl ⟨rfl, nofun⟩
  | ok n =>
    simp only [bind, Except.bind]
    cases ho : fields.isObject with
    | false =>
      refine .inl ⟨rfl, fun m _ => ?_⟩
      rw [Settings.count, Schema.count,
        Option.not_isSome_iff_eq_none.mp (Bool.eq_false_iff.mp ho)]
    | true =>
      by_cases h : Settings.count n fields = 0
      · simp only [h]
        refine .inl ⟨rfl, ?_⟩
        rintro m ⟨⟩
        exact h
      · simp only [h]
        exact .inr ⟨n, rfl, rfl⟩

theorem applySettings_cases (c : Controller) (document : Json) :
    ((c.counted (c.applySettings document)).2 = c ∧ Settings.touched document = []) ∨
      (c.counted (c.applySettings document)).2 =
        c.adopt (c.settings.patchAll document) (Settings.touched document) := by
  unfold applySettings
  cases ho : document.isObject with
  | false =>
    refine .inl ⟨rfl, ?_⟩
    rw [Settings.touched, Option.not_isSome_iff_eq_none.mp (Bool.eq_false_iff.mp ho)]
    rfl
  | true =>
    by_cases h : Settings.touched document = []
    · simp only [h]
      exact .inl ⟨rfl, trivial⟩
    · simp only [h]
      exact .inr rfl

theorem core_applySection (c : Controller) (name : String) (fields : Json) :
    (c.counted (c.applySection name fields)).2.core = c.core ∨ ∃ n,
      (c.counted (c.applySection name fields)).2.core =
        { c.core with settings := c.settings.patch n fields }.store
          ((c.settings.patch n fields).saveSections [n]) := by
  obtain ⟨h, -⟩ | ⟨n, -, h⟩ := applySection_cases c name fields <;> rw [h]
  · exact .inl rfl
  · exact .inr ⟨n, core_adopt ..⟩

theorem core_applySettings (c : Controller) (document : Json) :
    (c.counted (c.applySettings document)).2.core = c.core ∨
      (c.counted (c.applySettings document)).2.core =
        { c.core with settings := c.settings.patchAll document }.store
          ((c.settings.patchAll document).saveSections (Settings.touched document)) := by
  obtain ⟨h, -⟩ | h := applySettings_cases c document <;> rw [h]
  · exact .inl rfl
  · exact .inr (core_adopt ..)

theorem core_setMachineType (c : Controller) (t : MachineType) (force : Bool) :
    (c.setMachineType t force).2.core = c.core.report t force := by
  have hs : c.core.settings = c.settings := rfl
  simp only [setMachineType, core_syncType, Core.report, hs]
  split
  · rfl
  · rw [core_publishSettings, core_persist]
    rfl

theorem core_machine (c : Controller) {machine : Machine}
    (hm : machine.live.mode = c.machine.live.mode)
    (hs : machine.live.shotActive = c.machine.live.shotActive) :
    ({ c with machine } : Controller).core = c.core := by
  simp only [core, hm, hs]
  rfl

theorem core_bootBoard (c : Controller) (version : String) (resetReason : UInt8) (t : MachineType) :
    (c.bootBoard version resetReason t).core = c.core.report t false := by
  have hm (machine : Machine) : ((machine.setConnected .controlBoard true).getD machine).live.mode =
        machine.live.mode ∧
      ((machine.setConnected .controlBoard true).getD machine).live.shotActive =
        machine.live.shotActive := by
    unfold Machine.setConnected
    split <;> exact ⟨rfl, rfl⟩
  rw [bootBoard, core_publishState, core_setMachineType,
    core_machine c (hm (c.machine.setBoard version resetReason)).1
      (hm (c.machine.setBoard version resetReason)).2]

theorem core_observe (c : Controller) (r : Readings) (sample : Sample) :
    (c.observe r sample).core = c.core := by
  cases sample <;> rfl

theorem core_setState {c d : Controller} {state : MachineState} (h : c.setState state = some d) :
    d.core = c.core := by
  obtain ⟨machine, hm, rfl⟩ := Option.map_eq_some_iff.mp h
  obtain ⟨-, hs⟩ := (Option.ite_none_left_eq_some ..).mp hm
  obtain rfl := Option.some.inj hs
  rw [core_publishState]
  rfl

theorem core_setConnected {c d : Controller} {peer : Peer} {connected : Bool}
    (h : c.setConnected peer connected = some d) : d.core = c.core := by
  obtain ⟨machine, hm, rfl⟩ := Option.map_eq_some_iff.mp h
  obtain ⟨-, hs⟩ := (Option.ite_none_left_eq_some ..).mp hm
  obtain rfl := Option.some.inj hs
  rw [core_publishState]
  cases peer <;> rfl

theorem core_setMode {c d : Controller} {r : Readings} {mode : MachineMode}
    (h : c.setMode r mode = some d) :
    c.machine.live.mode ≠ mode ∧
      d.core = { c.core with
        mode
        engine := if c.machine.live.mode = .standby then c.engine.resetIdle r.uptime
          else c.engine } := by
  obtain ⟨machine, hm, rfl⟩ := Option.map_eq_some_iff.mp h
  obtain ⟨hne, hs⟩ := (Option.ite_none_left_eq_some ..).mp hm
  obtain rfl := Option.some.inj hs
  refine ⟨hne, ?_⟩
  rw [core_publishState]
  split <;> rfl

theorem core_startShot {c d : Controller} {r : Readings} (h : c.startShot r = some d) :
    d.core = { c.core with shotActive := true, engine := c.engine.resetIdle r.uptime } := by
  obtain ⟨machine, hm, rfl⟩ := Option.map_eq_some_iff.mp h
  obtain ⟨-, hs⟩ := (Option.ite_none_left_eq_some ..).mp hm
  obtain rfl := Option.some.inj hs
  rw [core_publishState]
  rfl

theorem core_endShot {c d : Controller} {r : Readings} {shot : Shot}
    (h : c.endShot r = some (shot, d)) :
    c.machine.shotRecord r.uptime = shot ∧
      d.core = { c.core with
        shotActive := false
        history := c.history.add shot
        historyDirty := true
        engine := c.engine.resetIdle r.uptime } := by
  obtain ⟨⟨s, machine⟩, hm, he⟩ := Option.map_eq_some_iff.mp h
  obtain ⟨-, hs⟩ := (Option.ite_none_right_eq_some ..).mp hm
  obtain ⟨rfl, rfl⟩ := Prod.mk.inj (Option.some.inj hs)
  obtain ⟨rfl, rfl⟩ := Prod.mk.inj he
  refine ⟨rfl, ?_⟩
  rw [core_publishState, core_publish _ rfl]
  have hs (d : Controller) (due : Nat) : ({ d with
      historyDirty := true
      historySaveDue := due }.resetIdle r).core =
      { d.core with historyDirty := true, engine := d.engine.resetIdle r.uptime } := rfl
  rw [hs, core_setStats]
  rfl

theorem core_markHistory (c : Controller) (r : Readings) :
    (c.markHistory r).core = { c.core with historyDirty := true } := by
  unfold markHistory
  split
  · next h =>
    simp only [core, h]
  · rfl

theorem core_rateShot {c d : Controller} {r : Readings} {index : Nat} {rating : UInt8}
    (h : c.rateShot r index rating = .ok d) :
    ∃ history, c.history.rate index rating = .ok history ∧
      d.core = { c.core with history, historyDirty := true } := by
  rw [rateShot] at h
  cases hr : c.history.rate index rating with
  | error e =>
    rw [hr] at h
    cases h
  | ok history =>
    rw [hr] at h
    obtain rfl := Except.ok.inj h
    refine ⟨history, rfl, ?_⟩
    rw [core_markHistory]
    rfl

theorem core_clearHistory (c : Controller) :
    c.clearHistory.core =
      { c.core with history := c.history.clear, historyDirty := false }.store c.history.clear.save :=
  rfl

theorem core_addEnergy {c d : Controller} {energy : Single} (h : c.addEnergy energy = some d) :
    d.core = c.core := by
  obtain ⟨stats, -, rfl⟩ := Option.map_eq_some_iff.mp h
  exact core_setStats c stats

theorem core_recordMaintenance (c : Controller) (r : Readings) (kind : Maintenance) :
    (c.recordMaintenance r kind).core =
      c.core.store (c.stats.recordMaintenance kind (c.timestamp r)).save := by
  rw [recordMaintenance, core_publishStats, core_persistStats]
  rfl

theorem core_setSchedule (c : Controller) (schedule : ScheduleTable) :
    (c.setSchedule schedule).core =
      { c.core with settings := { c.settings with schedule } }.store schedule.save := by
  rw [setSchedule, core_publishSettings, core_store]
  rfl

theorem core_factoryReset (c : Controller) (r : Readings) :
    (c.factoryReset r).2.core =
      { c.core with
        settings := default
        history := c.history.clear
        historyDirty := false
        engine := .start r.uptime }.store (eraseSpaces spaces) := by
  simp only [factoryReset, core_publishStats, core_publishSettings, core_syncType]
  rfl

theorem perform_factoryReset (c : Controller) (r : Readings) :
    (c.perform r .factoryReset).2 = (c.factoryReset r).2 ∧
      ((c.perform r .factoryReset).1 = .ok .done ∨
        ∃ e, (c.perform r .factoryReset).1 = .error (.storage e)) := by
  rw [perform]
  split
  · rename_i h
    exact ⟨by rw [h], .inl rfl⟩
  · rename_i e _ h
    exact ⟨by rw [h], .inr ⟨e, rfl⟩⟩

theorem core_publishStored (stored : Except StorageError Unit × Controller) :
    (publishStored stored).2.core = stored.2.core := by
  obtain ⟨_ | _, c⟩ := stored
  · rfl
  · exact core_publishSettings c

theorem core_saveSection (c : Controller) (n : Section) :
    (c.saveSection n).2.core = c.core.store (c.settings.saveSection n) := by
  rw [saveSection, core_publishStored, core_store]

theorem core_saveAll (c : Controller) :
    c.saveAll.2.core =
      if (c.store c.settings.saveAll).1.isOk then
        (c.core.store c.settings.saveAll).store c.settings.schedule.save
      else c.core.store c.settings.saveAll := by
  have hc := core_store c c.settings.saveAll
  have hs : (c.store c.settings.saveAll).2.settings = c.settings := rfl
  unfold saveAll
  rcases h : c.store c.settings.saveAll with ⟨_ | _, d⟩ <;> rw [h] at hc hs <;> dsimp only at hc hs ⊢
  · exact hc
  · rw [core_publishStored, core_store, hs, hc]
    rfl

theorem core_resetSettings (c : Controller) :
    c.resetSettings.2.core =
      { c.core with settings := .initial c.settings.schedule }.store
        (Settings.initial c.settings.schedule).saveAll := by
  rw [resetSettings, core_publishStored, core_store, core_syncType, settings_syncType]
  rfl

theorem core_boot (c : Controller) (r : Readings) :
    (c.boot r).core =
      { c.core with
        settings := { Settings.load c.medium with schedule := ScheduleTable.load c.medium }
        history := ShotHistory.load c.medium
        historyDirty := false
        engine := .start r.uptime
        lastScheduleCheck := none } := by
  have hm (m : Machine) (t : MachineType) : ((m.setType t).getD m).live.mode = m.live.mode ∧
      ((m.setType t).getD m).live.shotActive = m.live.shotActive := by
    unfold Machine.setType
    split <;> exact ⟨rfl, rfl⟩
  simp only [boot, core, (hm _ _).1, (hm _ _).2]
  rfl

theorem core_creditOnTime (c : Controller) (now : Nat) : (c.creditOnTime now).core = c.core := by
  obtain ⟨onTimeCarry, h | ⟨minutes, h⟩⟩ := c.creditOnTime_frame now <;> rw [h]
  · rfl
  · exact core_setStats { c with lastTick := now, onTimeCarry } _

theorem core_serviceStats (c : Controller) (now : Nat) :
    (c.serviceStats now).core = c.core ∨
      (c.serviceStats now).core = c.core.store c.stats.save := by
  unfold serviceStats
  split
  · exact .inl rfl
  · split
    · exact .inr (core_persistStats c now)
    · exact .inl rfl

theorem core_serviceHistory (c : Controller) (r : Readings) :
    (c.serviceHistory r).core = c.core ∨ c.historyDirty = true ∧
      (c.serviceHistory r).core =
        { c.core.store c.history.save with
          historyDirty := !(c.history.save c.medium).1.isOk } := by
  unfold serviceHistory
  split
  · next hd =>
    dsimp only
    split
    · exact .inl rfl
    · refine .inr ⟨hd.1, ?_⟩
      have hc := core_store c c.history.save
      have ho : (c.store c.history.save).1 = (c.history.save c.medium).1 := rfl
      have hh : (c.store c.history.save).2.historyDirty = c.historyDirty := rfl
      rw [← ho, ← hc]
      rcases hs : c.store c.history.save with ⟨_ | _, d⟩
      · rw [hs, hd.1] at hh
        dsimp only [Except.isOk, Except.toBool] at hh ⊢
        rw [Bool.not_false, ← hh]
        rfl
      · rfl
  · exact .inl rfl

theorem core_rollDay (c : Controller) (r : Readings) : (c.rollDay r).core = c.core := by
  obtain h | ⟨day, ⟨-, statsDirty, h⟩ | h⟩ := c.rollDay_frame r <;> rw [h]
  · rfl
  · exact core_setStats c _

theorem core_foldl_publish (c : Controller) (entries : List ScheduleEntry) :
    ((entries.map Event.scheduleTriggered).foldl publish c).core =
      { c.core with announced := c.announced ++ entries } := by
  have h : (c.outbox ++ entries.map Event.scheduleTriggered).filterMap Event.entry? =
      c.announced ++ entries := by
    rw [List.filterMap_append, List.filterMap_map]
    exact congrArg (c.announced ++ ·) List.filterMap_some
  rw [foldl_publish]
  exact congrArg (fun announced => { c.core with announced }) h

theorem core_checkSchedule (c : Controller) (r : Readings) :
    (c.checkSchedule r).core = c.core.check r := by
  have hdue : c.core.checkIsDue r = c.lastScheduleCheck.all fun last =>
      decide (c.tuning.scheduleCheckInterval.toNat ≤ r.uptime - last) := rfl
  rw [checkSchedule, Core.check, hdue]
  split
  · dsimp only
    rw [core_foldl_publish]
    rfl
  · rfl

def beforeCheck (c : Controller) (r : Readings) : Controller :=
  (((({ c with machine := c.machine.setUptime r.uptime } : Controller).creditOnTime
    r.uptime).serviceStats r.uptime).serviceHistory r).rollDay r

theorem core_beforeCheck (c : Controller) (r : Readings) :
    ∃ medium dirty,
      (c.beforeCheck r).core = { c.core with medium, historyDirty := dirty } := by
  have hstats (d : Controller) : ∃ medium, (d.serviceStats r.uptime).core = { d.core with medium } := by
    rcases core_serviceStats d r.uptime with h | h
    · exact ⟨d.medium, h⟩
    · exact ⟨_, h⟩
  have hhistory (d : Controller) : ∃ medium dirty,
      (d.serviceHistory r).core = { d.core with medium, historyDirty := dirty } := by
    rcases core_serviceHistory d r with h | ⟨-, h⟩
    · exact ⟨d.medium, d.historyDirty, h⟩
    · exact ⟨_, _, h⟩
  obtain ⟨m₁, h₁⟩ := hstats (({ c with machine := c.machine.setUptime r.uptime } :
    Controller).creditOnTime r.uptime)
  obtain ⟨m₂, dirty, h₂⟩ := hhistory ((({ c with machine := c.machine.setUptime r.uptime } :
    Controller).creditOnTime r.uptime).serviceStats r.uptime)
  refine ⟨m₂, dirty, ?_⟩
  rw [beforeCheck, core_rollDay, h₂, h₁, core_creditOnTime]
  rfl

theorem core_tick (c : Controller) (r : Readings) :
    ∃ medium dirty, (c.tick r).core = { c.core.check r with medium, historyDirty := dirty } := by
  have hcheck (k : Core) (medium : Medium) (dirty : Bool) :
      ({ k with medium, historyDirty := dirty } : Core).check r =
        { k.check r with medium, historyDirty := dirty } := by
    have hdue : ({ k with medium, historyDirty := dirty } : Core).checkIsDue r = k.checkIsDue r := rfl
    rw [Core.check, Core.check, hdue]
    split <;> rfl
  obtain ⟨medium, dirty, h⟩ := core_beforeCheck c r
  refine ⟨medium, dirty, ?_⟩
  rw [show (c.tick r).core = (c.beforeCheck r).core.check r from core_checkSchedule .., h, hcheck]

end Controller

end Espresso
