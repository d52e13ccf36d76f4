import Espresso.Proofs.Controller.Core

namespace Espresso

namespace Controller

def memory (c : Controller) : Controller :=
  { c with
    medium := .reliable .empty
    statsDirty := false
    lastStatsSave := 0
    historyDirty := false
    historySaveDue := 0 }

theorem memory_congr {f : Controller → Controller} (hf : ∀ c, (f c).memory = (f c.memory).memory)
    {c d : Controller} (h : c.memory = d.memory) : (f c).memory = (f d).memory := by
  rw [hf c, hf d, h]

theorem memory_store (c : Controller) (save : Medium → Except StorageError Unit × Medium) :
    (c.store save).2.memory = c.memory := rfl

theorem memory_persistStats (c : Controller) (now : Nat) :
    (c.persistStats now).memory = c.memory := by
  obtain ⟨medium, statsDirty, h⟩ := c.persistStats_frame now
  rw [h]
  rfl

theorem memory_foldl_persist (c : Controller) (touched : List Section) :
    (touched.foldl persist c).memory = c.memory := by
  induction touched generalizing c with
  | nil => rfl
  | cons n touched ih => rw [List.foldl_cons, ih, persist, memory_store]

theorem memory_publishSettings (c : Controller) :
    c.publishSettings.memory = c.memory.publishSettings := rfl

theorem memory_syncType (c : Controller) : c.syncType.memory = c.memory.syncType.memory := by
  have h : c.memory.machine.setType c.memory.settings.machineInfo.machineType =
      c.machine.setType c.settings.machineInfo.machineType := rfl
  rw [syncType, syncType, h]
  split <;> rfl

theorem memory_adopt (c : Controller) (settings : Settings) (touched : List Section) :
    (c.adopt settings touched).memory = (c.memory.adopt settings touched).memory := by
  simp only [adopt, memory_publishSettings, memory_foldl_persist]
  split
  · rw [memory_congr memory_syncType (show ({ c with settings } : Controller).memory =
      ({ c.memory with settings } : Controller).memory from rfl)]
  · rfl

theorem memory_setMachineType (c : Controller) (t : MachineType) (force : Bool) :
    (c.setMachineType t force).2.memory = (c.memory.setMachineType t force).2.memory := by
  have h : c.memory.settings = c.settings := rfl
  simp only [setMachineType, h]
  apply memory_congr memory_syncType
  split
  · rfl
  · simp only [memory_publishSettings, persist, memory_store]
    rfl

theorem memory_bootBoard (c : Controller) (version : String) (resetReason : UInt8)
    (t : MachineType) :
    (c.bootBoard version resetReason t).memory = (c.memory.bootBoard version resetReason t).memory := by
  have publishState (d : Controller) : d.publishState.memory = d.memory.publishState := rfl
  rw [bootBoard, bootBoard, publishState, publishState, memory_setMachineType,
    memory_setMachineType { c.memory with machine := _ }]
  rfl

theorem memory_factoryReset (c : Controller) (r : Readings) :
    (c.factoryReset r).2.memory = (c.memory.factoryReset r).2.memory := by
  have publishStats (d : Controller) : d.publishStats.memory = d.memory.publishStats := rfl
  simp only [factoryReset, publishStats, memory_publishSettings]
  congr 2
  apply memory_congr memory_syncType
  rfl

theorem memory_recordMaintenance (c : Controller) (r : Readings) (kind : Maintenance) :
    (c.recordMaintenance r kind).memory = (c.memory.recordMaintenance r kind).memory := by
  have publishStats (d : Controller) : d.publishStats.memory = d.memory.publishStats := rfl
  simp only [recordMaintenance, publishStats, memory_persistStats]
  rfl

theorem memory_endShot (c : Controller) (r : Readings) :
    (c.endShot r).map (fun p => (p.1, p.2.memory)) =
      (c.memory.endShot r).map (fun p => (p.1, p.2.memory)) := by
  have h : c.memory.machine = c.machine := rfl
  rw [endShot, endShot, h]
  cases c.machine.endShot r.uptime with
  | none => rfl
  | some p => rfl

theorem memory_rateShot (c : Controller) (r : Readings) (index : Nat) (rating : UInt8) :
    (c.rateShot r index rating).map memory = (c.memory.rateShot r index rating).map memory := by
  have hm (d : Controller) : (d.markHistory r).memory = d.memory := by
    obtain ⟨historyDirty, historySaveDue, h⟩ := d.markHistory_frame r
    rw [h]
    rfl
  have h : c.memory.history = c.history := rfl
  rw [rateShot, rateShot, h]
  cases c.history.rate index rating with
  | error e => rfl
  | ok history =>
    simp only [Except.map, hm]
    rfl

def forget {α : Type} (p : α × Controller) : α × Controller := (p.1, p.2.memory)

theorem fst_eq_of_forget {α : Type} {p q : α × Controller} (h : forget p = forget q) : p.1 = q.1 :=
  (Prod.mk.inj h).1

theorem forget_ifChanged (c : Controller) {a b : Option Controller}
    (h : a.map memory = b.map memory) :
    forget (c.ifChanged a) = forget (c.memory.ifChanged b) := by
  cases a <;> cases b <;> simp_all [ifChanged, forget]
  rfl

theorem forget_ifGranted (c : Controller) {a b : Except Error Controller}
    (h : a.map memory = b.map memory) :
    forget (c.ifGranted a) = forget (c.memory.ifGranted b) := by
  cases a <;> cases b <;> simp_all [ifGranted, forget, Except.map]
  rfl

theorem forget_perform (c : Controller) (r : Readings) (x : Command) (hx : x ≠ .factoryReset) :
    forget (c.perform r x) = forget (c.memory.perform r x) := by
  have hm : c.memory.machine = c.machine := rfl
  have hs : c.memory.settings = c.settings := rfl
  cases x with
  | sample s => rfl
  | connectivity peer connected =>
    apply forget_ifChanged
    rw [setConnected, setConnected, hm]
    cases c.machine.setConnected peer connected <;> rfl
  | boardBoot version resetReason t => exact congrArg (Prod.mk _) (memory_bootBoard ..)
  | reportState state =>
    apply forget_ifChanged
    rw [setState, setState, hm]
    cases c.machine.setState state <;> rfl
  | setMode mode =>
    apply forget_ifChanged
    rw [Controller.setMode, Controller.setMode, hm]
    cases c.machine.setMode mode with
    | none => rfl
    | some machine =>
      simp only [Option.map_some]
      split <;> rfl
  | startShot =>
    apply forget_ifChanged
    have ht : c.memory.timestamp r = c.timestamp r := rfl
    rw [startShot, startShot, hm, hs, ht]
    cases c.machine.startShot r.uptime (c.timestamp r) c.settings.brew.dose <;> rfl
  | endShot =>
    apply forget_ifChanged
    have h := congrArg (Option.map Prod.snd) (memory_endShot c r)
    simpa only [Option.map_map, Function.comp_def] using h
  | rateShot index rating => exact forget_ifGranted c (memory_rateShot c r index rating)
  | clearHistory => rfl
  | steamCycle => rfl
  | energy amount =>
    apply forget_ifChanged
    have h : c.memory.stats = c.stats := rfl
    rw [addEnergy, addEnergy, h]
    cases c.stats.addEnergy amount <;> rfl
  | maintenance kind => exact congrArg (Prod.mk _) (memory_recordMaintenance c r kind)
  | addSchedule e =>
    simp only [perform, addSchedule, hs]
    cases c.settings.schedule.add e <;> rfl
  | updateSchedule id e =>
    apply forget_ifGranted
    rw [updateSchedule, updateSchedule, hs]
    cases c.settings.schedule.update id e <;> rfl
  | removeSchedule id =>
    apply forget_ifGranted
    rw [removeSchedule, removeSchedule, hs]
    cases c.settings.schedule.remove id <;> rfl
  | enableSchedule id enabled =>
    apply forget_ifGranted
    rw [enableSchedule, enableSchedule, hs]
    cases c.settings.schedule.enable id enabled <;> rfl
  | autoOff enabled minutes =>
    apply forget_ifGranted
    rw [setAutoOff, setAutoOff, hs]
    cases c.settings.schedule.setAutoOff enabled minutes <;> rfl
  | setMachineType t force => exact congrArg (Prod.mk _) (memory_setMachineType c t force)
  | factoryReset => exact absurd rfl hx

theorem memory_creditOnTime (c : Controller) (now : Nat) :
    (c.creditOnTime now).memory = (c.memory.creditOnTime now).memory := by
  have h : c.memory.machine.live = c.machine.live ∧ c.memory.onTimeCarry = c.onTimeCarry ∧
      c.memory.lastTick = c.lastTick := ⟨rfl, rfl, rfl⟩
  simp only [creditOnTime, h.1, h.2.1, h.2.2]
  split
  · rfl
  · split <;> rfl

theorem memory_serviceStats (c : Controller) (now : Nat) :
    (c.serviceStats now).memory = c.memory := by
  obtain ⟨medium, statsDirty, lastStatsSave, h⟩ := c.serviceStats_frame now
  rw [h]
  rfl

theorem memory_serviceHistory (c : Controller) (r : Readings) :
    (c.serviceHistory r).memory = c.memory := by
  obtain ⟨medium, historyDirty, historySaveDue, h⟩ := c.serviceHistory_frame r
  rw [h]
  rfl

theorem memory_rollDay (c : Controller) (r : Readings) :
    (c.rollDay r).memory = (c.memory.rollDay r).memory := by
  have h : c.memory.localTime r = c.localTime r := rfl
  have hs : c.memory.stats = c.stats := rfl
  rw [rollDay, rollDay, h]
  split
  · rfl
  · dsimp only
    rw [hs]
    split <;> rfl

theorem memory_foldl_publish (c : Controller) (events : List Event) :
    (events.foldl publish c).memory = (events.foldl publish c.memory).memory := by
  rw [foldl_publish, foldl_publish]
  rfl

theorem memory_checkSchedule (c : Controller) (r : Readings) :
    (c.checkSchedule r).memory = (c.memory.checkSchedule r).memory := by
  have h : c.memory.lastScheduleCheck = c.lastScheduleCheck ∧ c.memory.tuning = c.tuning :=
    ⟨rfl, rfl⟩
  simp only [checkSchedule, h.1, h.2]
  split
  · exact memory_congr (fun c => memory_foldl_publish c _) rfl
  · rfl

theorem memory_tick (c : Controller) (r : Readings) :
    (c.tick r).memory = (c.memory.tick r).memory := by
  simp only [tick]
  apply memory_congr (memory_checkSchedule · r)
  apply memory_congr (memory_rollDay · r)
  rw [memory_serviceHistory, memory_serviceHistory, memory_serviceStats, memory_serviceStats]
  apply memory_congr (memory_creditOnTime · r.uptime)
  rfl

end Controller

def Call.reliesOnStore : Call → Bool
  | .saveSection _ => true
  | .saveAll => true
  | .resetSettings => true
  | .boot => true
  | _ => false

/-- What a call answers if a factory reset counts as done although the store failed. -/
def Call.answer : Call → Outcome → Outcome
  | .command .factoryReset, .reply (.error (.storage _)) => .reply (.ok .done)
  | .direct .factoryReset, .reply (.error (.storage _)) => .reply (.ok .done)
  | _, o => o

namespace Controller

theorem answer_factoryReset (c : Controller) (r : Readings) :
    (Call.command .factoryReset).answer (.reply (c.perform r .factoryReset).1) = .reply (.ok .done) ∧
      (Call.direct .factoryReset).answer (.reply (c.perform r .factoryReset).1) =
        .reply (.ok .done) := by
  obtain ⟨-, h | ⟨e, h⟩⟩ := perform_factoryReset c r <;> rw [h] <;> exact ⟨rfl, rfl⟩

theorem memory_perform (c : Controller) (r : Readings) (x : Command) :
    (c.perform r x).2.memory = (c.memory.perform r x).2.memory := by
  by_cases hx : x = .factoryReset
  · rw [hx, (perform_factoryReset c r).1, (perform_factoryReset c.memory r).1]
    exact memory_factoryReset c r
  · exact congrArg Prod.snd (forget_perform c r x hx)

theorem forget_counted (c : Controller) {a b : Except Error (Nat × Controller)}
    (h : a.map forget = b.map forget) :
    forget (c.counted a) = forget (c.memory.counted b) := by
  cases a <;> cases b <;> simp_all [counted, forget, Except.map]
  rfl

theorem forget_applySection (c : Controller) (name : String) (fields : Json) :
    (c.applySection name fields).map forget = (c.memory.applySection name fields).map forget := by
  unfold applySection
  cases Section.ofName name with
  | error e => rfl
  | ok n =>
    simp only [bind, Except.bind]
    cases fields.isObject with
    | false => rfl
    | true =>
      by_cases h : Settings.count n fields = 0
      · simp only [h]
        rfl
      · simp only [h]
        exact congrArg (fun d => Except.ok (Settings.count n fields, d)) (memory_adopt c _ _)

theorem forget_applySettings (c : Controller) (document : Json) :
    (c.applySettings document).map forget = (c.memory.applySettings document).map forget := by
  unfold applySettings
  cases document.isObject with
  | false => rfl
  | true =>
    by_cases h : Settings.touched document = []
    · simp only [h]
      rfl
    · simp only [h]
      exact congrArg (fun d => Except.ok ((Settings.touched document).length, d)) (memory_adopt c _ _)

theorem memory_handle (c : Controller) (r : Readings) (x : Command) :
    (c.handle r x).2.memory = (c.memory.handle r x).2.memory := by
  unfold handle
  split
  · exact memory_perform c r x
  · exact memory_congr (memory_perform · r x) rfl

theorem memory_call (c : Controller) (r : Readings) (q : Call) (hq : q.reliesOnStore = false) :
    (c.call r q).2.memory = (c.memory.call r q).2.memory ∧
      q.answer (c.call r q).1 = q.answer (c.memory.call r q).1 := by
  have direct (d : Controller) (x : Command) (hx : x ≠ .factoryReset) :
      (d.perform r x).1 = (d.memory.perform r x).1 := fst_eq_of_forget (forget_perform d r x hx)
  cases q with
  | command x =>
    refine ⟨memory_handle c r x, ?_⟩
    by_cases hx : x = .factoryReset
    · subst hx
      exact (answer_factoryReset _ r).1.trans (answer_factoryReset _ r).1.symm
    · have h : (c.handle r x).1 = (c.memory.handle r x).1 := by
        unfold handle
        split
        · exact direct c x hx
        · exact (direct (c.resetIdle r) x hx).trans (direct (c.memory.resetIdle r) x hx).symm
      exact congrArg (fun a => (Call.command x).answer (.reply a)) h
  | direct x =>
    refine ⟨memory_perform c r x, ?_⟩
    by_cases hx : x = .factoryReset
    · subst hx
      exact (answer_factoryReset c r).2.trans (answer_factoryReset c.memory r).2.symm
    · exact congrArg (fun a => (Call.direct x).answer (.reply a)) (direct c x hx)
  | applySection name fields =>
    have h := forget_counted c (forget_applySection c name fields)
    exact ⟨congrArg Prod.snd h, fst_eq_of_forget h⟩
  | applySettings document =>
    have h := forget_counted c (forget_applySettings c document)
    exact ⟨congrArg Prod.snd h, fst_eq_of_forget h⟩
  | saveSection n => cases hq
  | saveAll => cases hq
  | resetSettings => cases hq
  | resetDaily => exact ⟨rfl, rfl⟩
  | resetIdle => exact ⟨rfl, rfl⟩
  | boot => cases hq
  | tick => exact ⟨memory_tick c r, rfl⟩

end Controller

end Espresso
