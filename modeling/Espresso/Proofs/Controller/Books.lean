import Espresso.Proofs.Controller.Core
import Espresso.Proofs.Controller.Spaces

namespace Espresso

def Call.operation? : Call → Option Command
  | .command x => some x
  | .direct x => some x
  | _ => none

def Command.sparesBooks : Command → Bool
  | .endShot | .rateShot _ _ | .clearHistory | .steamCycle | .energy _ | .maintenance _
  | .factoryReset => false
  | _ => true

def Call.sparesBooks : Call → Bool
  | .command x => x.sparesBooks
  | .direct x => x.sparesBooks
  | .resetDaily | .boot | .tick => false
  | _ => true

namespace Controller

def books : List Address := [Statistics.address, ShotHistory.address]

theorem path_ne_of_mem_books {a : Address} (ha : a ∈ books) :
    (∀ n, (Settings.address n).path ≠ a.path) ∧ ScheduleTable.address.path ≠ a.path := by
  simp only [books, List.mem_cons, List.not_mem_nil, or_false] at ha
  rcases ha with rfl | rfl
  · exact ⟨fun n => (path_ne_address n (by decide)).symm, by decide⟩
  · exact ⟨fun n => (path_ne_address n (by decide)).symm, by decide⟩

structure SparesBooks (c d : Controller) : Prop where
  tuning : d.tuning = c.tuning
  stats : d.stats = c.stats
  statsDirty : d.statsDirty = c.statsDirty
  lastStatsSave : d.lastStatsSave = c.lastStatsSave
  history : d.history = c.history
  historyDirty : d.historyDirty = c.historyDirty
  historySaveDue : d.historySaveDue = c.historySaveDue
  lastTick : d.lastTick = c.lastTick
  onTimeCarry : d.onTimeCarry = c.onTimeCarry
  medium : ∀ a ∈ books, c.medium.Elsewhere a d.medium

variable {c d e : Controller} {r : Readings}

theorem SparesBooks.trans (h : c.SparesBooks d) (h' : d.SparesBooks e) : c.SparesBooks e where
  tuning := h'.tuning.trans h.tuning
  stats := h'.stats.trans h.stats
  statsDirty := h'.statsDirty.trans h.statsDirty
  lastStatsSave := h'.lastStatsSave.trans h.lastStatsSave
  history := h'.history.trans h.history
  historyDirty := h'.historyDirty.trans h.historyDirty
  historySaveDue := h'.historySaveDue.trans h.historySaveDue
  lastTick := h'.lastTick.trans h.lastTick
  onTimeCarry := h'.onTimeCarry.trans h.onTimeCarry
  medium a ha := (h.medium a ha).trans (h'.medium a ha)

theorem sparesBooks_store {save : Medium → Except StorageError Unit × Medium}
    (h : ∀ a ∈ books, c.medium.Elsewhere a (save c.medium).2) : c.SparesBooks (c.store save).2 :=
  ⟨rfl, rfl, rfl, rfl, rfl, rfl, rfl, rfl, rfl, h⟩

theorem sparesBooks_of_memory (c : Controller) (settings : Settings) (machine : Machine)
    (engine : ScheduleEngine) (outbox : List Event) :
    c.SparesBooks { c with settings, machine, engine, outbox } :=
  ⟨rfl, rfl, rfl, rfl, rfl, rfl, rfl, rfl, rfl, fun a _ => .refl a _⟩

theorem SparesBooks.refl (c : Controller) : c.SparesBooks c :=
  sparesBooks_of_memory c c.settings c.machine c.engine c.outbox

theorem SparesBooks.publish (h : c.SparesBooks d) (e : Event) : c.SparesBooks (d.publish e) :=
  h.trans (sparesBooks_of_memory ..)

theorem sparesBooks_saveSections (c : Controller) (s : Settings) (sections : List Section) :
    c.SparesBooks (c.store (s.saveSections sections)).2 :=
  sparesBooks_store fun _ ha => Medium.elsewhere_saveSections _ _ _ (path_ne_of_mem_books ha).1

theorem sparesBooks_saveSchedule (c : Controller) (t : ScheduleTable) :
    c.SparesBooks (c.store t.save).2 :=
  sparesBooks_store fun _ ha => Medium.elsewhere_write (path_ne_of_mem_books ha).2 _ _

theorem sparesBooks_foldl_persist (c : Controller) (touched : List Section) :
    c.SparesBooks (touched.foldl persist c) := by
  induction touched generalizing c with
  | nil => exact .refl c
  | cons n touched ih => exact (sparesBooks_saveSections c c.settings [n]).trans (ih _)

theorem SparesBooks.syncType (h : c.SparesBooks d) : c.SparesBooks d.syncType := by
  rw [Controller.syncType]
  split
  · exact h.trans (sparesBooks_of_memory ..)
  · exact h

theorem sparesBooks_setSchedule (c : Controller) (schedule : ScheduleTable) :
    c.SparesBooks (c.setSchedule schedule) := by
  apply SparesBooks.publish
  exact (sparesBooks_of_memory c { c.settings with schedule } ..).trans
    (sparesBooks_saveSchedule _ schedule)

theorem sparesBooks_adopt (c : Controller) (settings : Settings) (touched : List Section) :
    c.SparesBooks (c.adopt settings touched) := by
  have hc : c.SparesBooks { c with settings } := sparesBooks_of_memory ..
  apply SparesBooks.publish
  refine SparesBooks.trans ?_ (sparesBooks_foldl_persist _ touched)
  split
  · exact hc.syncType
  · exact hc

theorem sparesBooks_setMachineType (c : Controller) (t : MachineType) (force : Bool) :
    c.SparesBooks (c.setMachineType t force).2 := by
  apply SparesBooks.syncType
  split
  · exact .refl c
  · apply SparesBooks.publish
    exact (sparesBooks_of_memory c { c.settings with
      machineInfo := { c.settings.machineInfo with machineType := t } } ..).trans
        (sparesBooks_saveSections _ _ [.machineInfo])

theorem sparesBooks_applySection (c : Controller) (name : String) (fields : Json) :
    c.SparesBooks (c.counted (c.applySection name fields)).2 := by
  obtain ⟨h, -⟩ | ⟨n, -, h⟩ := applySection_cases c name fields <;> rw [h]
  · exact .refl c
  · exact sparesBooks_adopt ..

theorem sparesBooks_applySettings (c : Controller) (document : Json) :
    c.SparesBooks (c.counted (c.applySettings document)).2 := by
  obtain ⟨h, -⟩ | h := applySettings_cases c document <;> rw [h]
  · exact .refl c
  · exact sparesBooks_adopt ..

theorem SparesBooks.publishStored {stored : Except StorageError Unit × Controller}
    (h : c.SparesBooks stored.2) : c.SparesBooks (publishStored stored).2 := by
  obtain ⟨_ | _, d⟩ := stored
  · exact h
  · exact h.publish _

theorem sparesBooks_saveAll (c : Controller) : c.SparesBooks c.saveAll.2 := by
  have hsections : c.SparesBooks (c.store c.settings.saveAll).2 :=
    sparesBooks_saveSections c c.settings Section.all
  unfold saveAll
  split <;> rename_i h <;> rw [h] at hsections
  · exact (hsections.trans (sparesBooks_saveSchedule _ _)).publishStored
  · exact hsections

theorem sparesBooks_resetSettings (c : Controller) : c.SparesBooks c.resetSettings.2 := by
  have hc : c.SparesBooks { c with settings := .initial c.settings.schedule } :=
    sparesBooks_of_memory ..
  exact (hc.syncType.trans (sparesBooks_saveSections _ _ Section.all)).publishStored

theorem sparesBooks_ifChanged {o : Option Controller} (h : ∀ d, o = some d → c.SparesBooks d) :
    c.SparesBooks (c.ifChanged o).2 := by
  cases o with
  | none => exact .refl c
  | some d => exact h d rfl

theorem sparesBooks_map_setSchedule (c : Controller) (t : Except Error ScheduleTable) :
    c.SparesBooks (c.ifGranted (t.map c.setSchedule)).2 := by
  cases t with
  | error e => exact .refl c
  | ok t => exact sparesBooks_setSchedule c t

theorem sparesBooks_perform (c : Controller) (r : Readings) {x : Command}
    (hx : x.sparesBooks = true) : c.SparesBooks (c.perform r x).2 := by
  cases x with
  | sample s => exact sparesBooks_of_memory ..
  | connectivity peer connected =>
    apply sparesBooks_ifChanged
    intro d hd
    obtain ⟨machine, -, rfl⟩ := Option.map_eq_some_iff.mp hd
    exact sparesBooks_of_memory ..
  | boardBoot version resetReason t =>
    apply SparesBooks.publish
    exact (sparesBooks_of_memory c c.settings ((c.machine.setBoard version resetReason).setConnected
      .controlBoard true |>.getD _) ..).trans (sparesBooks_setMachineType _ t false)
  | reportState state =>
    apply sparesBooks_ifChanged
    intro d hd
    obtain ⟨machine, -, rfl⟩ := Option.map_eq_some_iff.mp hd
    exact sparesBooks_of_memory ..
  | setMode mode =>
    apply sparesBooks_ifChanged
    intro d hd
    obtain ⟨machine, -, rfl⟩ := Option.map_eq_some_iff.mp hd
    split <;> exact sparesBooks_of_memory ..
  | startShot =>
    apply sparesBooks_ifChanged
    intro d hd
    obtain ⟨machine, -, rfl⟩ := Option.map_eq_some_iff.mp hd
    exact sparesBooks_of_memory ..
  | addSchedule e =>
    simp only [perform, addSchedule]
    cases c.settings.schedule.add e with
    | error e => exact .refl c
    | ok p => exact sparesBooks_setSchedule c p.2
  | updateSchedule id e => exact sparesBooks_map_setSchedule ..
  | removeSchedule id => exact sparesBooks_map_setSchedule ..
  | enableSchedule id enabled => exact sparesBooks_map_setSchedule ..
  | autoOff enabled minutes => exact sparesBooks_map_setSchedule ..
  | setMachineType t force => exact sparesBooks_setMachineType ..
  | _ => cases hx

theorem sparesBooks_call (c : Controller) (r : Readings) {q : Call} (hq : q.sparesBooks = true) :
    c.SparesBooks (c.call r q).2 := by
  cases q with
  | command x =>
    show c.SparesBooks (c.handle r x).2
    unfold handle
    split
    · exact sparesBooks_perform c r hq
    · exact (sparesBooks_of_memory ..).trans (sparesBooks_perform (c.resetIdle r) r hq)
  | direct x => exact sparesBooks_perform c r hq
  | applySection name fields => exact sparesBooks_applySection ..
  | applySettings document => exact sparesBooks_applySettings ..
  | saveSection n =>
    have h : c.SparesBooks (c.store (c.settings.saveSection n)).2 :=
      sparesBooks_saveSections c c.settings [n]
    exact h.publishStored
  | saveAll => exact sparesBooks_saveAll c
  | resetSettings => exact sparesBooks_resetSettings c
  | resetIdle => exact sparesBooks_of_memory ..
  | _ => cases hq

end Controller

end Espresso
