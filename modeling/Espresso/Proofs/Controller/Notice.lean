import Espresso.Proofs.Controller.Books
import Espresso.Proofs.Observer

namespace Espresso

def Command.readsScale : Command → Bool
  | .sample (.scale _ _ _) => true
  | _ => false

def Call.readsScale (q : Call) : Bool := q.operation?.any Command.readsScale

namespace Controller

def status (c : Controller) : Status := c.machine.live.status

def shown (c : Controller) : Knowledge := ⟨c.settings, c.stats.undated, c.status⟩

def Told (c : Controller) (k : Knowledge) : Prop := k.hear c.outbox = c.shown

structure Silent (c d : Controller) : Prop where
  outbox : d.outbox = c.outbox
  shown : d.shown = c.shown

section

variable {c d : Controller} {k : Knowledge}

theorem Silent.refl (c : Controller) : c.Silent c := ⟨rfl, rfl⟩

theorem Silent.trans {e : Controller} (h : c.Silent d) (h' : d.Silent e) : c.Silent e :=
  ⟨h'.outbox.trans h.outbox, h'.shown.trans h.shown⟩

theorem told_shown (h : c.outbox = []) : c.Told c.shown := by
  rw [Told, h, Knowledge.hear_nil]

theorem Told.silent (h : c.Told k) (hs : c.Silent d) : d.Told k := by
  rw [Told, hs.outbox, hs.shown]
  exact h

theorem told_publish_iff (c : Controller) (e : Event) (k : Knowledge) :
    (c.publish e).Told k ↔ (k.hear c.outbox).learn e = c.shown := by
  rw [Told, Controller.publish, Knowledge.hear_append]
  rfl

theorem Told.publish (h : c.Told k) {e : Event} (ho : d.outbox = c.outbox)
    (he : c.shown.learn e = d.shown) : (d.publish e).Told k := by
  rw [told_publish_iff, ho, h]
  exact he

theorem Told.publishSettings {s : Settings} (h : c.Told { k with settings := s }) :
    c.publishSettings.Told k := by
  rw [Controller.publishSettings, told_publish_iff, ← Knowledge.learn_settings_hear k s, h]
  rfl

theorem Told.publishStats {s : Statistics} (h : c.Told { k with stats := s }) :
    c.publishStats.Told k := by
  rw [Controller.publishStats, told_publish_iff, ← Knowledge.learn_stats_hear k s, h]
  rfl

theorem Told.publishState {s : Status} (h : c.Told { k with status := s }) :
    c.publishState.Told k := by
  rw [Controller.publishState, told_publish_iff, ← Knowledge.learn_status_hear k s, h]
  rfl

theorem silent_store (c : Controller) (save : Medium → Except StorageError Unit × Medium) :
    c.Silent (c.store save).2 := ⟨rfl, rfl⟩

theorem silent_foldl_persist (c : Controller) (touched : List Section) :
    c.Silent (touched.foldl persist c) := by
  induction touched generalizing c with
  | nil => exact .refl c
  | cons n touched ih => exact (silent_store c (c.settings.saveSection n)).trans (ih _)

theorem silent_persistStats (c : Controller) (now : Nat) : c.Silent (c.persistStats now) := by
  obtain ⟨medium, statsDirty, h⟩ := c.persistStats_frame now
  rw [h]
  exact ⟨rfl, rfl⟩

theorem silent_markHistory (c : Controller) (r : Readings) : c.Silent (c.markHistory r) := by
  obtain ⟨historyDirty, historySaveDue, h⟩ := c.markHistory_frame r
  rw [h]
  exact ⟨rfl, rfl⟩

theorem silent_serviceStats (c : Controller) (now : Nat) : c.Silent (c.serviceStats now) := by
  obtain ⟨medium, statsDirty, lastStatsSave, h⟩ := c.serviceStats_frame now
  rw [h]
  exact ⟨rfl, rfl⟩

theorem silent_serviceHistory (c : Controller) (r : Readings) : c.Silent (c.serviceHistory r) := by
  obtain ⟨medium, historyDirty, historySaveDue, h⟩ := c.serviceHistory_frame r
  rw [h]
  exact ⟨rfl, rfl⟩

theorem Told.setStats (h : c.Told k) (stats : Statistics) : (c.setStats stats).Told k :=
  h.publish rfl rfl

theorem Told.syncType (h : c.Told k) : c.syncType.Told k := by
  rw [Controller.syncType]
  split
  · exact h.publish rfl rfl
  · exact h

theorem Told.setMachineType (h : c.Told k) (t : MachineType) (force : Bool) :
    (c.setMachineType t force).2.Told k := by
  rw [Controller.setMachineType]
  apply Told.syncType
  split
  · exact h
  · exact h.publish rfl rfl

theorem Told.creditOnTime (h : c.Told k) (now : Nat) : (c.creditOnTime now).Told k := by
  obtain ⟨onTimeCarry, hc | ⟨minutes, hc⟩⟩ := c.creditOnTime_frame now <;> rw [hc]
  · exact h.silent ⟨rfl, rfl⟩
  · exact (h.silent ⟨rfl, rfl⟩).setStats _

theorem Told.rollDay (h : c.Told k) (r : Readings) : (c.rollDay r).Told k := by
  obtain hc | ⟨day, ⟨hday, statsDirty, hc⟩ | hc⟩ := c.rollDay_frame r <;> rw [hc]
  · exact h
  · -- A day that is only noted is not told, and it is not shown either.
    apply h.silent
    refine ⟨rfl, Knowledge.ext rfl ?_ rfl⟩
    show (c.stats.rollDay day).undated = c.stats.undated
    rw [Statistics.rollDay, hday]
    rfl
  · exact h.setStats _

theorem Told.checkSchedule (h : c.Told k) (r : Readings) : (c.checkSchedule r).Told k := by
  have hfoldl (entries : List ScheduleEntry) (d : Controller) (hd : d.Told k) :
      ((entries.map Event.scheduleTriggered).foldl Controller.publish d).Told k := by
    induction entries generalizing d with
    | nil => exact hd
    | cons e entries ih => exact ih _ (hd.publish rfl rfl)
  unfold Controller.checkSchedule
  split
  · exact hfoldl _ _ (h.silent ⟨rfl, rfl⟩)
  · exact h

theorem Told.tick (h : c.Told k) (r : Readings) : (c.tick r).Told k := by
  have hcredit := Told.creditOnTime (h.silent
    (d := { c with machine := c.machine.setUptime r.uptime }) ⟨rfl, rfl⟩) r.uptime
  have hstats := hcredit.silent (silent_serviceStats _ r.uptime)
  have hhistory := hstats.silent (silent_serviceHistory _ r)
  exact (hhistory.rollDay r).checkSchedule r

end

section

variable {c : Controller}

theorem told_ifChanged (h : c.outbox = []) {o : Option Controller}
    (ho : ∀ d, o = some d → d.Told c.shown) : (c.ifChanged o).2.Told c.shown := by
  cases o with
  | none => exact told_shown h
  | some d => exact ho d rfl

theorem told_setSchedule (h : c.outbox = []) (schedule : ScheduleTable) :
    (c.setSchedule schedule).Told c.shown := by
  apply Told.publishSettings
  exact (told_shown (c := { c with settings := { c.settings with schedule } }) h).silent
    (silent_store _ _)

theorem told_map_setSchedule (h : c.outbox = []) (t : Except Error ScheduleTable) :
    (c.ifGranted (t.map c.setSchedule)).2.Told c.shown := by
  cases t with
  | error e => exact told_shown h
  | ok t => exact told_setSchedule h t

theorem told_adopt (h : c.outbox = []) (settings : Settings) (touched : List Section) :
    (c.adopt settings touched).Told c.shown := by
  have hc : ({ c with settings } : Controller).Told { c.shown with settings } := told_shown h
  apply Told.publishSettings
  refine Told.silent ?_ (silent_foldl_persist _ touched)
  split
  · exact hc.syncType
  · exact hc

theorem told_applySection (h : c.outbox = []) (name : String) (fields : Json) :
    (c.counted (c.applySection name fields)).2.Told c.shown := by
  obtain ⟨hc, -⟩ | ⟨n, -, hc⟩ := applySection_cases c name fields <;> rw [hc]
  · exact told_shown h
  · exact told_adopt h ..

theorem told_applySettings (h : c.outbox = []) (document : Json) :
    (c.counted (c.applySettings document)).2.Told c.shown := by
  obtain ⟨hc, -⟩ | hc := applySettings_cases c document <;> rw [hc]
  · exact told_shown h
  · exact told_adopt h ..

theorem told_publishStored {stored : Except StorageError Unit × Controller} {k : Knowledge}
    (h : stored.2.Told k) : (publishStored stored).2.Told k := by
  obtain ⟨_ | _, d⟩ := stored
  · exact h
  · exact Told.publishSettings h

theorem told_saveAll (h : c.outbox = []) : c.saveAll.2.Told c.shown := by
  have hs : (c.store c.settings.saveAll).2.Told c.shown := (told_shown h).silent (silent_store ..)
  unfold saveAll
  split <;> rename_i hstore <;> rw [hstore] at hs
  · exact told_publishStored (hs.silent (silent_store ..))
  · exact hs

theorem told_resetSettings (h : c.outbox = []) :
    c.resetSettings.2.Told { c.shown with settings := .initial c.settings.schedule } := by
  have hc : ({ c with settings := .initial c.settings.schedule } : Controller).Told
    { c.shown with settings := .initial c.settings.schedule } := told_shown h
  exact told_publishStored (hc.syncType.silent (silent_store ..))

theorem told_bootBoard (h : c.outbox = []) (version : String) (resetReason : UInt8)
    (t : MachineType) : (c.bootBoard version resetReason t).Told c.shown := by
  unfold bootBoard
  apply Told.publishState
  apply Told.setMachineType
  exact told_shown h

theorem told_endShot (h : c.outbox = []) {r : Readings} {p : Shot × Controller}
    (hp : c.endShot r = some p) : p.2.Told c.shown := by
  obtain ⟨⟨shot, machine⟩, -, rfl⟩ := Option.map_eq_some_iff.mp hp
  have hstats := Told.setStats (told_shown (c := { c with
    machine
    history := c.history.add shot }) h) c.stats.recordShot
  exact Told.publishState (s := machine.live.status)
    ((hstats.silent ⟨rfl, rfl⟩).publish rfl rfl)

theorem told_factoryReset (h : c.outbox = []) (r : Readings) :
    (c.factoryReset r).2.Told c.shown := by
  unfold factoryReset
  apply Told.publishStats
  apply Told.publishSettings
  apply Told.syncType
  exact told_shown h

theorem told_perform (h : c.outbox = []) (r : Readings) (x : Command) :
    (c.perform r x).2.Told { c.shown with
      status := if x.readsScale then { c.status with scale := true } else c.status } := by
  cases x with
  -- A reading of the scale connects it, and nobody is told.
  | sample s => cases s <;> exact told_shown h
  | connectivity peer connected =>
    apply told_ifChanged h
    intro d hd
    obtain ⟨machine, -, rfl⟩ := Option.map_eq_some_iff.mp hd
    exact Told.publishState (told_shown (c := { c with machine }) h)
  | boardBoot version resetReason t => exact told_bootBoard h version resetReason t
  | reportState state =>
    apply told_ifChanged h
    intro d hd
    obtain ⟨machine, -, rfl⟩ := Option.map_eq_some_iff.mp hd
    exact Told.publishState (told_shown (c := { c with machine }) h)
  | setMode mode =>
    apply told_ifChanged h
    intro d hd
    obtain ⟨machine, -, rfl⟩ := Option.map_eq_some_iff.mp hd
    apply Told.publishState
    split <;> exact told_shown h
  | startShot =>
    apply told_ifChanged h
    intro d hd
    obtain ⟨machine, -, rfl⟩ := Option.map_eq_some_iff.mp hd
    exact Told.publishState (told_shown (c := ({ c with machine } : Controller).resetIdle r) h)
  | endShot =>
    apply told_ifChanged h
    intro d hd
    obtain ⟨p, hp, rfl⟩ := Option.map_eq_some_iff.mp hd
    exact told_endShot h hp
  | rateShot index rating =>
    simp only [perform, rateShot]
    cases c.history.rate index rating with
    | error e => exact told_shown h
    | ok history => exact (told_shown (c := { c with history }) h).silent (silent_markHistory _ r)
  | clearHistory => exact told_shown h
  | steamCycle => exact (told_shown h).setStats _
  | energy amount =>
    apply told_ifChanged h
    intro d hd
    obtain ⟨stats, -, rfl⟩ := Option.map_eq_some_iff.mp hd
    exact (told_shown h).setStats stats
  | maintenance kind =>
    apply Told.publishStats
    refine Told.silent ?_ (silent_persistStats _ r.uptime)
    exact told_shown h
  | addSchedule e =>
    simp only [perform, addSchedule]
    cases c.settings.schedule.add e with
    | error e => exact told_shown h
    | ok p => exact told_setSchedule h p.2
  | updateSchedule id e => exact told_map_setSchedule h _
  | removeSchedule id => exact told_map_setSchedule h _
  | enableSchedule id enabled => exact told_map_setSchedule h _
  | autoOff enabled minutes => exact told_map_setSchedule h _
  | setMachineType t force => exact (told_shown h).setMachineType t force
  | factoryReset =>
    rw [(perform_factoryReset c r).1]
    exact told_factoryReset h r

/-- What an observer has to know already so that the events of a call tell him the rest. -/
def presumed (c : Controller) (q : Call) : Knowledge where
  settings := match q with
    | .resetSettings => .initial c.settings.schedule
    | _ => c.settings
  stats := c.stats.undated
  status := if q.readsScale then { c.status with scale := true } else c.status

theorem told_call (h : c.outbox = []) (r : Readings) {q : Call} (hb : q ≠ .boot) :
    (c.call r q).2.Told (c.presumed q) := by
  cases q with
  | command x =>
    show (c.handle r x).2.Told _
    unfold handle
    split
    · exact told_perform h r x
    · exact told_perform (c := c.resetIdle r) h r x
  | direct x => exact told_perform h r x
  | applySection name fields => exact told_applySection h name fields
  | applySettings document => exact told_applySettings h document
  | saveSection n => exact told_publishStored ((told_shown h).silent (silent_store ..))
  | saveAll => exact told_saveAll h
  | resetSettings => exact told_resetSettings h
  | resetDaily => exact (told_shown h).setStats _
  | resetIdle => exact told_shown h
  | boot => exact absurd rfl hb
  | tick => exact (told_shown h).tick r

theorem told_after (c : Controller) {s : Step} (hb : s.call ≠ .boot) :
    (c.after s).Told (c.presumed s.call) :=
  told_call (c := c.facing s) rfl s.readings hb

end

end Controller

end Espresso
