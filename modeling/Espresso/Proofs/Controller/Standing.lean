import Espresso.Proofs.Controller.Frame
import Espresso.Proofs.Controller.Refusal
import Espresso.Proofs.Statistics.Counters

/-!
What the routine of a controller leaves as it stands: the type of the machine, and what is recorded,
counted and told of shots.
-/

namespace Espresso

def Event.shot? : Event → Option Shot
  | .shotCompleted s => some s
  | _ => none

def Command.isRoutine : Command → Bool
  | .boardBoot _ _ _ | .setMachineType _ _ | .factoryReset => false
  | .endShot | .rateShot _ _ | .clearHistory => false
  | _ => true

def Call.isRoutine : Call → Bool
  | .saveSection _ | .saveAll | .resetDaily | .resetIdle | .tick => true
  | _ => false

structure Types where
  configured : MachineType
  shown : MachineType

structure Tally where
  history : ShotHistory
  total : UInt32
  told : List Shot

structure Standing where
  types : Types
  tally : Tally

namespace Controller

def configured (c : Controller) : MachineType := c.settings.machineInfo.machineType

def types (c : Controller) : Types := ⟨c.configured, c.machine.live.machineType⟩

def tally (c : Controller) : Tally :=
  ⟨c.history, c.stats.totalShots, c.outbox.filterMap Event.shot?⟩

def standing (c : Controller) : Standing := ⟨c.types, c.tally⟩

variable {c : Controller}

theorem filterMap_shot_append {outbox events : List Event} (h : ∀ e ∈ events, e.shot? = none) :
    (outbox ++ events).filterMap Event.shot? = outbox.filterMap Event.shot? := by
  rw [List.filterMap_append, List.filterMap_eq_nil_iff.mpr h, List.append_nil]

theorem tally_publish (c : Controller) {e : Event} (he : e.shot? = none) :
    (c.publish e).tally = c.tally := by
  apply congrArg (Tally.mk c.history c.stats.totalShots)
  apply filterMap_shot_append
  rintro _ (_ | ⟨_, ⟨⟩⟩)
  exact he

theorem standing_publish (c : Controller) {e : Event} (he : e.shot? = none) :
    (c.publish e).standing = c.standing := congrArg (Standing.mk c.types) (tally_publish c he)

theorem standing_setStats {stats : Statistics} (h : stats.totalShots = c.stats.totalShots) :
    (c.setStats stats).standing = c.standing := by
  refine (standing_publish _ rfl).trans ?_
  exact congrArg (fun total => Standing.mk c.types { c.tally with total }) h

theorem standing_machine {machine : Machine}
    (h : machine.live.machineType = c.machine.live.machineType) :
    ({ c with machine } : Controller).publishState.standing = c.standing := by
  refine (standing_publish _ rfl).trans ?_
  exact congrArg (fun shown => Standing.mk { c.types with shown } c.tally) h

theorem standing_foldl_persist (c : Controller) (touched : List Section) :
    (touched.foldl persist c).standing = c.standing := by
  induction touched generalizing c with
  | nil => rfl
  | cons n touched ih => exact ih (c.persist n)

theorem standing_persistStats (c : Controller) (now : Nat) :
    (c.persistStats now).standing = c.standing := by
  obtain ⟨medium, statsDirty, h⟩ := c.persistStats_frame now
  rw [h]
  rfl

theorem standing_markHistory (c : Controller) (r : Readings) :
    (c.markHistory r).standing = c.standing := by
  obtain ⟨historyDirty, historySaveDue, h⟩ := c.markHistory_frame r
  rw [h]
  rfl

theorem standing_publishStored (stored : Except StorageError Unit × Controller) :
    (publishStored stored).2.standing = stored.2.standing := by
  obtain ⟨_ | _, d⟩ := stored
  · rfl
  · exact standing_publish d rfl

theorem standing_saveAll (c : Controller) : c.saveAll.2.standing = c.standing := by
  have hc : (c.store c.settings.saveAll).2.standing = c.standing := rfl
  unfold saveAll
  split <;> rename_i h <;> rw [h] at hc
  · exact (standing_publishStored _).trans hc
  · exact hc

theorem standing_setSchedule (c : Controller) (schedule : ScheduleTable) :
    (c.setSchedule schedule).standing = c.standing := standing_publish _ rfl

theorem standing_map_setSchedule (c : Controller) (t : Except Error ScheduleTable) :
    (c.ifGranted (t.map c.setSchedule)).2.standing = c.standing := by
  cases t with
  | error e => rfl
  | ok t => exact standing_setSchedule c t

theorem standing_ifChanged {α : Type} {o : Option α} {f : α → Controller}
    (h : ∀ a, o = some a → (f a).standing = c.standing) :
    (c.ifChanged (o.map f)).2.standing = c.standing := by
  cases o with
  | none => rfl
  | some a => exact h a rfl

theorem standing_perform (c : Controller) (r : Readings) {x : Command} (hx : x.isRoutine = true) :
    (c.perform r x).2.standing = c.standing := by
  cases x with
  | sample s => cases s <;> rfl
  | connectivity peer connected =>
    apply standing_ifChanged
    intro machine hm
    obtain ⟨-, hs⟩ := (Option.ite_none_left_eq_some ..).mp hm
    obtain rfl := Option.some.inj hs
    exact standing_machine (by cases peer <;> rfl)
  | reportState state =>
    apply standing_ifChanged
    intro machine hm
    obtain ⟨-, hs⟩ := (Option.ite_none_left_eq_some ..).mp hm
    obtain rfl := Option.some.inj hs
    exact standing_machine rfl
  | setMode mode =>
    apply standing_ifChanged
    intro machine hm
    obtain ⟨-, hs⟩ := (Option.ite_none_left_eq_some ..).mp hm
    obtain rfl := Option.some.inj hs
    dsimp only
    split <;> exact standing_machine rfl
  | startShot =>
    apply standing_ifChanged
    intro machine hm
    obtain ⟨-, hs⟩ := (Option.ite_none_left_eq_some ..).mp hm
    obtain rfl := Option.some.inj hs
    exact standing_machine rfl
  | steamCycle => exact standing_setStats rfl
  | energy amount =>
    apply standing_ifChanged
    intro stats hm
    obtain ⟨-, hs⟩ := (Option.ite_none_right_eq_some ..).mp hm
    obtain rfl := Option.some.inj hs
    exact standing_setStats rfl
  | maintenance kind =>
    refine (standing_publish _ rfl).trans ((standing_persistStats ..).trans ?_)
    cases kind <;> rfl
  | addSchedule e =>
    simp only [perform, addSchedule]
    cases c.settings.schedule.add e with
    | error e => rfl
    | ok p => exact standing_setSchedule c p.2
  | updateSchedule id e => exact standing_map_setSchedule ..
  | removeSchedule id => exact standing_map_setSchedule ..
  | enableSchedule id enabled => exact standing_map_setSchedule ..
  | autoOff enabled minutes => exact standing_map_setSchedule ..
  | _ => cases hx

theorem standing_creditOnTime (c : Controller) (now : Nat) :
    (c.creditOnTime now).standing = c.standing := by
  obtain ⟨onTimeCarry, h | ⟨minutes, h⟩⟩ := c.creditOnTime_frame now <;> rw [h]
  · rfl
  · exact standing_setStats rfl

theorem standing_serviceStats (c : Controller) (now : Nat) :
    (c.serviceStats now).standing = c.standing := by
  obtain ⟨medium, statsDirty, lastStatsSave, h⟩ := c.serviceStats_frame now
  rw [h]
  rfl

theorem standing_serviceHistory (c : Controller) (r : Readings) :
    (c.serviceHistory r).standing = c.standing := by
  obtain ⟨medium, historyDirty, historySaveDue, h⟩ := c.serviceHistory_frame r
  rw [h]
  rfl

theorem standing_rollDay (c : Controller) (r : Readings) :
    (c.rollDay r).standing = c.standing := by
  have hroll (day : UInt32) : (c.stats.rollDay day).totalShots = c.stats.totalShots :=
    c.stats.count_rollDay day .shots
  obtain h | ⟨day, ⟨-, statsDirty, h⟩ | h⟩ := c.rollDay_frame r <;> rw [h]
  · exact congrArg (fun total => Standing.mk c.types { c.tally with total }) (hroll day)
  · exact standing_setStats (hroll day)

theorem standing_checkSchedule (c : Controller) (r : Readings) :
    (c.checkSchedule r).standing = c.standing := by
  obtain ⟨engine, lastScheduleCheck, entries, h⟩ := c.checkSchedule_frame r
  rw [h]
  apply congrArg fun told => Standing.mk c.types { c.tally with told }
  apply filterMap_shot_append
  intro e he
  obtain ⟨entry, -, rfl⟩ := List.mem_map.mp he
  rfl

theorem standing_tick (c : Controller) (r : Readings) : (c.tick r).standing = c.standing := by
  rw [tick, standing_checkSchedule, standing_rollDay, standing_serviceHistory,
    standing_serviceStats, standing_creditOnTime]
  rfl

theorem standing_call (c : Controller) (r : Readings) {q : Call} (hq : q.isRoutine = true) :
    (c.call r q).2.standing = c.standing := by
  cases q with
  | saveSection n => exact standing_publishStored (c.store (c.settings.saveSection n))
  | saveAll => exact standing_saveAll c
  | resetDaily => exact standing_setStats rfl
  | resetIdle => rfl
  | tick => exact standing_tick c r
  | _ => cases hq

theorem standing_attending (c : Controller) (s : Step) :
    (c.attending s).standing = (c.facing s).standing := by
  rw [attending]
  split <;> rfl

end Controller

end Espresso
