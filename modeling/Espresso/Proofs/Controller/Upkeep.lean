import Espresso.Proofs.Controller.Books
import Espresso.Proofs.Shot

/-!
How the history of shots is kept in the store. Every call acts on it in one of seven ways, and most
calls spare it.
-/

namespace Espresso

structure Upkeep where
  tuning : Tuning
  medium : Medium
  history : ShotHistory
  dirty : Bool
  due : Nat
  shotActive : Bool

namespace Upkeep

def isDue (k : Upkeep) (r : Readings) : Bool := k.dirty && k.due ≤ r.uptime

def hasRoom (k : Upkeep) (r : Readings) : Bool := k.tuning.historyMinFreeHeap < r.freeHeap

def quietUntil (k : Upkeep) (r : Readings) : Nat := r.uptime + k.tuning.historySaveDelay.toNat

def retryAt (k : Upkeep) (r : Readings) : Nat := r.uptime + k.tuning.historyRetryInterval.toNat

def service (k : Upkeep) (r : Readings) : Upkeep :=
  if k.isDue r then
    if k.hasRoom r then
      match k.history.save k.medium with
      | (.ok _, medium) => { k with medium, dirty := false }
      | (.error _, medium) => { k with medium, due := k.retryAt r }
    else { k with due := k.retryAt r }
  else k

structure Spares (k k' : Upkeep) : Prop where
  tuning : k'.tuning = k.tuning
  history : k'.history = k.history
  dirty : k'.dirty = k.dirty
  due : k'.due = k.due
  medium : k.medium.Elsewhere ShotHistory.address k'.medium

variable {k k' : Upkeep} {r : Readings} {q : Call}

theorem Spares.refl (k : Upkeep) : k.Spares k := ⟨rfl, rfl, rfl, rfl, .refl ..⟩

theorem Spares.isDue (h : k.Spares k') (r : Readings) : k'.isDue r = k.isDue r := by
  rw [Upkeep.isDue, Upkeep.isDue, h.dirty, h.due]

theorem Spares.hasRoom (h : k.Spares k') (r : Readings) : k'.hasRoom r = k.hasRoom r := by
  rw [Upkeep.hasRoom, Upkeep.hasRoom, h.tuning]

def completes (k : Upkeep) (q : Call) : Prop :=
  q.operation? = some .endShot ∧ k.shotActive = true

def rates (k : Upkeep) (q : Call) : Prop :=
  ∃ index rating history, q.operation? = some (.rateShot index rating) ∧
    k.history.rate index rating = .ok history

inductive Turn (r : Readings) (q : Call) (k : Upkeep) : Upkeep → Prop where
  | spared {k' : Upkeep} (hq : q ≠ .tick) (hc : ¬k.completes q) (h : k.Spares k') : Turn r q k k'
  | completed (shot : Shot) (hc : k.completes q) (hs : shot.rating = none) :
    Turn r q k { k with
      history := k.history.add shot
      dirty := true
      due := k.quietUntil r
      shotActive := false }
  | rated {history : ShotHistory} {index : Nat} {rating : UInt8}
    (hq : q.operation? = some (.rateShot index rating))
    (h : k.history.rate index rating = .ok history) :
    Turn r q k { k with
      history
      dirty := true
      due := if k.dirty then k.due else k.quietUntil r }
  | cleared (hq : q.operation? = some .clearHistory) :
    Turn r q k { k with
      medium := (k.history.clear.save k.medium).2
      history := k.history.clear
      dirty := false }
  | reset (hq : q.operation? = some .factoryReset) :
    Turn r q k { k with
      medium := (Controller.eraseSpaces Controller.spaces k.medium).2
      history := k.history.clear
      dirty := false }
  | booted (hq : q = .boot) :
    Turn r q k { k with history := ShotHistory.load k.medium, dirty := false }
  | ticked {k' : Upkeep} (hq : q = .tick) (h : k.Spares k') : Turn r q k (k'.service r)

theorem service_of_not_due (h : k.isDue r = false) : k.service r = k := by
  rw [service, h]
  rfl

theorem service_of_no_room (hd : k.isDue r = true) (hr : k.hasRoom r = false) :
    k.service r = { k with due := k.retryAt r } := by
  rw [service, if_pos hd, hr]
  rfl

theorem service_of_room (hd : k.isDue r = true) (hr : k.hasRoom r = true) :
    k.service r =
      if (k.history.save k.medium).1.isOk then
        { k with medium := (k.history.save k.medium).2, dirty := false }
      else { k with medium := (k.history.save k.medium).2, due := k.retryAt r } := by
  rw [service, if_pos hd, if_pos hr]
  rcases k.history.save k.medium with ⟨_ | _, medium⟩ <;> rfl

theorem Turn.of_spares (hq : q ≠ .tick) (ho : q.operation? ≠ some .endShot) (h : k.Spares k') :
    Turn r q k k' :=
  .spared hq (fun hc => ho hc.1) h

end Upkeep

namespace Controller

def upkeep (c : Controller) : Upkeep where
  tuning := c.tuning
  medium := c.medium
  history := c.history
  dirty := c.historyDirty
  due := c.historySaveDue
  shotActive := c.machine.live.shotActive

theorem upkeep_syncType (c : Controller) : c.syncType.upkeep = c.upkeep := by
  rw [syncType, Machine.setType]
  by_cases h : c.machine.live.machineType = c.settings.machineInfo.machineType
  · simp only [h, if_true]
  · simp only [h, if_false]
    rfl

theorem SparesBooks.spares {c d : Controller} (h : c.SparesBooks d) : c.upkeep.Spares d.upkeep :=
  ⟨h.tuning, h.history, h.historyDirty, h.historySaveDue, h.medium _ (by simp [books])⟩

theorem spares_persistStats (c : Controller) (now : Nat) :
    c.upkeep.Spares (c.persistStats now).upkeep := by
  have hs : c.upkeep.Spares (c.store c.stats.save).2.upkeep :=
    ⟨rfl, rfl, rfl, rfl, Medium.elsewhere_write (by decide) _ _⟩
  have hu : (c.persistStats now).upkeep = (c.store c.stats.save).2.upkeep := by
    unfold persistStats
    split <;> rename_i h <;> exact congrArg (fun p => p.2.upkeep) h.symm
  rwa [hu]

theorem upkeep_markHistory (c : Controller) (r : Readings) :
    (c.markHistory r).upkeep = { c.upkeep with
      dirty := true
      due := if c.upkeep.dirty then c.upkeep.due else c.upkeep.quietUntil r } := by
  have hd : c.upkeep.dirty = c.historyDirty := rfl
  rw [markHistory, hd]
  split
  · next h =>
    rw [← h]
    rfl
  · rfl

theorem upkeep_factoryReset (c : Controller) (r : Readings) :
    (c.factoryReset r).2.upkeep = { c.upkeep with
      medium := (eraseSpaces spaces c.medium).2
      history := c.history.clear
      dirty := false } :=
  upkeep_syncType _

theorem upkeep_boot (c : Controller) (r : Readings) :
    (c.boot r).upkeep = { c.upkeep with
      history := ShotHistory.load c.medium
      dirty := false } := by
  have hm (m : Machine) (t : MachineType) :
      ((m.setType t).getD m).live.shotActive = m.live.shotActive := by
    unfold Machine.setType
    split <;> rfl
  simp only [boot, upkeep, hm]
  rfl

theorem turn_endShot (c : Controller) (r : Readings) {q : Call}
    (hq : q.operation? = some .endShot) (ht : q ≠ .tick) :
    c.upkeep.Turn r q (c.ifChanged ((c.endShot r).map Prod.snd)).2.upkeep := by
  rw [endShot, Machine.endShot]
  by_cases ha : c.machine.live.shotActive = true
  · rw [if_pos ha]
    exact .completed (c.machine.shotRecord r.uptime) ⟨hq, ha⟩ rfl
  · rw [if_neg ha]
    exact .spared ht (fun hc => ha hc.2) (.refl _)

theorem turn_rateShot (c : Controller) (r : Readings) {q : Call} {index : Nat} {rating : UInt8}
    (hq : q.operation? = some (.rateShot index rating)) (ht : q ≠ .tick) :
    c.upkeep.Turn r q (c.ifGranted (c.rateShot r index rating)).2.upkeep := by
  rw [rateShot]
  cases h : c.history.rate index rating with
  | error e => exact .of_spares ht (by simp [hq]) (.refl _)
  | ok history =>
    show c.upkeep.Turn r q (({ c with history } : Controller).markHistory r).upkeep
    rw [upkeep_markHistory]
    exact .rated hq h

theorem turn_perform (c : Controller) (r : Readings) {q : Call} {x : Command}
    (hq : q.operation? = some x) : c.upkeep.Turn r q (c.perform r x).2.upkeep := by
  have ht : q ≠ .tick := by
    rintro rfl
    cases hq
  -- Of the operations that do not spare the books, three concern the statistics alone.
  have hspares {k' : Upkeep} (hx : x ≠ .endShot) (h : c.upkeep.Spares k') :
      c.upkeep.Turn r q k' :=
    .of_spares ht (fun ho => hx (Option.some.inj (hq.symm.trans ho))) h
  by_cases hx : x.sparesBooks = true
  · refine hspares ?_ (sparesBooks_perform c r hx).spares
    rintro rfl
    cases hx
  · cases x with
    | endShot => exact turn_endShot c r hq ht
    | rateShot index rating => exact turn_rateShot c r hq ht
    | clearHistory => exact .cleared hq
    | steamCycle => exact hspares (by simp) (.refl _)
    | energy amount =>
      apply hspares (by simp)
      simp only [perform, addEnergy]
      cases c.stats.addEnergy amount <;> exact .refl _
    | maintenance kind => exact hspares (by simp) (spares_persistStats { c with
        stats := c.stats.recordMaintenance kind (c.timestamp r)
        statsDirty := true } r.uptime)
    | factoryReset =>
      rw [(perform_factoryReset c r).1, upkeep_factoryReset]
      exact .reset hq
    | _ => exact absurd rfl hx

theorem upkeep_creditOnTime (c : Controller) (now : Nat) :
    (c.creditOnTime now).upkeep = c.upkeep := by
  obtain ⟨onTimeCarry, h | ⟨minutes, h⟩⟩ := c.creditOnTime_frame now <;> rw [h] <;> rfl

theorem spares_serviceStats (c : Controller) (now : Nat) :
    c.upkeep.Spares (c.serviceStats now).upkeep := by
  unfold serviceStats
  split
  · exact .refl _
  · split
    · exact spares_persistStats c now
    · exact .refl _

theorem upkeep_serviceHistory (c : Controller) (r : Readings) :
    (c.serviceHistory r).upkeep = c.upkeep.service r := by
  have hdue : c.upkeep.isDue r = true ↔
      c.historyDirty = true ∧ c.historySaveDue ≤ r.uptime := by
    rw [Upkeep.isDue, Bool.and_eq_true, decide_eq_true_eq]
    rfl
  have hroom : c.upkeep.hasRoom r = true ↔ ¬r.freeHeap ≤ c.tuning.historyMinFreeHeap := by
    rw [Upkeep.hasRoom, decide_eq_true_eq, Nat.not_le]
    rfl
  unfold serviceHistory Upkeep.service
  split
  · next hd =>
    rw [if_pos (hdue.mpr hd)]
    dsimp only
    split
    · next hr =>
      rw [if_neg fun h => hroom.mp h hr]
      rfl
    · next hr =>
      rw [if_pos (hroom.mpr hr), store]
      rcases hs : c.history.save c.medium with ⟨_ | _, medium⟩ <;>
        rw [show c.upkeep.history.save c.upkeep.medium = _ from hs] <;> rfl
  · next hd => rw [if_neg fun h => hd (hdue.mp h)]

theorem upkeep_rollDay (c : Controller) (r : Readings) : (c.rollDay r).upkeep = c.upkeep := by
  obtain h | ⟨day, ⟨-, statsDirty, h⟩ | h⟩ := c.rollDay_frame r <;> rw [h] <;> rfl

theorem upkeep_checkSchedule (c : Controller) (r : Readings) :
    (c.checkSchedule r).upkeep = c.upkeep := by
  obtain ⟨engine, lastScheduleCheck, entries, h⟩ := c.checkSchedule_frame r
  rw [h]
  rfl

theorem turn_tick (c : Controller) (r : Readings) : c.upkeep.Turn r .tick (c.tick r).upkeep := by
  have hs := spares_serviceStats (({ c with
    machine := c.machine.setUptime r.uptime } : Controller).creditOnTime r.uptime) r.uptime
  rw [upkeep_creditOnTime] at hs
  rw [tick, upkeep_checkSchedule, upkeep_rollDay, upkeep_serviceHistory]
  exact .ticked rfl hs

theorem turn_call (c : Controller) (r : Readings) (q : Call) :
    c.upkeep.Turn r q (c.call r q).2.upkeep := by
  cases q with
  | command x =>
    show c.upkeep.Turn r (.command x) (c.handle r x).2.upkeep
    unfold handle
    split
    · exact turn_perform c r rfl
    · exact turn_perform (c.resetIdle r) r rfl
  | direct x => exact turn_perform c r rfl
  | resetDaily => exact .of_spares nofun nofun (.refl _)
  | boot =>
    show c.upkeep.Turn r .boot (c.boot r).upkeep
    rw [upkeep_boot]
    exact .booted rfl
  | tick => exact turn_tick c r
  | _ => exact .of_spares nofun nofun (sparesBooks_call c r rfl).spares

theorem turn_after (c : Controller) (s : Step) :
    (c.facing s).upkeep.Turn s.readings s.call (c.after s).upkeep :=
  turn_call (c.facing s) s.readings s.call

end Controller

end Espresso
