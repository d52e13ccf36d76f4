import Espresso.Controller.Tuning
import Espresso.Notice.Event
import Espresso.Schedule.Engine
import Espresso.Settings.Persistence
import Espresso.Shot.History

/-!
The controller owns the settings, the statistics, the history, the live machine and the store they
are kept in. What it publishes waits in its outbox. Whatever it reads from outside is handed to it.
-/

namespace Espresso

/-- What is read from outside: milliseconds of uptime, seconds since 1970 if the time is known, and
bytes of memory that are free. -/
structure Readings where
  uptime : Nat
  unix : Option Nat
  freeHeap : Nat
  deriving DecidableEq, Repr

structure Controller where
  tuning : Tuning
  medium : Medium
  settings : Settings
  stats : Statistics
  history : ShotHistory
  machine : Machine
  engine : ScheduleEngine
  outbox : List Event
  statsDirty : Bool
  lastStatsSave : Nat
  historyDirty : Bool
  historySaveDue : Nat
  lastScheduleCheck : Option Nat
  lastTick : Nat
  onTimeCarry : Nat

namespace Controller

def blank (tuning : Tuning) (medium : Medium) : Controller where
  tuning
  medium
  settings := default
  stats := .zero
  history := .empty
  machine := .initial
  engine := .start 0
  outbox := []
  statsDirty := false
  lastStatsSave := 0
  historyDirty := false
  historySaveDue := 0
  lastScheduleCheck := none
  lastTick := 0
  onTimeCarry := 0

def create (tuning : Tuning) (medium : Medium) : Except Error Controller := do
  tuning.validate
  return blank tuning medium

def publish (c : Controller) (e : Event) : Controller := { c with outbox := c.outbox ++ [e] }

def publishSettings (c : Controller) : Controller := c.publish (.settingsChanged c.settings)

def publishStats (c : Controller) : Controller := c.publish (.statsChanged c.stats)

def publishState (c : Controller) : Controller := c.publish (.stateChanged c.machine.live)

def localTime (c : Controller) (r : Readings) : Option LocalTime :=
  r.unix.bind fun unix => LocalTime.ofUnix unix c.settings.time.localOffset

def timestamp (c : Controller) (r : Readings) : UInt32 :=
  (c.localTime r).elim 0 LocalTime.stamp

def store (c : Controller) (save : Medium → Except StorageError Unit × Medium) :
    Except StorageError Unit × Controller :=
  let (outcome, medium) := save c.medium
  (outcome, { c with medium })

def persist (c : Controller) (n : Section) : Controller := (c.store (c.settings.saveSection n)).2

def persistStats (c : Controller) (now : Nat) : Controller :=
  match c.store c.stats.save with
  | (.ok _, c) => { c with lastStatsSave := now, statsDirty := false }
  | (.error _, c) => { c with lastStatsSave := now }

def setStats (c : Controller) (stats : Statistics) : Controller :=
  { c with stats, statsDirty := true }.publishStats

def syncType (c : Controller) : Controller :=
  match c.machine.setType c.settings.machineInfo.machineType with
  | some machine => { c with machine }.publishState
  | none => c

def boot (c : Controller) (r : Readings) : Controller :=
  let c := { c with
    settings := { Settings.load c.medium with schedule := ScheduleTable.load c.medium }
    history := ShotHistory.load c.medium }
  let machine := c.machine.setUptime r.uptime
  { c with
    stats := (Statistics.load c.medium).startSession (c.timestamp r)
    machine := (machine.setType c.settings.machineInfo.machineType).getD machine
    engine := .start r.uptime
    statsDirty := false
    lastStatsSave := r.uptime
    historyDirty := false
    lastScheduleCheck := none
    lastTick := r.uptime
    onTimeCarry := 0 }

end Controller

end Espresso
