import Espresso.Controller.Configure

namespace Espresso.Controller

def recordSteamCycle (c : Controller) : Controller := c.setStats c.stats.recordSteamCycle

def addEnergy (c : Controller) (energy : Single) : Option Controller :=
  (c.stats.addEnergy energy).map c.setStats

def recordMaintenance (c : Controller) (r : Readings) (kind : Maintenance) : Controller :=
  let stats := c.stats.recordMaintenance kind (c.timestamp r)
  ({ c with stats, statsDirty := true }.persistStats r.uptime).publishStats

def resetDaily (c : Controller) : Controller := c.setStats c.stats.resetDaily

def resetIdle (c : Controller) (r : Readings) : Controller :=
  { c with engine := c.engine.resetIdle r.uptime }

def isIdleTimeout (c : Controller) (r : Readings) : Bool :=
  c.engine.isIdleTimeout c.settings.schedule c.machine.live.mode c.machine.live.shotActive r.uptime

def observe (c : Controller) (r : Readings) (sample : Sample) : Controller :=
  { c with machine := c.machine.observe r.uptime sample }

def setState (c : Controller) (state : MachineState) : Option Controller :=
  (c.machine.setState state).map fun machine => { c with machine }.publishState

def setMode (c : Controller) (r : Readings) (mode : MachineMode) : Option Controller :=
  (c.machine.setMode mode).map fun machine =>
    -- Else the time spent in standby would turn the machine off again.
    let c := if c.machine.live.mode = .standby then c.resetIdle r else c
    { c with machine }.publishState

def setConnected (c : Controller) (peer : Peer) (connected : Bool) : Option Controller :=
  (c.machine.setConnected peer connected).map fun machine => { c with machine }.publishState

def bootBoard (c : Controller) (version : String) (resetReason : UInt8)
    (machineType : MachineType) : Controller :=
  let machine := c.machine.setBoard version resetReason
  let machine := (machine.setConnected .controlBoard true).getD machine
  ({ c with machine }.setMachineType machineType false).2.publishState

def startShot (c : Controller) (r : Readings) : Option Controller :=
  (c.machine.startShot r.uptime (c.timestamp r) c.settings.brew.dose).map fun machine =>
    ({ c with machine }.resetIdle r).publishState

def endShot (c : Controller) (r : Readings) : Option (Shot × Controller) :=
  (c.machine.endShot r.uptime).map fun (shot, machine) =>
    let c := { c with machine, history := c.history.add shot }.setStats c.stats.recordShot
    let c := { c with
      historyDirty := true
      historySaveDue := r.uptime + c.tuning.historySaveDelay.toNat }
    (shot, ((c.resetIdle r).publish (.shotCompleted shot)).publishState)

def markHistory (c : Controller) (r : Readings) : Controller :=
  if c.historyDirty then c
  else { c with
    historyDirty := true
    historySaveDue := r.uptime + c.tuning.historySaveDelay.toNat }

def rateShot (c : Controller) (r : Readings) (index : Nat) (rating : UInt8) :
    Except Error Controller :=
  (c.history.rate index rating).map fun history => { c with history }.markHistory r

def clearHistory (c : Controller) : Controller :=
  let c := { c with history := c.history.clear, historyDirty := false }
  (c.store c.history.save).2

def setSchedule (c : Controller) (schedule : ScheduleTable) : Controller :=
  let c := { c with settings := { c.settings with schedule } }
  (c.store schedule.save).2.publishSettings

def addSchedule (c : Controller) (e : ScheduleEntry) : Except Error (UInt8 × Controller) :=
  (c.settings.schedule.add e).map fun (id, schedule) => (id, c.setSchedule schedule)

def updateSchedule (c : Controller) (id : UInt8) (e : ScheduleEntry) : Except Error Controller :=
  (c.settings.schedule.update id e).map c.setSchedule

def removeSchedule (c : Controller) (id : UInt8) : Except Error Controller :=
  (c.settings.schedule.remove id).map c.setSchedule

def enableSchedule (c : Controller) (id : UInt8) (enabled : Bool) : Except Error Controller :=
  (c.settings.schedule.enable id enabled).map c.setSchedule

def setAutoOff (c : Controller) (enabled : Bool) (minutes : UInt16) : Except Error Controller :=
  (c.settings.schedule.setAutoOff enabled minutes).map c.setSchedule

end Espresso.Controller
