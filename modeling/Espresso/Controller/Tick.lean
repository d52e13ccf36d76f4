import Espresso.Controller.Basic

namespace Espresso.Controller

def minute : Nat := 60000

def creditOnTime (c : Controller) (now : Nat) : Controller :=
  if c.machine.live.mode = .standby then { c with lastTick := now, onTimeCarry := 0 }
  else
    let carry := c.onTimeCarry + (now - c.lastTick)
    let c := { c with lastTick := now, onTimeCarry := carry % minute }
    if carry < minute then c else c.setStats (c.stats.addOnMinutes (saturate (carry / minute)))

def serviceStats (c : Controller) (now : Nat) : Controller :=
  if now - c.lastStatsSave < c.tuning.statsSaveInterval.toNat then c
  else if c.statsDirty then c.persistStats now
  else { c with lastStatsSave := now }

def serviceHistory (c : Controller) (r : Readings) : Controller :=
  if c.historyDirty ∧ c.historySaveDue ≤ r.uptime then
    let retry := r.uptime + c.tuning.historyRetryInterval.toNat
    if r.freeHeap ≤ c.tuning.historyMinFreeHeap then { c with historySaveDue := retry }
    else match c.store c.history.save with
      | (.ok _, c) => { c with historyDirty := false }
      | (.error _, c) => { c with historySaveDue := retry }
  else c

def rollDay (c : Controller) (r : Readings) : Controller :=
  match c.localTime r with
  | none => c
  | some time =>
    let day := UInt32.ofNat time.day
    let stats := c.stats.rollDay day
    if c.stats.isNewDay day then c.setStats stats
    else { c with stats, statsDirty := c.statsDirty || stats.day ≠ c.stats.day }

def checkSchedule (c : Controller) (r : Readings) : Controller :=
  if c.lastScheduleCheck.all fun last =>
      c.tuning.scheduleCheckInterval.toNat ≤ r.uptime - last then
    let (fired, engine) := c.engine.tick c.settings.schedule (c.localTime r) c.machine.live.mode
      c.machine.live.shotActive r.uptime
    (fired.map Event.scheduleTriggered).foldl publish
      { c with engine, lastScheduleCheck := some r.uptime }
  else c

def tick (c : Controller) (r : Readings) : Controller :=
  let c := { c with machine := c.machine.setUptime r.uptime }
  ((((c.creditOnTime r.uptime).serviceStats r.uptime).serviceHistory r).rollDay r).checkSchedule r

end Espresso.Controller
