import Espresso.Controller.Basic

namespace Espresso.Controller

def settingsSnapshot (c : Controller) : Json := c.settings.toJson

def sectionSnapshot (c : Controller) (name : String) : Except Error Json :=
  if name = "schedule" then .ok c.settings.schedule.toJson
  else (Section.ofName name).map c.settings.sectionJson

def statsSnapshot (c : Controller) : Json :=
  (c.stats.toJson.remove "day").put "maintenanceStatus" c.stats.statusJson

def stateSnapshot (c : Controller) (r : Readings) : Json :=
  c.machine.live.toJson.put "shotElapsedMs" (.nat (c.machine.elapsed r.uptime))

def historySnapshot (c : Controller) : Json :=
  .array (c.history.toList.map fun s => s.toJson.put "ratio" (.single s.ratio))

def snapshot (c : Controller) (r : Readings) : Json :=
  ((c.settings.toJson.put "stats" c.statsSnapshot).put "state" (c.stateSnapshot r)).put
    "shotHistory" c.historySnapshot

end Espresso.Controller
