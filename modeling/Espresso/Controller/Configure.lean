import Espresso.Controller.Basic

namespace Espresso.Controller

def adopt (c : Controller) (settings : Settings) (touched : List Section) : Controller :=
  let c := { c with settings }
  let c := if .machineInfo ∈ touched then c.syncType else c
  (touched.foldl persist c).publishSettings

def applySection (c : Controller) (name : String) (fields : Json) :
    Except Error (Nat × Controller) := do
  let n ← Section.ofName name
  if !fields.isObject then throw (.invalid .sectionUpdate)
  let count := Settings.count n fields
  return (count, if count = 0 then c else c.adopt (c.settings.patch n fields) [n])

def applySettings (c : Controller) (document : Json) : Except Error (Nat × Controller) :=
  if !document.isObject then .error (.invalid .settingsDocument)
  else
    let touched := Settings.touched document
    .ok (touched.length,
      if touched = [] then c else c.adopt (c.settings.patchAll document) touched)

def publishStored (stored : Except StorageError Unit × Controller) :
    Except StorageError Unit × Controller :=
  match stored with
  | (.ok _, c) => (.ok (), c.publishSettings)
  | (.error e, c) => (.error e, c)

def saveSection (c : Controller) (n : Section) : Except StorageError Unit × Controller :=
  publishStored (c.store (c.settings.saveSection n))

def saveAll (c : Controller) : Except StorageError Unit × Controller :=
  match c.store c.settings.saveAll with
  | (.ok _, c) => publishStored (c.store c.settings.schedule.save)
  | (.error e, c) => (.error e, c)

def resetSettings (c : Controller) : Except StorageError Unit × Controller :=
  let c := { c with settings := .initial c.settings.schedule }.syncType
  publishStored (c.store c.settings.saveAll)

def eraseSpaces : List String → Medium → Except StorageError Unit × Medium
  | [], m => (.ok (), m)
  | space :: rest, m =>
    let (first, m) := m.erase space
    let (others, m) := eraseSpaces rest m
    (match first with
      | .ok _ => others
      | .error e => .error e, m)

def spaces : List String :=
  [Settings.space, Statistics.space, ShotHistory.space, ScheduleTable.space]

def factoryReset (c : Controller) (r : Readings) : Except StorageError Unit × Controller :=
  let (outcome, c) := c.store (eraseSpaces spaces)
  let c := { c with settings := default }
  let c := { c with
    stats := Statistics.zero.startSession (c.timestamp r)
    history := c.history.clear
    engine := .start r.uptime
    statsDirty := false
    lastStatsSave := r.uptime
    historyDirty := false }
  (outcome, c.syncType.publishSettings.publishStats)

def setMachineType (c : Controller) (machineType : MachineType) (force : Bool) :
    Bool × Controller :=
  let configured := c.settings.machineInfo.machineType
  -- What a control board reports is taken over only while nothing else is configured.
  let keep := !force && configured ≠ .unknown && configured ≠ machineType
  let c :=
    if keep || configured = machineType then c
    else
      let machineInfo := { c.settings.machineInfo with machineType }
      ({ c with settings := { c.settings with machineInfo } }.persist .machineInfo).publishSettings
  (!keep, c.syncType)

end Espresso.Controller
