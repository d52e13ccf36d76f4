import Espresso.Error
import Espresso.Json.Reader
import Espresso.Packed.Basic
import Espresso.Saturating
import Espresso.Storage.Medium

/-!
Counters of use: over the life of the machine, over a day, since the last maintenance and since the
machine was switched on. A counter at its greatest value stays there.
-/

namespace Espresso

inductive Maintenance where
  | descale
  | groupClean
  | backflush
  deriving DecidableEq, Repr

instance : Named Maintenance where
  all := [.descale, .groupClean, .backflush]
  name
    | .descale => "descale"
    | .groupClean => "groupclean"
    | .backflush => "backflush"

def Maintenance.ofText (s : String) : Except Error Maintenance :=
  if s = "groupClean" ∨ s = "group_clean" then .ok .groupClean
  else match Named.ofName? s with
    | some kind => .ok kind
    | none => .error (.invalid .maintenanceKind)

inductive DueLevel where
  | ok
  | warning
  | due
  deriving DecidableEq, Repr

instance : Named DueLevel where
  all := [.ok, .warning, .due]
  name
    | .ok => "ok"
    | .warning => "warning"
    | .due => "due"

def DueLevel.ofCount (warning due count : UInt32) : DueLevel :=
  if due ≤ count then .due else if warning ≤ count then .warning else .ok

structure Statistics where
  totalShots : UInt32
  totalSteamCycles : UInt32
  totalEnergy : Single
  totalOnMinutes : UInt32
  shotsToday : UInt32
  energyToday : Single
  onMinutesToday : UInt32
  day : UInt32
  shotsSinceDescale : UInt32
  shotsSinceGroupClean : UInt32
  shotsSinceBackflush : UInt32
  lastDescale : UInt32
  lastGroupClean : UInt32
  lastBackflush : UInt32
  sessionStart : UInt32
  sessionShots : UInt32
  deriving DecidableEq, Inhabited

namespace Statistics

def zero : Statistics where
  totalShots := 0
  totalSteamCycles := 0
  totalEnergy := .zero
  totalOnMinutes := 0
  shotsToday := 0
  energyToday := .zero
  onMinutesToday := 0
  day := 0
  shotsSinceDescale := 0
  shotsSinceGroupClean := 0
  shotsSinceBackflush := 0
  lastDescale := 0
  lastGroupClean := 0
  lastBackflush := 0
  sessionStart := 0
  sessionShots := 0

def recordShot (s : Statistics) : Statistics :=
  { s with
    totalShots := saturatingAdd s.totalShots 1
    shotsToday := saturatingAdd s.shotsToday 1
    sessionShots := saturatingAdd s.sessionShots 1
    shotsSinceDescale := saturatingAdd s.shotsSinceDescale 1
    shotsSinceGroupClean := saturatingAdd s.shotsSinceGroupClean 1
    shotsSinceBackflush := saturatingAdd s.shotsSinceBackflush 1 }

def recordSteamCycle (s : Statistics) : Statistics :=
  { s with totalSteamCycles := saturatingAdd s.totalSteamCycles 1 }

def addEnergy (s : Statistics) (energy : Single) : Option Statistics :=
  if energy.isFinite && Binary.zero.le energy then
    some { s with
      totalEnergy := s.totalEnergy.add energy
      energyToday := s.energyToday.add energy }
  else none

def addOnMinutes (s : Statistics) (minutes : UInt32) : Statistics :=
  { s with
    totalOnMinutes := saturatingAdd s.totalOnMinutes minutes
    onMinutesToday := saturatingAdd s.onMinutesToday minutes }

def recordMaintenance (s : Statistics) (kind : Maintenance) (timestamp : UInt32) : Statistics :=
  match kind with
  | .descale => { s with shotsSinceDescale := 0, lastDescale := timestamp }
  | .groupClean => { s with shotsSinceGroupClean := 0, lastGroupClean := timestamp }
  | .backflush =>
    { s with
      shotsSinceBackflush := 0
      lastBackflush := timestamp
      shotsSinceGroupClean := 0
      lastGroupClean := timestamp }

def resetDaily (s : Statistics) : Statistics :=
  { s with shotsToday := 0, energyToday := .zero, onMinutesToday := 0 }

def isNewDay (s : Statistics) (day : UInt32) : Bool := s.day ≠ 0 && s.day < day

def rollDay (s : Statistics) (day : UInt32) : Statistics :=
  if s.isNewDay day then { s.resetDaily with day } else { s with day := max s.day day }

def startSession (s : Statistics) (timestamp : UInt32) : Statistics :=
  { s with sessionStart := timestamp, sessionShots := 0 }

def descaleLevel (s : Statistics) : DueLevel := .ofCount 400 500 s.shotsSinceDescale

def groupCleanLevel (s : Statistics) : DueLevel := .ofCount 80 100 s.shotsSinceGroupClean

def backflushLevel (s : Statistics) : DueLevel := .ofCount 80 100 s.shotsSinceBackflush

def statusJson (s : Statistics) : Json := .ofPairs [
  ("descale", .text (Named.name s.descaleLevel)),
  ("groupClean", .text (Named.name s.groupCleanLevel)),
  ("backflush", .text (Named.name s.backflushLevel))]

def toJson (s : Statistics) : Json := .ofPairs [
  ("totalShots", .nat s.totalShots.toNat),
  ("totalSteamCycles", .nat s.totalSteamCycles.toNat),
  ("totalKwh", .single s.totalEnergy),
  ("totalOnTimeMinutes", .nat s.totalOnMinutes.toNat),
  ("shotsToday", .nat s.shotsToday.toNat),
  ("kwhToday", .single s.energyToday),
  ("onTimeTodayMinutes", .nat s.onMinutesToday.toNat),
  ("day", .nat s.day.toNat),
  ("shotsSinceDescale", .nat s.shotsSinceDescale.toNat),
  ("shotsSinceGroupClean", .nat s.shotsSinceGroupClean.toNat),
  ("shotsSinceBackflush", .nat s.shotsSinceBackflush.toNat),
  ("lastDescaleTimestamp", .nat s.lastDescale.toNat),
  ("lastGroupCleanTimestamp", .nat s.lastGroupClean.toNat),
  ("lastBackflushTimestamp", .nat s.lastBackflush.toNat),
  ("sessionStartTimestamp", .nat s.sessionStart.toNat),
  ("sessionShots", .nat s.sessionShots.toNat)]

def keys : List String := [
  "totalShots", "totalSteamCycles", "totalKwh", "totalOnTimeMinutes", "shotsToday", "kwhToday",
  "onTimeTodayMinutes", "day", "shotsSinceDescale", "shotsSinceGroupClean", "shotsSinceBackflush",
  "lastDescaleTimestamp", "lastGroupCleanTimestamp", "lastBackflushTimestamp",
  "sessionStartTimestamp", "sessionShots"]

def ofJson? (v : Json) : Option Statistics := do
  match ← v.record? keys with
  | [totalShots, totalSteamCycles, totalEnergy, totalOnMinutes, shotsToday, energyToday,
      onMinutesToday, day, shotsSinceDescale, shotsSinceGroupClean, shotsSinceBackflush,
      lastDescale, lastGroupClean, lastBackflush, sessionStart, sessionShots] =>
    return {
      totalShots := ← Json.required Json.uint32? totalShots
      totalSteamCycles := ← Json.required Json.uint32? totalSteamCycles
      totalEnergy := ← Json.required Json.single? totalEnergy
      totalOnMinutes := ← Json.required Json.uint32? totalOnMinutes
      shotsToday := ← Json.required Json.uint32? shotsToday
      energyToday := ← Json.required Json.single? energyToday
      onMinutesToday := ← Json.required Json.uint32? onMinutesToday
      day := ← Json.required Json.uint32? day
      shotsSinceDescale := ← Json.required Json.uint32? shotsSinceDescale
      shotsSinceGroupClean := ← Json.required Json.uint32? shotsSinceGroupClean
      shotsSinceBackflush := ← Json.required Json.uint32? shotsSinceBackflush
      lastDescale := ← Json.required Json.uint32? lastDescale
      lastGroupClean := ← Json.required Json.uint32? lastGroupClean
      lastBackflush := ← Json.required Json.uint32? lastBackflush
      sessionStart := ← Json.required Json.uint32? sessionStart
      sessionShots := ← Json.required Json.uint32? sessionShots }
  | _ => none

def version : UInt8 := 1

def pack (s : Statistics) : Bytes :=
  let count (n : UInt32) : Bytes := Packed.varint n.toNat
  version :: (count s.totalShots ++ count s.totalSteamCycles ++ Packed.single s.totalEnergy ++
    count s.totalOnMinutes ++ count s.shotsToday ++ Packed.single s.energyToday ++
    count s.onMinutesToday ++ count s.day ++ count s.shotsSinceDescale ++
    count s.shotsSinceGroupClean ++ count s.shotsSinceBackflush ++ count s.lastDescale ++
    count s.lastGroupClean ++ count s.lastBackflush ++ count s.sessionStart ++
    count s.sessionShots)

def unpack : Packed.Reader Statistics := do
  let v ← Packed.Reader.byte
  let totalShots ← Packed.Reader.uint32
  let totalSteamCycles ← Packed.Reader.uint32
  let totalEnergy ← Packed.Reader.single
  let totalOnMinutes ← Packed.Reader.uint32
  let shotsToday ← Packed.Reader.uint32
  let energyToday ← Packed.Reader.single
  let onMinutesToday ← Packed.Reader.uint32
  let day ← Packed.Reader.uint32
  let shotsSinceDescale ← Packed.Reader.uint32
  let shotsSinceGroupClean ← Packed.Reader.uint32
  let shotsSinceBackflush ← Packed.Reader.uint32
  let lastDescale ← Packed.Reader.uint32
  let lastGroupClean ← Packed.Reader.uint32
  let lastBackflush ← Packed.Reader.uint32
  let sessionStart ← Packed.Reader.uint32
  let sessionShots ← Packed.Reader.uint32
  if v = version then
    return {
      totalShots, totalSteamCycles, totalEnergy, totalOnMinutes, shotsToday, energyToday,
      onMinutesToday, day, shotsSinceDescale, shotsSinceGroupClean, shotsSinceBackflush,
      lastDescale, lastGroupClean, lastBackflush, sessionStart, sessionShots }
  else failure

def space : String := "stats"

def address : Address := ⟨space, "counters"⟩

def load (m : Medium) : Statistics :=
  match m.read address with
  | .ok bytes => (unpack.run? bytes).getD zero
  | .error _ => zero

def save (s : Statistics) (m : Medium) : Except StorageError Unit × Medium :=
  m.write address s.pack

end Statistics

end Espresso
