import Espresso.Notice.Event

namespace Espresso.Event

def modeText : MachineMode → String
  | .standby => "Standby"
  | .on => "On"
  | .eco => "Eco"

def actionText : ScheduleAction → String
  | .turnOn => "TurnOn"
  | .turnOff => "TurnOff"

def tenths (x : Single) : String := String.ofList (x.fixed 1)

def hundredths (x : Single) : String := String.ofList (x.fixed 2)

def twoDigits (n : Nat) : String := (if n < 10 then "0" else "") ++ toString n

def autoOffText (t : ScheduleTable) : String :=
  if t.autoOffEnabled then toString t.autoOffMinutes.toNat else "0"

def line : Event → String
  | settingsChanged s =>
    "SETTINGS | brew=" ++ tenths s.temperature.brewSetpoint ++ "°C steam=" ++
      tenths s.temperature.steamSetpoint ++ "°C | dose=" ++ tenths s.brew.dose ++ "g target=" ++
      tenths s.brew.target ++ "g | schedules=" ++ toString s.schedule.size ++ " auto_off=" ++
      autoOffText s.schedule
  | statsChanged s =>
    "STATS | shots=" ++ toString s.totalShots.toNat ++ " today=" ++ toString s.shotsToday.toNat ++
      " | steam=" ++ toString s.totalSteamCycles.toNat ++ " | kWh=" ++ hundredths s.totalEnergy ++
      " | since_descale=" ++ toString s.shotsSinceDescale.toNat
  | stateChanged s =>
    "STATE | " ++ Named.name s.state ++ " mode=" ++ modeText s.mode ++ " | brew=" ++
      tenths s.brewTemp ++ "°C steam=" ++ tenths s.steamTemp ++ "°C | shot=" ++
      toString s.shotActive ++ " | wifi=" ++ toString s.wifiConnected ++ " mqtt=" ++
      toString s.mqttConnected ++ " board=" ++ toString s.boardConnected
  | shotCompleted s =>
    "SHOT | " ++ tenths s.dose ++ "g -> " ++ tenths s.yield ++ "g (1:" ++ tenths s.ratio ++
      ") in " ++ tenths ((Binary.ofNat s.duration.toNat).div 1000) ++ "s | peak=" ++
      tenths s.peak ++ "bar | preinf=" ++ toString s.preinfusion.toNat ++ "ms"
  | scheduleTriggered e =>
    "SCHEDULE | #" ++ toString e.id.toNat ++ " '" ++ e.name ++ "' " ++ actionText e.action ++
      " at " ++ twoDigits e.hour.toNat ++ ":" ++ twoDigits e.minute.toNat

end Espresso.Event
