import Espresso.Json.Basic
import Espresso.Machine.Kinds

namespace Espresso

structure LiveState where
  state : MachineState
  mode : MachineMode
  brewTemp : Single
  steamTemp : Single
  brewHeating : Bool
  steamHeating : Bool
  pressure : Single
  flow : Single
  watts : Single
  volts : Single
  waterLevel : UInt8
  scaleConnected : Bool
  scaleWeight : Single
  scaleFlow : Single
  scaleStable : Bool
  shotActive : Bool
  shotStart : Nat
  shotWeight : Single
  wifiConnected : Bool
  mqttConnected : Bool
  cloudConnected : Bool
  boardConnected : Bool
  boardVersion : String
  resetReason : UInt8
  machineType : MachineType
  lastUpdate : Nat
  uptime : Nat
  deriving DecidableEq

namespace LiveState

def initial : LiveState where
  state := .init
  mode := .standby
  brewTemp := 0
  steamTemp := 0
  brewHeating := false
  steamHeating := false
  pressure := 0
  flow := 0
  watts := 0
  volts := 0
  waterLevel := 100
  scaleConnected := false
  scaleWeight := 0
  scaleFlow := 0
  scaleStable := false
  shotActive := false
  shotStart := 0
  shotWeight := 0
  wifiConnected := false
  mqttConnected := false
  cloudConnected := false
  boardConnected := false
  boardVersion := ""
  resetReason := 0
  machineType := .unknown
  lastUpdate := 0
  uptime := 0

instance : Inhabited LiveState := ⟨initial⟩

def connected (s : LiveState) : Peer → Bool
  | .wifi => s.wifiConnected
  | .mqtt => s.mqttConnected
  | .cloud => s.cloudConnected
  | .controlBoard => s.boardConnected
  | .scale => s.scaleConnected

def connect (s : LiveState) (connected : Bool) : Peer → LiveState
  | .wifi => { s with wifiConnected := connected }
  | .mqtt => { s with mqttConnected := connected }
  | .cloud => { s with cloudConnected := connected }
  | .controlBoard => { s with boardConnected := connected }
  | .scale => { s with scaleConnected := connected }

def toJson (s : LiveState) : Json := .ofPairs [
  ("state", .text (Named.name s.state)),
  ("mode", .text (Named.name s.mode)),
  ("brewTemp", .single s.brewTemp),
  ("steamTemp", .single s.steamTemp),
  ("brewHeating", .bool s.brewHeating),
  ("steamHeating", .bool s.steamHeating),
  ("pressure", .single s.pressure),
  ("flowRate", .single s.flow),
  ("powerWatts", .single s.watts),
  ("voltage", .single s.volts),
  ("waterLevel", .nat s.waterLevel.toNat),
  ("scaleConnected", .bool s.scaleConnected),
  ("scaleWeight", .single s.scaleWeight),
  ("scaleFlowRate", .single s.scaleFlow),
  ("scaleStable", .bool s.scaleStable),
  ("shotActive", .bool s.shotActive),
  ("shotStartMs", .nat s.shotStart),
  ("shotWeight", .single s.shotWeight),
  ("wifiConnected", .bool s.wifiConnected),
  ("mqttConnected", .bool s.mqttConnected),
  ("cloudConnected", .bool s.cloudConnected),
  ("controlBoardConnected", .bool s.boardConnected),
  ("controlBoardVersion", .text s.boardVersion),
  ("controlBoardResetReason", .nat s.resetReason.toNat),
  ("machineType", .text (Named.name s.machineType)),
  ("lastUpdateMs", .nat s.lastUpdate),
  ("uptimeMs", .nat s.uptime)]

end LiveState

inductive Sample where
  | temperatures (brew steam : Single)
  | heating (brew steam : Bool)
  | pressure (bar : Single)
  | flow (rate : Single)
  | power (watts volts : Single)
  | water (percent : UInt8)
  | scale (weight flow : Single) (stable : Bool)
  deriving DecidableEq

namespace LiveState

def observe (s : LiveState) (now : Nat) : Sample → LiveState
  | .temperatures brew steam => { s with brewTemp := brew, steamTemp := steam, lastUpdate := now }
  | .heating brew steam => { s with brewHeating := brew, steamHeating := steam }
  | .pressure bar => { s with pressure := bar, lastUpdate := now }
  | .flow rate => { s with flow := rate, lastUpdate := now }
  | .power watts volts => { s with watts, volts, lastUpdate := now }
  | .water percent => { s with waterLevel := min percent 100, lastUpdate := now }
  | .scale weight flow stable =>
    { s with
      scaleConnected := true
      scaleWeight := weight
      scaleFlow := flow
      scaleStable := stable
      shotWeight := if s.shotActive then weight else s.shotWeight
      lastUpdate := now }

def dose (s : LiveState) (other : Single) : Single :=
  if s.scaleConnected && Binary.zero.lt s.scaleWeight then s.scaleWeight else other

end LiveState

end Espresso
