import Espresso.Error
import Espresso.Settings.Brewing
import Espresso.Settings.Connection
import Espresso.Settings.Interface

namespace Espresso

inductive Section where
  | temperature
  | brew
  | power
  | network
  | time
  | mqtt
  | cloud
  | scale
  | display
  | machineInfo
  | notifications
  | system
  | preferences
  deriving DecidableEq, Repr

namespace Section

instance : Named Section where
  all := [.temperature, .brew, .power, .network, .time, .mqtt, .cloud, .scale, .display,
    .machineInfo, .notifications, .system, .preferences]
  name
    | .temperature => "temperature"
    | .brew => "brew"
    | .power => "power"
    | .network => "network"
    | .time => "time"
    | .mqtt => "mqtt"
    | .cloud => "cloud"
    | .scale => "scale"
    | .display => "display"
    | .machineInfo => "machineInfo"
    | .notifications => "notifications"
    | .system => "system"
    | .preferences => "preferences"

def all : List Section := Named.all

def name (n : Section) : String := Named.name n

def ofName (name : String) : Except Error Section :=
  match Named.ofName? name with
  | some n => .ok n
  | none => .error .unknownSection

def Content : Section → Type
  | temperature => Settings.Temperature
  | brew => Settings.Brew
  | power => Settings.Power
  | network => Settings.Network
  | time => Settings.Time
  | mqtt => Settings.Mqtt
  | cloud => Settings.Cloud
  | scale => Settings.Scale
  | display => Settings.Display
  | machineInfo => Settings.MachineInfo
  | notifications => Settings.Notifications
  | system => Settings.System
  | preferences => Settings.Preferences

def schema : (n : Section) → Schema n.Content
  | temperature => Settings.Temperature.schema
  | brew => Settings.Brew.schema
  | power => Settings.Power.schema
  | network => Settings.Network.schema
  | time => Settings.Time.schema
  | mqtt => Settings.Mqtt.schema
  | cloud => Settings.Cloud.schema
  | scale => Settings.Scale.schema
  | display => Settings.Display.schema
  | machineInfo => Settings.MachineInfo.schema
  | notifications => Settings.Notifications.schema
  | system => Settings.System.schema
  | preferences => Settings.Preferences.schema

end Section

end Espresso
