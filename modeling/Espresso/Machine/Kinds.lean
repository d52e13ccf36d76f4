import Espresso.Named

namespace Espresso

inductive MachineState where
  | init
  | idle
  | heating
  | ready
  | brewing
  | steaming
  | cooldown
  | eco
  | fault
  deriving DecidableEq, Repr, Inhabited

instance : Named MachineState where
  all := [.init, .idle, .heating, .ready, .brewing, .steaming, .cooldown, .eco, .fault]
  name
    | .init => "init"
    | .idle => "idle"
    | .heating => "heating"
    | .ready => "ready"
    | .brewing => "brewing"
    | .steaming => "steaming"
    | .cooldown => "cooldown"
    | .eco => "eco"
    | .fault => "fault"

inductive MachineMode where
  | standby
  | on
  | eco
  deriving DecidableEq, Repr, Inhabited

instance : Named MachineMode where
  all := [.standby, .on, .eco]
  name
    | .standby => "standby"
    | .on => "on"
    | .eco => "eco"

inductive MachineType where
  | unknown
  | dualBoiler
  | singleBoiler
  | heatExchanger
  | thermoblock
  deriving DecidableEq, Repr, Inhabited

instance : Named MachineType where
  all := [.unknown, .dualBoiler, .singleBoiler, .heatExchanger, .thermoblock]
  name
    | .unknown => "unknown"
    | .dualBoiler => "dual_boiler"
    | .singleBoiler => "single_boiler"
    | .heatExchanger => "heat_exchanger"
    | .thermoblock => "thermoblock"

namespace MachineType

def code : MachineType → UInt8
  | unknown => 0
  | dualBoiler => 1
  | singleBoiler => 2
  | heatExchanger => 3
  | thermoblock => 4

def ofCode (n : UInt8) : MachineType :=
  ((Named.all : List MachineType).find? fun t => t.code = n).getD unknown

end MachineType

inductive Peer where
  | wifi
  | mqtt
  | cloud
  | controlBoard
  | scale
  deriving DecidableEq, Repr

instance : Named Peer where
  all := [.wifi, .mqtt, .cloud, .controlBoard, .scale]
  name
    | .wifi => "wifi"
    | .mqtt => "mqtt"
    | .cloud => "cloud"
    | .controlBoard => "control_board"
    | .scale => "scale"

end Espresso
