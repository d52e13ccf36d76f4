import Espresso.Controller.Operate

/-!
Commands to the controller. Those of the control board and of links are telemetry; all others are
requests of a user. A request keeps the machine from turning itself off, granted or not.
-/

namespace Espresso

inductive Command where
  | sample (s : Sample)
  | connectivity (peer : Peer) (connected : Bool)
  | boardBoot (version : String) (resetReason : UInt8) (machineType : MachineType)
  | reportState (state : MachineState)
  | setMode (mode : MachineMode)
  | startShot
  | endShot
  | rateShot (index : Nat) (rating : UInt8)
  | clearHistory
  | steamCycle
  | energy (amount : Single)
  | maintenance (kind : Maintenance)
  | addSchedule (e : ScheduleEntry)
  | updateSchedule (id : UInt8) (e : ScheduleEntry)
  | removeSchedule (id : UInt8)
  | enableSchedule (id : UInt8) (enabled : Bool)
  | autoOff (enabled : Bool) (minutes : UInt16)
  | setMachineType (machineType : MachineType) (force : Bool)
  | factoryReset
  deriving DecidableEq

def Command.isTelemetry : Command → Bool
  | sample _ => true
  | connectivity _ _ => true
  | boardBoot _ _ _ => true
  | reportState _ => true
  | _ => false

inductive Reply where
  | done
  | unchanged
  | added (id : UInt8)
  deriving DecidableEq, Repr

namespace Controller

def ifChanged (c : Controller) (changed : Option Controller) : Except Error Reply × Controller :=
  match changed with
  | some c => (.ok .done, c)
  | none => (.ok .unchanged, c)

def ifGranted (c : Controller) (granted : Except Error Controller) :
    Except Error Reply × Controller :=
  match granted with
  | .ok c => (.ok .done, c)
  | .error e => (.error e, c)

def perform (c : Controller) (r : Readings) : Command → Except Error Reply × Controller
  | .sample s => (.ok .done, c.observe r s)
  | .connectivity peer connected => c.ifChanged (c.setConnected peer connected)
  | .boardBoot version resetReason machineType =>
    (.ok .done, c.bootBoard version resetReason machineType)
  | .reportState state => c.ifChanged (c.setState state)
  | .setMode mode => c.ifChanged (c.setMode r mode)
  | .startShot => c.ifChanged (c.startShot r)
  | .endShot => c.ifChanged ((c.endShot r).map Prod.snd)
  | .rateShot index rating => c.ifGranted (c.rateShot r index rating)
  | .clearHistory => (.ok .done, c.clearHistory)
  | .steamCycle => (.ok .done, c.recordSteamCycle)
  | .energy amount => c.ifChanged (c.addEnergy amount)
  | .maintenance kind => (.ok .done, c.recordMaintenance r kind)
  | .addSchedule e =>
    match c.addSchedule e with
    | .ok (id, c) => (.ok (.added id), c)
    | .error e => (.error e, c)
  | .updateSchedule id e => c.ifGranted (c.updateSchedule id e)
  | .removeSchedule id => c.ifGranted (c.removeSchedule id)
  | .enableSchedule id enabled => c.ifGranted (c.enableSchedule id enabled)
  | .autoOff enabled minutes => c.ifGranted (c.setAutoOff enabled minutes)
  | .setMachineType machineType force =>
    let (effective, c) := c.setMachineType machineType force
    (.ok (if effective then .done else .unchanged), c)
  | .factoryReset =>
    match c.factoryReset r with
    | (.ok _, c) => (.ok .done, c)
    | (.error e, c) => (.error (.storage e), c)

def handle (c : Controller) (r : Readings) (command : Command) : Except Error Reply × Controller :=
  (if command.isTelemetry then c else c.resetIdle r).perform r command

end Controller

end Espresso
