import Espresso.Machine.Basic

/-!
Runs of a machine: one operation after the other. An operation that is refused leaves the machine
as it is.
-/

namespace Espresso.Machine

inductive Act where
  | observe (now : Nat) (sample : Sample)
  | setState (state : MachineState)
  | setMode (mode : MachineMode)
  | setConnected (peer : Peer) (connected : Bool)
  | setType (machineType : MachineType)
  | setBoard (version : String) (resetReason : UInt8)
  | setUptime (now : Nat)
  | startShot (now : Nat) (timestamp : UInt32) (otherDose : Single)
  | endShot (now : Nat)

def act (m : Machine) : Act → Machine
  | .observe now sample => m.observe now sample
  | .setState state => (m.setState state).getD m
  | .setMode mode => (m.setMode mode).getD m
  | .setConnected peer connected => (m.setConnected peer connected).getD m
  | .setType machineType => (m.setType machineType).getD m
  | .setBoard version resetReason => m.setBoard version resetReason
  | .setUptime now => m.setUptime now
  | .startShot now timestamp otherDose => (m.startShot now timestamp otherDose).getD m
  | .endShot now => (m.endShot now).elim m Prod.snd

def run (m : Machine) (acts : List Act) : Machine := acts.foldl act m

theorem run_cons (m : Machine) (a : Act) (acts : List Act) :
    m.run (a :: acts) = (m.act a).run acts := rfl

end Espresso.Machine
