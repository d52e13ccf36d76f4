import Espresso.Machine.Live
import Espresso.Saturating
import Espresso.Shot.Basic
import Espresso.Text

namespace Espresso

structure ShotWindow where
  timestamp : UInt32
  dose : Single
  peak : Single
  temperatureSum : Single
  temperatures : UInt32
  fullPressure : Option Nat
  deriving DecidableEq, Inhabited

def ShotWindow.start (timestamp : UInt32) (dose : Single) : ShotWindow :=
  ⟨timestamp, dose, 0, 0, 0, none⟩

namespace ShotWindow

def fullBar : Single := 4

def gather (w : ShotWindow) (now : Nat) : Sample → ShotWindow
  | .temperatures brew _ =>
    if brew.isFinite then
      { w with temperatureSum := w.temperatureSum.add brew, temperatures := w.temperatures + 1 }
    else w
  | .pressure bar =>
    { w with
      peak := if w.peak.lt bar then bar else w.peak
      fullPressure := if fullBar.le bar then some (w.fullPressure.getD now) else w.fullPressure }
  | _ => w

end ShotWindow

structure Machine where
  live : LiveState
  shot : ShotWindow
  deriving DecidableEq

namespace Machine

def initial : Machine := ⟨.initial, .start 0 0⟩

instance : Inhabited Machine := ⟨initial⟩

def versionLimit : Nat := 16

def setState (m : Machine) (state : MachineState) : Option Machine :=
  if m.live.state = state then none else some { m with live := { m.live with state } }

def setMode (m : Machine) (mode : MachineMode) : Option Machine :=
  if m.live.mode = mode then none else some { m with live := { m.live with mode } }

def setConnected (m : Machine) (peer : Peer) (connected : Bool) : Option Machine :=
  if m.live.connected peer = connected then none
  else some { m with live := m.live.connect connected peer }

def setType (m : Machine) (machineType : MachineType) : Option Machine :=
  if m.live.machineType = machineType then none
  else some { m with live := { m.live with machineType } }

def setBoard (m : Machine) (version : String) (resetReason : UInt8) : Machine :=
  { m with live := { m.live with boardVersion := Text.clip versionLimit version, resetReason } }

def setUptime (m : Machine) (now : Nat) : Machine :=
  { m with live := { m.live with uptime := now } }

def observe (m : Machine) (now : Nat) (sample : Sample) : Machine where
  live := m.live.observe now sample
  shot := if m.live.shotActive then m.shot.gather now sample else m.shot

def startShot (m : Machine) (now : Nat) (timestamp : UInt32) (otherDose : Single) :
    Option Machine :=
  if m.live.shotActive ∨ m.live.state = .fault then none
  else some {
    live := { m.live with
      shotActive := true
      shotStart := now
      shotWeight := 0
      state := .brewing }
    shot := .start timestamp (m.live.dose otherDose) }

def shotRecord (m : Machine) (now : Nat) : Shot :=
  let duration := saturate (now - m.live.shotStart)
  { timestamp := m.shot.timestamp
    dose := m.shot.dose
    yield := m.live.shotWeight
    duration
    preinfusion := m.shot.fullPressure.elim 0 fun time => saturate (time - m.live.shotStart)
    flow := if duration = 0 then 0
      else m.live.shotWeight.div ((Binary.ofNat duration.toNat).div 1000)
    peak := m.shot.peak
    temperature := if m.shot.temperatures = 0 then 0
      else m.shot.temperatureSum.div (Binary.ofNat m.shot.temperatures.toNat)
    rating := none }

def endShot (m : Machine) (now : Nat) : Option (Shot × Machine) :=
  if m.live.shotActive then
    some (m.shotRecord now, { m with live := { m.live with shotActive := false, state := .ready } })
  else none

def elapsed (m : Machine) (now : Nat) : Nat :=
  if m.live.shotActive then now - m.live.shotStart else 0

end Machine

end Espresso
