import Espresso.Machine.Kinds
import Espresso.Schedule.Table

namespace Espresso

structure ScheduleEngine where
  lastMinute : Option Nat
  lastActivity : Nat
  deriving DecidableEq, Repr

namespace ScheduleEngine

def minute : Nat := 60000

def start (now : Nat) : ScheduleEngine := ⟨none, now⟩

def resetIdle (g : ScheduleEngine) (now : Nat) : ScheduleEngine := { g with lastActivity := now }

def idle (g : ScheduleEngine) (now : Nat) : Nat := now - g.lastActivity

def isIdleTimeout (g : ScheduleEngine) (t : ScheduleTable) (mode : MachineMode) (shotActive : Bool)
    (now : Nat) : Bool :=
  t.autoOffEnabled && t.autoOffMinutes ≠ 0 && mode ≠ .standby && !shotActive &&
    t.autoOffMinutes.toNat * minute ≤ g.idle now

def evaluate (g : ScheduleEngine) (t : ScheduleTable) (now : Option LocalTime) :
    Option ScheduleEntry × ScheduleEngine :=
  match now with
  | none => (none, g)
  | some time =>
    if g.lastMinute = some time.minuteOfDay then (none, g)
    else
      (ScheduleEntry.winner (t.entries.filter fun e => e.hits time),
        { g with lastMinute := some time.minuteOfDay })

def tick (g : ScheduleEngine) (t : ScheduleTable) (time : Option LocalTime) (mode : MachineMode)
    (shotActive : Bool) (now : Nat) : List ScheduleEntry × ScheduleEngine :=
  let (entry, g) := g.evaluate t time
  if g.isIdleTimeout t mode shotActive now then
    (entry.toList ++ [.autoPowerOff], g.resetIdle now)
  else (entry.toList, g)

end ScheduleEngine

end Espresso
