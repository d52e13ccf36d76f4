import Espresso.Schedule.Engine

/-!
Passes of the engine, one after the other: some only look into the table, some mind the rule of
idle machines as well. Each comes with a table and a reading of the clock of its own.
-/

namespace Espresso.ScheduleEngine

inductive Pass where
  | evaluate (t : ScheduleTable) (time : Option LocalTime)
  | tick (t : ScheduleTable) (time : Option LocalTime) (mode : MachineMode) (shotActive : Bool)
      (now : Nat)

namespace Pass

def table : Pass → ScheduleTable
  | .evaluate t _ => t
  | .tick t _ _ _ _ => t

def time : Pass → Option LocalTime
  | .evaluate _ time => time
  | .tick _ time _ _ _ => time

end Pass

def pass (g : ScheduleEngine) : Pass → List ScheduleEntry × ScheduleEngine
  | .evaluate t time => ((g.evaluate t time).1.toList, (g.evaluate t time).2)
  | .tick t time mode shotActive now => g.tick t time mode shotActive now

def passes (g : ScheduleEngine) (ps : List Pass) : ScheduleEngine :=
  ps.foldl (fun g p => (g.pass p).2) g

def chosen (g : ScheduleEngine) (p : Pass) : Option ScheduleEntry := (g.evaluate p.table p.time).1

def turnsOffIdle (g : ScheduleEngine) : Pass → Bool
  | .evaluate _ _ => false
  | .tick t _ mode shotActive now => g.isIdleTimeout t mode shotActive now

def dispatches (g : ScheduleEngine) : List Pass → List (LocalTime × ScheduleEntry)
  | [] => []
  | p :: ps =>
    match p.time, g.chosen p with
    | some a, some e => (a, e) :: (g.pass p).2.dispatches ps
    | _, _ => (g.pass p).2.dispatches ps

def shown (ps : List Pass) : List LocalTime := ps.filterMap Pass.time

end Espresso.ScheduleEngine
