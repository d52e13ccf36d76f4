import Espresso.Schedule.Table

namespace Espresso.ScheduleTable

inductive Change where
  | add (e : ScheduleEntry)
  | update (id : UInt8) (e : ScheduleEntry)
  | remove (id : UInt8)
  | enable (id : UInt8) (enabled : Bool)
  | setAutoOff (enabled : Bool) (minutes : UInt16)
  | reload (m : Medium)

def attempt (t : ScheduleTable) : Change → Except Error (Option UInt8 × ScheduleTable)
  | .add e => (t.add e).map fun (id, u) => (some id, u)
  | .update id e => (t.update id e).map fun u => (none, u)
  | .remove id => (t.remove id).map fun u => (none, u)
  | .enable id enabled => (t.enable id enabled).map fun u => (none, u)
  | .setAutoOff enabled minutes => (t.setAutoOff enabled minutes).map fun u => (none, u)
  | .reload m =>
    match t.save m with
    | (.ok _, m) => .ok (none, load m)
    | (.error e, _) => .error (.storage e)

def change (t : ScheduleTable) (c : Change) : ScheduleTable :=
  match t.attempt c with
  | .ok (_, u) => u
  | .error _ => t

def changes (t : ScheduleTable) (cs : List Change) : ScheduleTable := cs.foldl change t

def issued (t : ScheduleTable) : List Change → List UInt8
  | [] => []
  | c :: cs =>
    match t.attempt c with
    | .ok (some id, u) => id :: issued u cs
    | _ => issued (t.change c) cs

end Espresso.ScheduleTable
