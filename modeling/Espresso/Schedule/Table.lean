import Espresso.Schedule.Entry
import Espresso.Storage.Medium

/-!
The table of the schedule. Ids are given out in ascending order and an id that was freed is not
given out again while the machine runs.
-/

namespace Espresso

structure ScheduleTable where
  entries : List ScheduleEntry
  autoOffEnabled : Bool
  autoOffMinutes : UInt16
  highestId : UInt8
  deriving DecidableEq, Repr

namespace ScheduleTable

def capacity : Nat := 10

def greatestAutoOff : UInt16 := 480

instance : Inhabited ScheduleTable := ⟨⟨[], false, 60, 0⟩⟩

def same (s t : ScheduleTable) : Bool :=
  s.entries = t.entries && s.autoOffEnabled = t.autoOffEnabled &&
    s.autoOffMinutes = t.autoOffMinutes

def get? (t : ScheduleTable) (id : UInt8) : Option ScheduleEntry :=
  t.entries.find? fun e => e.id = id

def size (t : ScheduleTable) : Nat := t.entries.length

def lastId (t : ScheduleTable) : UInt8 := t.entries.foldl (fun id e => max id e.id) t.highestId

def add (t : ScheduleTable) (e : ScheduleEntry) : Except Error (UInt8 × ScheduleTable) := do
  e.validate
  if capacity ≤ t.size ∨ t.lastId = 255 then throw .scheduleTableFull
  let id := t.lastId + 1
  return (id, { t with entries := t.entries ++ [{ e with id }], highestId := id })

def modify (t : ScheduleTable) (id : UInt8) (f : ScheduleEntry → ScheduleEntry) :
    Except Error ScheduleTable :=
  match t.entries.findIdx? fun e => e.id = id with
  | none => .error (.scheduleNotFound id)
  | some i => .ok { t with entries := t.entries.modify i f }

def update (t : ScheduleTable) (id : UInt8) (e : ScheduleEntry) : Except Error ScheduleTable := do
  e.validate
  t.modify id fun _ => { e with id }

def enable (t : ScheduleTable) (id : UInt8) (enabled : Bool) : Except Error ScheduleTable :=
  t.modify id fun e => { e with enabled }

def remove (t : ScheduleTable) (id : UInt8) : Except Error ScheduleTable :=
  match t.get? id with
  | none => .error (.scheduleNotFound id)
  | some _ => .ok { t with entries := t.entries.eraseP fun e => e.id = id }

def setAutoOff (t : ScheduleTable) (enabled : Bool) (minutes : UInt16) :
    Except Error ScheduleTable :=
  if enabled ∧ ¬(1 ≤ minutes ∧ minutes ≤ greatestAutoOff) then .error (.invalid .autoOffMinutes)
  else .ok { t with autoOffEnabled := enabled, autoOffMinutes := minutes }

def toJson (t : ScheduleTable) : Json := .ofPairs [
  ("schedules", .array (t.entries.map ScheduleEntry.toJson)),
  ("autoPowerOffEnabled", .bool t.autoOffEnabled),
  ("autoPowerOffMinutes", .nat t.autoOffMinutes.toNat)]

def entriesOfJson? : Json → Option (List ScheduleEntry)
  | .array items => if items.length ≤ capacity then items.mapM ScheduleEntry.ofJson? else none
  | _ => none

def ofJson? (v : Json) : Option ScheduleTable := do
  let fields ← v.record? ["schedules", "autoPowerOffEnabled", "autoPowerOffMinutes"]
  match fields with
  | [schedules, enabled, minutes] =>
    return {
      entries := ← Json.required entriesOfJson? schedules
      autoOffEnabled := ← Json.required Json.bool? enabled
      autoOffMinutes := ← Json.required Json.uint16? minutes
      highestId := 0 }
  | _ => none

def version : UInt8 := 1

def pack (t : ScheduleTable) : Bytes :=
  version :: (Packed.list ScheduleEntry.pack t.entries ++ Packed.bool t.autoOffEnabled ++
    Packed.varint t.autoOffMinutes.toNat)

def unpack : Packed.Reader ScheduleTable := do
  let v ← Packed.Reader.byte
  let entries ← Packed.Reader.list capacity ScheduleEntry.unpack
  let enabled ← Packed.Reader.bool
  let minutes ← Packed.Reader.uint16
  if v = version then
    return { entries, autoOffEnabled := enabled, autoOffMinutes := minutes, highestId := 0 }
  else failure

/-- The table in a blob. Entries that no table could have taken in are left out, and a blob that
cannot be read is an empty table. -/
def ofBytes (bytes : Bytes) : ScheduleTable :=
  match unpack.run? bytes with
  | some t => { t with entries := t.entries.filter fun e => e.id ≠ 0 && e.isValid }
  | none => default

def space : String := "sched"

def address : Address := ⟨space, "table"⟩

def load (m : Medium) : ScheduleTable :=
  match m.read address with
  | .ok bytes => ofBytes bytes
  | .error _ => default

def save (t : ScheduleTable) (m : Medium) : Except StorageError Unit × Medium :=
  m.write address t.pack

end ScheduleTable

end Espresso
