import Espresso.Error
import Espresso.LocalTime
import Espresso.Json.Reader
import Espresso.Packed.Basic

namespace Espresso

inductive ScheduleAction where
  | turnOn
  | turnOff
  deriving DecidableEq, Repr, Inhabited

instance : Named ScheduleAction where
  all := [.turnOn, .turnOff]
  name
    | .turnOn => "on"
    | .turnOff => "off"

inductive HeatingStrategy where
  | brewOnly
  | sequential
  | parallel
  | smartStagger
  deriving DecidableEq, Repr

instance : Inhabited HeatingStrategy := ⟨.sequential⟩

instance : Named HeatingStrategy where
  all := [.brewOnly, .sequential, .parallel, .smartStagger]
  name
    | .brewOnly => "brew_only"
    | .sequential => "sequential"
    | .parallel => "parallel"
    | .smartStagger => "smart_stagger"

structure Days where
  mask : UInt8
  deriving DecidableEq, Repr

namespace Days

def everyDay : Days := ⟨0x7F⟩

def contains (d : Days) (weekday : Nat) : Bool := weekday < 7 && d.mask.toNat.testBit weekday

def isActive (d : Days) : Bool := d.mask.toNat % 128 ≠ 0

end Days

def ScheduleEntry.nameLimit : Nat := 23

/-- A rule. Ids of a table start at one; zero is left for the rule of idle machines. -/
structure ScheduleEntry where
  id : UInt8
  enabled : Bool
  days : Days
  hour : UInt8
  minute : UInt8
  action : ScheduleAction
  strategy : HeatingStrategy
  name : String
  name_fits : name.utf8ByteSize ≤ ScheduleEntry.nameLimit
  deriving DecidableEq, Repr

namespace ScheduleEntry

def daily (hour minute : UInt8) (action : ScheduleAction) : ScheduleEntry where
  id := 0
  enabled := true
  days := .everyDay
  hour
  minute
  action
  strategy := default
  name := ""
  name_fits := Nat.zero_le _

def named (e : ScheduleEntry) (name : String) : ScheduleEntry :=
  { e with name := Text.clip nameLimit name, name_fits := Text.utf8ByteSize_clip_le nameLimit name }

def onDays (e : ScheduleEntry) (days : Days) : ScheduleEntry := { e with days }

def autoPowerOff : ScheduleEntry := (daily 0 0 .turnOff).named "Auto Power-Off"

def validate (e : ScheduleEntry) : Except Error Unit :=
  if 23 < e.hour then .error (.invalid .hour)
  else if 59 < e.minute then .error (.invalid .minute)
  else if e.days.isActive then .ok ()
  else .error (.invalid .noActiveDay)

def isValid (e : ScheduleEntry) : Bool := e.validate.isOk

def hits (e : ScheduleEntry) (now : LocalTime) : Bool :=
  e.enabled && e.days.contains now.weekday && e.hour.toNat = now.hour && e.minute.toNat = now.minute

def rank (e : ScheduleEntry) : Nat := (if e.action = .turnOff then 256 else 0) + e.id.toNat

def winner (entries : List ScheduleEntry) : Option ScheduleEntry :=
  entries.foldl (fun best e =>
    match best with
    | none => some e
    | some b => if b.rank ≤ e.rank then some e else some b) none

def toJson (e : ScheduleEntry) : Json := .ofPairs [
  ("id", .nat e.id.toNat),
  ("enabled", .bool e.enabled),
  ("days", .nat e.days.mask.toNat),
  ("hour", .nat e.hour.toNat),
  ("minute", .nat e.minute.toNat),
  ("action", .text (Named.name e.action)),
  ("strategy", .text (Named.name e.strategy)),
  ("name", .text e.name)]

def nameOfJson? (v : Json) : Option (Text.Bounded nameLimit) :=
  v.text?.bind (Text.Bounded.ofText? nameLimit)

def ofJson? (v : Json) : Option ScheduleEntry := do
  let fields ←
    v.record? ["id", "enabled", "days", "hour", "minute", "action", "strategy", "name"]
  match fields with
  | [id, enabled, days, hour, minute, action, strategy, name] =>
    let name ← Json.required nameOfJson? name
    return {
      id := ← Json.required Json.uint8? id
      enabled := ← Json.required Json.bool? enabled
      days := ⟨← Json.required Json.uint8? days⟩
      hour := ← Json.required Json.uint8? hour
      minute := ← Json.required Json.uint8? minute
      action := ← Json.required Json.named? action
      strategy := ← Json.required Json.named? strategy
      name := name.text
      name_fits := name.fits }
  | _ => none

def pack (e : ScheduleEntry) : Bytes :=
  [e.id] ++ Packed.bool e.enabled ++ [e.days.mask, e.hour, e.minute] ++ Packed.choice e.action ++
    Packed.choice e.strategy ++ Packed.text e.name

def unpack : Packed.Reader ScheduleEntry := do
  let id ← Packed.Reader.byte
  let enabled ← Packed.Reader.bool
  let mask ← Packed.Reader.byte
  let hour ← Packed.Reader.byte
  let minute ← Packed.Reader.byte
  let action ← Packed.Reader.choice
  let strategy ← Packed.Reader.choice
  let name ← Packed.Reader.text nameLimit
  return {
    id, enabled, days := ⟨mask⟩, hour, minute, action, strategy
    name := name.text
    name_fits := name.fits }

end ScheduleEntry

end Espresso
