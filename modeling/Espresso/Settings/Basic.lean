import Espresso.Schedule.Table
import Espresso.Settings.Section

namespace Espresso

structure Settings where
  temperature : Settings.Temperature
  brew : Settings.Brew
  power : Settings.Power
  network : Settings.Network
  time : Settings.Time
  mqtt : Settings.Mqtt
  cloud : Settings.Cloud
  scale : Settings.Scale
  display : Settings.Display
  machineInfo : Settings.MachineInfo
  notifications : Settings.Notifications
  system : Settings.System
  preferences : Settings.Preferences
  schedule : ScheduleTable

namespace Settings

def initial (schedule : ScheduleTable) : Settings where
  temperature := Temperature.schema.initial
  brew := Brew.schema.initial
  power := Power.schema.initial
  network := Network.schema.initial
  time := Time.schema.initial
  mqtt := Mqtt.schema.initial
  cloud := Cloud.schema.initial
  scale := Scale.schema.initial
  display := Display.schema.initial
  machineInfo := MachineInfo.schema.initial
  notifications := Notifications.schema.initial
  system := System.schema.initial
  preferences := Preferences.schema.initial
  schedule

instance : Inhabited Settings := ⟨initial default⟩

def get (s : Settings) : (n : Section) → n.Content
  | .temperature => s.temperature
  | .brew => s.brew
  | .power => s.power
  | .network => s.network
  | .time => s.time
  | .mqtt => s.mqtt
  | .cloud => s.cloud
  | .scale => s.scale
  | .display => s.display
  | .machineInfo => s.machineInfo
  | .notifications => s.notifications
  | .system => s.system
  | .preferences => s.preferences

def set (s : Settings) : (n : Section) → n.Content → Settings
  | .temperature, content => { s with temperature := content }
  | .brew, content => { s with brew := content }
  | .power, content => { s with power := content }
  | .network, content => { s with network := content }
  | .time, content => { s with time := content }
  | .mqtt, content => { s with mqtt := content }
  | .cloud, content => { s with cloud := content }
  | .scale, content => { s with scale := content }
  | .display, content => { s with display := content }
  | .machineInfo, content => { s with machineInfo := content }
  | .notifications, content => { s with notifications := content }
  | .system, content => { s with system := content }
  | .preferences, content => { s with preferences := content }

theorem get_set (s : Settings) (n : Section) (content : n.Content) :
    (s.set n content).get n = content := by cases n <;> rfl

theorem get_set_of_ne (s : Settings) {m n : Section} (h : m ≠ n) (content : n.Content) :
    (s.set n content).get m = s.get m := by
  cases n <;> cases m <;> first | rfl | exact absurd rfl h

theorem schedule_set (s : Settings) (n : Section) (content : n.Content) :
    (s.set n content).schedule = s.schedule := by cases n <;> rfl

def reset (s : Settings) (n : Section) : Settings := s.set n n.schema.initial

def patch (s : Settings) (n : Section) (fields : Json) : Settings :=
  s.set n (n.schema.patch (s.get n) fields)

def count (n : Section) (fields : Json) : Nat := n.schema.count fields

def touched (document : Json) : List Section :=
  (document.members?.getD []).filterMap fun (name, fields) =>
    (Named.ofName? name).filter fun n => count n fields ≠ 0

def patchAll (s : Settings) (document : Json) : Settings :=
  (document.members?.getD []).foldl (fun s (name, fields) =>
    match Named.ofName? name with
    | some n => s.patch n fields
    | none => s) s

theorem schedule_patchAll (s : Settings) (document : Json) :
    (s.patchAll document).schedule = s.schedule := by
  refine List.foldlRecOn (motive := fun t : Settings => t.schedule = s.schedule) _ _ rfl ?_
  intro t ht p _
  dsimp only
  split
  · exact (schedule_set ..).trans ht
  · exact ht

def stored (s : Settings) (n : Section) : String := n.schema.stored (s.get n)

def sectionJson (s : Settings) (n : Section) : Json := n.schema.toJson (s.get n)

def toJson (s : Settings) : Json :=
  .ofPairs (Section.all.map (fun n => (n.name, s.sectionJson n)) ++
    [("schedule", s.schedule.toJson)])

def sameSection (s t : Settings) (n : Section) : Bool := n.schema.same (s.get n) (t.get n)

def same (s t : Settings) : Bool :=
  Section.all.all (sameSection s t) && s.schedule.same t.schedule

end Settings

end Espresso
