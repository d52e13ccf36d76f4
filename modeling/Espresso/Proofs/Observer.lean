import Espresso.Notice.Event

namespace Espresso

structure Status where
  state : MachineState
  mode : MachineMode
  shotActive : Bool
  machineType : MachineType
  wifi : Bool
  mqtt : Bool
  cloud : Bool
  controlBoard : Bool
  scale : Bool
  deriving DecidableEq

def LiveState.status (s : LiveState) : Status where
  state := s.state
  mode := s.mode
  shotActive := s.shotActive
  machineType := s.machineType
  wifi := s.wifiConnected
  mqtt := s.mqttConnected
  cloud := s.cloudConnected
  controlBoard := s.boardConnected
  scale := s.scaleConnected

def Statistics.undated (s : Statistics) : Statistics := { s with day := 0 }

namespace Event

def settings? : Event → Option Settings
  | .settingsChanged s => some s
  | _ => none

def stats? : Event → Option Statistics
  | .statsChanged s => some s
  | _ => none

def status? : Event → Option Status
  | .stateChanged s => some s.status
  | _ => none

end Event

@[ext]
structure Knowledge where
  settings : Settings
  stats : Statistics
  status : Status

namespace Knowledge

def learn (k : Knowledge) : Event → Knowledge
  | .settingsChanged s => { k with settings := s }
  | .statsChanged s => { k with stats := s.undated }
  | .stateChanged s => { k with status := s.status }
  | _ => k

def hear (k : Knowledge) (events : List Event) : Knowledge := events.foldl learn k

theorem hear_nil (k : Knowledge) : k.hear [] = k := rfl

theorem hear_append (k : Knowledge) (first second : List Event) :
    k.hear (first ++ second) = (k.hear first).hear second := List.foldl_append

theorem part_hear {α : Type} {f : Knowledge → α} {g : Event → Option α}
    (h : ∀ k e, f (k.learn e) = (g e).getD (f k)) (k : Knowledge) (events : List Event) :
    f (k.hear events) = (events.filterMap g).getLast?.getD (f k) := by
  induction events generalizing k with
  | nil => rfl
  | cons e events ih =>
    show f ((k.learn e).hear events) = _
    rw [ih, h]
    cases hn : g e with
    | none => rw [List.filterMap_cons_none hn, Option.getD_none]
    | some x =>
      rw [List.filterMap_cons_some hn, List.getLast?_cons, Option.getD_some, Option.getD_some]

theorem settings_hear (k : Knowledge) (events : List Event) :
    (k.hear events).settings = (events.filterMap Event.settings?).getLast?.getD k.settings :=
  part_hear (f := settings) (fun k e => by cases e <;> rfl) k events

theorem stats_hear (k : Knowledge) (events : List Event) :
    (k.hear events).stats =
      ((events.filterMap Event.stats?).getLast?.map Statistics.undated).getD k.stats := by
  rw [← List.getLast?_map, List.map_filterMap]
  exact part_hear (f := stats) (fun k e => by cases e <;> rfl) k events

theorem status_hear (k : Knowledge) (events : List Event) :
    (k.hear events).status = (events.filterMap Event.status?).getLast?.getD k.status :=
  part_hear (f := status) (fun k e => by cases e <;> rfl) k events

theorem learn_settings_hear (k : Knowledge) (s t : Settings) (events : List Event) :
    ({ k with settings := s }.hear events).learn (.settingsChanged t) =
      (k.hear events).learn (.settingsChanged t) := by
  apply Knowledge.ext
  · rfl
  · exact (stats_hear ..).trans (stats_hear k events).symm
  · exact (status_hear ..).trans (status_hear k events).symm

theorem learn_stats_hear (k : Knowledge) (s t : Statistics) (events : List Event) :
    ({ k with stats := s }.hear events).learn (.statsChanged t) =
      (k.hear events).learn (.statsChanged t) := by
  apply Knowledge.ext
  · exact (settings_hear ..).trans (settings_hear k events).symm
  · rfl
  · exact (status_hear ..).trans (status_hear k events).symm

theorem learn_status_hear (k : Knowledge) (s : Status) (t : LiveState) (events : List Event) :
    ({ k with status := s }.hear events).learn (.stateChanged t) =
      (k.hear events).learn (.stateChanged t) := by
  apply Knowledge.ext
  · exact (settings_hear ..).trans (settings_hear k events).symm
  · exact (stats_hear ..).trans (stats_hear k events).symm
  · rfl

end Knowledge

end Espresso
