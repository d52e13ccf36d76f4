import Espresso.Schedule.Entry
import Espresso.Settings.Schema

namespace Espresso

inductive FirstDay where
  | sunday
  | monday
  deriving DecidableEq, Repr

instance : Named FirstDay where
  all := [.sunday, .monday]
  name
    | .sunday => "sunday"
    | .monday => "monday"

inductive TemperatureUnit where
  | celsius
  | fahrenheit
  deriving DecidableEq, Repr

instance : Named TemperatureUnit where
  all := [.celsius, .fahrenheit]
  name
    | .celsius => "celsius"
    | .fahrenheit => "fahrenheit"

namespace Settings

structure Display where
  brightness : Int
  screenTimeout : Int
  showShotTimer : Bool
  showWeight : Bool
  showPressure : Bool

def Display.schema : Schema Display where
  initial := ⟨200, 30, true, true, true⟩
  fields := [
    { key := "brightness", kind := .whole 0 255
      get := brightness, set := fun s n => { s with brightness := n } },
    { key := "screenTimeout", kind := .whole 0 255
      get := screenTimeout, set := fun s n => { s with screenTimeout := n } },
    { key := "showShotTimer", kind := .flag
      get := showShotTimer, set := fun s b => { s with showShotTimer := b } },
    { key := "showWeight", kind := .flag
      get := showWeight, set := fun s b => { s with showWeight := b } },
    { key := "showPressure", kind := .flag
      get := showPressure, set := fun s b => { s with showPressure := b } }]

structure Notifications where
  machineReady : Bool
  waterEmpty : Bool
  descaleDue : Bool
  serviceDue : Bool
  backflushDue : Bool
  machineError : Bool
  controlBoardOffline : Bool
  scheduleTriggered : Bool
  brewComplete : Bool

def Notifications.schema : Schema Notifications where
  initial := ⟨true, true, true, true, true, true, true, true, false⟩
  fields := [
    { key := "machineReady", kind := .flag
      get := machineReady, set := fun s b => { s with machineReady := b } },
    { key := "waterEmpty", kind := .flag
      get := waterEmpty, set := fun s b => { s with waterEmpty := b } },
    { key := "descaleDue", kind := .flag
      get := descaleDue, set := fun s b => { s with descaleDue := b } },
    { key := "serviceDue", kind := .flag
      get := serviceDue, set := fun s b => { s with serviceDue := b } },
    { key := "backflushDue", kind := .flag
      get := backflushDue, set := fun s b => { s with backflushDue := b } },
    { key := "machineError", kind := .flag
      get := machineError, set := fun s b => { s with machineError := b } },
    { key := "controlBoardOffline", kind := .flag
      get := controlBoardOffline, set := fun s b => { s with controlBoardOffline := b } },
    { key := "scheduleTriggered", kind := .flag
      get := scheduleTriggered, set := fun s b => { s with scheduleTriggered := b } },
    { key := "brewComplete", kind := .flag
      get := brewComplete, set := fun s b => { s with brewComplete := b } }]

structure System where
  setupComplete : Bool
  logBufferEnabled : Bool
  debugLogsEnabled : Bool
  controlBoardLogForwarding : Bool

def System.schema : Schema System where
  initial := ⟨false, false, false, false⟩
  fields := [
    { key := "setupComplete", kind := .flag
      get := setupComplete, set := fun s b => { s with setupComplete := b } },
    { key := "logBufferEnabled", kind := .flag
      get := logBufferEnabled, set := fun s b => { s with logBufferEnabled := b } },
    { key := "debugLogsEnabled", kind := .flag
      get := debugLogsEnabled, set := fun s b => { s with debugLogsEnabled := b } },
    { key := "controlBoardLogForwarding", kind := .flag
      get := controlBoardLogForwarding
      set := fun s b => { s with controlBoardLogForwarding := b } }]

structure Preferences where
  firstDay : FirstDay
  use24HourTime : Bool
  temperatureUnit : TemperatureUnit
  electricityPrice : Single
  currency : String
  lastStrategy : HeatingStrategy
  initialized : Bool

def Preferences.schema : Schema Preferences where
  initial := ⟨.sunday, false, .celsius, 0.15, "USD", .sequential, false⟩
  fields := [
    { key := "firstDayOfWeek", kind := .choice
      get := firstDay, set := fun s d => { s with firstDay := d } },
    { key := "use24HourTime", kind := .flag
      get := use24HourTime, set := fun s b => { s with use24HourTime := b } },
    { key := "temperatureUnit", kind := .choice
      get := temperatureUnit, set := fun s u => { s with temperatureUnit := u } },
    { key := "electricityPrice", kind := .single 0 10
      get := electricityPrice, set := fun s x => { s with electricityPrice := x } },
    { key := "currency", kind := .text 3
      get := currency, set := fun s t => { s with currency := t } },
    { key := "lastHeatingStrategy", kind := .choice
      get := lastStrategy, set := fun s h => { s with lastStrategy := h } },
    { key := "initialized", kind := .flag
      get := initialized, set := fun s b => { s with initialized := b } }]

end Settings

end Espresso
