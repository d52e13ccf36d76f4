import Espresso.Machine.Kinds
import Espresso.Settings.Schema

namespace Espresso.Settings

structure Temperature where
  brewSetpoint : Single
  steamSetpoint : Single
  brewOffset : Single
  steamOffset : Single
  ecoBrewTemp : Single
  ecoTimeoutMinutes : Int

def Temperature.schema : Schema Temperature where
  initial := ⟨93.5, 145, 0, 0, 80, 30⟩
  fields := [
    { key := "brewSetpoint", kind := .single 80 105
      get := brewSetpoint, set := fun s x => { s with brewSetpoint := x } },
    { key := "steamSetpoint", kind := .single 100 160
      get := steamSetpoint, set := fun s x => { s with steamSetpoint := x } },
    { key := "brewOffset", kind := .single (-10) 10
      get := brewOffset, set := fun s x => { s with brewOffset := x } },
    { key := "steamOffset", kind := .single (-10) 10
      get := steamOffset, set := fun s x => { s with steamOffset := x } },
    { key := "ecoBrewTemp", kind := .single 50 100
      get := ecoBrewTemp, set := fun s x => { s with ecoBrewTemp := x } },
    { key := "ecoTimeoutMinutes", kind := .whole 0 480
      get := ecoTimeoutMinutes, set := fun s n => { s with ecoTimeoutMinutes := n } }]

structure Brew where
  byWeight : Bool
  dose : Single
  target : Single
  stopOffset : Single
  autoTare : Bool
  preinfusionTime : Single
  preinfusionPressure : Single
  preinfusionPause : Int

def Brew.schema : Schema Brew where
  initial := ⟨false, 18, 36, 2, true, 0, 2, 5000⟩
  fields := [
    { key := "bbwEnabled", kind := .flag
      get := byWeight, set := fun s b => { s with byWeight := b } },
    { key := "doseWeight", kind := .single 1 40
      get := dose, set := fun s x => { s with dose := x } },
    { key := "targetWeight", kind := .single 1 200
      get := target, set := fun s x => { s with target := x } },
    { key := "stopOffset", kind := .single 0 10
      get := stopOffset, set := fun s x => { s with stopOffset := x } },
    { key := "autoTare", kind := .flag
      get := autoTare, set := fun s b => { s with autoTare := b } },
    { key := "preinfusionTime", kind := .single 0 30
      get := preinfusionTime, set := fun s x => { s with preinfusionTime := x } },
    { key := "preinfusionPressure", kind := .single 0 6
      get := preinfusionPressure, set := fun s x => { s with preinfusionPressure := x } },
    { key := "preinfusionPauseMs", kind := .whole 0 30000
      get := preinfusionPause, set := fun s n => { s with preinfusionPause := n } }]

structure Power where
  mainsVoltage : Int
  maxCurrent : Single
  powerOnBoot : Bool

def Power.schema : Schema Power where
  initial := ⟨220, 13, false⟩
  fields := [
    { key := "mainsVoltage", kind := .whole 100 250
      get := mainsVoltage, set := fun s n => { s with mainsVoltage := n } },
    { key := "maxCurrent", kind := .single 1 16
      get := maxCurrent, set := fun s x => { s with maxCurrent := x } },
    { key := "powerOnBoot", kind := .flag
      get := powerOnBoot, set := fun s b => { s with powerOnBoot := b } }]

structure Scale where
  enabled : Bool
  pairedAddress : String
  pairedName : String
  scaleType : Int

def Scale.schema : Schema Scale where
  initial := ⟨true, "", "", 0⟩
  fields := [
    { key := "enabled", kind := .flag
      get := enabled, set := fun s b => { s with enabled := b } },
    { key := "pairedAddress", kind := .text 17
      get := pairedAddress, set := fun s t => { s with pairedAddress := t } },
    { key := "pairedName", kind := .text 31
      get := pairedName, set := fun s t => { s with pairedName := t } },
    { key := "scaleType", kind := .whole 0 255
      get := scaleType, set := fun s n => { s with scaleType := n } }]

structure MachineInfo where
  deviceName : String
  machineBrand : String
  machineModel : String
  machineType : MachineType

def MachineInfo.schema : Schema MachineInfo where
  initial := ⟨"BrewOS", "", "", .unknown⟩
  fields := [
    { key := "deviceName", kind := .text 31
      get := deviceName, set := fun s t => { s with deviceName := t } },
    { key := "machineBrand", kind := .text 31
      get := machineBrand, set := fun s t => { s with machineBrand := t } },
    { key := "machineModel", kind := .text 31
      get := machineModel, set := fun s t => { s with machineModel := t } },
    { key := "machineType", kind := .choice
      get := machineType, set := fun s t => { s with machineType := t } }]

end Espresso.Settings
