import Espresso.Settings.Schema

namespace Espresso.Settings

structure Network where
  wifiSsid : String
  wifiPassword : String
  wifiConfigured : Bool
  hostname : String

def Network.schema : Schema Network where
  initial := ⟨"", "", false, "brewos"⟩
  fields := [
    { key := "wifiSsid", kind := .text 32
      get := wifiSsid, set := fun s t => { s with wifiSsid := t } },
    { key := "wifiPassword", kind := .text 64, secret := true
      get := wifiPassword, set := fun s t => { s with wifiPassword := t } },
    { key := "wifiConfigured", kind := .derived
      get := wifiConfigured, set := fun s _ => s },
    { key := "hostname", kind := .label 31
      get := hostname, set := fun s t => { s with hostname := t } }]
  settle s := { s with wifiConfigured := s.wifiSsid ≠ "" }

structure Time where
  useNtp : Bool
  ntpServer : String
  utcOffset : Int
  dstEnabled : Bool
  dstOffset : Int

def Time.localOffset (s : Time) : Int := s.utcOffset + if s.dstEnabled then s.dstOffset else 0

def Time.schema : Schema Time where
  initial := ⟨true, "pool.ntp.org", 0, false, 60⟩
  fields := [
    { key := "useNtp", kind := .flag
      get := useNtp, set := fun s b => { s with useNtp := b } },
    { key := "ntpServer", kind := .text 63
      get := ntpServer, set := fun s t => { s with ntpServer := t } },
    { key := "utcOffsetMinutes", kind := .whole (-720) 840
      get := utcOffset, set := fun s n => { s with utcOffset := n } },
    { key := "dstEnabled", kind := .flag
      get := dstEnabled, set := fun s b => { s with dstEnabled := b } },
    { key := "dstOffsetMinutes", kind := .whole 0 120
      get := dstOffset, set := fun s n => { s with dstOffset := n } }]

structure Mqtt where
  enabled : Bool
  broker : String
  port : Int
  username : String
  password : String
  baseTopic : String
  discovery : Bool

def Mqtt.schema : Schema Mqtt where
  initial := ⟨false, "", 1883, "", "", "brewos", true⟩
  fields := [
    { key := "enabled", kind := .flag
      get := enabled, set := fun s b => { s with enabled := b } },
    { key := "broker", kind := .text 63
      get := broker, set := fun s t => { s with broker := t } },
    { key := "port", kind := .whole 1 65535
      get := port, set := fun s n => { s with port := n } },
    { key := "username", kind := .text 31
      get := username, set := fun s t => { s with username := t } },
    { key := "password", kind := .text 63, secret := true
      get := password, set := fun s t => { s with password := t } },
    { key := "baseTopic", kind := .text 31
      get := baseTopic, set := fun s t => { s with baseTopic := t } },
    { key := "discovery", kind := .flag
      get := discovery, set := fun s b => { s with discovery := b } }]

structure Cloud where
  enabled : Bool
  serverUrl : String
  deviceId : String
  deviceKey : String

def Cloud.schema : Schema Cloud where
  initial := ⟨false, "", "", ""⟩
  fields := [
    { key := "enabled", kind := .flag
      get := enabled, set := fun s b => { s with enabled := b } },
    { key := "serverUrl", kind := .text 127
      get := serverUrl, set := fun s t => { s with serverUrl := t } },
    { key := "deviceId", kind := .text 36
      get := deviceId, set := fun s t => { s with deviceId := t } },
    { key := "deviceKey", kind := .text 64, secret := true
      get := deviceKey, set := fun s t => { s with deviceKey := t } }]

end Espresso.Settings
