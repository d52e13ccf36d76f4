namespace Espresso

inductive StorageError where
  | notFound
  | full
  | io
  | unavailable
  deriving DecidableEq, Repr

def StorageError.message : StorageError → String
  | notFound => "key not found"
  | full => "storage full"
  | io => "I/O error"
  | unavailable => "storage unavailable"

inductive BlobError where
  | tooShort
  | badMagic
  | unsupportedVersion (version : UInt8)
  | truncated (declared : UInt8) (available : Nat)
  | tooManyRecords (declared : UInt8)
  deriving DecidableEq, Repr

def BlobError.message : BlobError → String
  | tooShort => "blob shorter than header"
  | badMagic => "bad magic"
  | unsupportedVersion v => "unsupported format version " ++ toString v.toNat
  | truncated declared available =>
    toString declared.toNat ++ " records declared, " ++ toString available ++ " present"
  | tooManyRecords n => toString n.toNat ++ " records exceed capacity"

inductive Refusal where
  | hour
  | minute
  | noActiveDay
  | autoOffMinutes
  | rating
  | maintenanceKind
  | sectionUpdate
  | settingsDocument
  deriving DecidableEq, Repr

def Refusal.message : Refusal → String
  | hour => "hour must be 0-23"
  | minute => "minute must be 0-59"
  | noActiveDay => "no active day"
  | autoOffMinutes => "auto power-off minutes must be 1-480"
  | rating => "rating must be 0-5"
  | maintenanceKind => "unknown maintenance kind"
  | sectionUpdate => "section update must be an object"
  | settingsDocument => "settings document must be an object"

inductive Mistuning where
  | tickInterval
  | scheduleCheckInterval
  | statsSaveInterval
  | historyRetryInterval
  deriving DecidableEq, Repr

def Mistuning.message : Mistuning → String
  | tickInterval => "tick_interval_ms must be > 0"
  | scheduleCheckInterval => "schedule_check_interval_ms must be 1-60000"
  | statsSaveInterval => "stats_save_interval_ms must be > 0"
  | historyRetryInterval => "history_retry_interval_ms must be > 0"

inductive Error where
  | storage (e : StorageError)
  | blob (e : BlobError)
  | unknownSection
  | scheduleTableFull
  | scheduleNotFound (id : UInt8)
  | shotNotFound (index : Nat)
  | invalid (r : Refusal)
  | mistuned (m : Mistuning)
  deriving DecidableEq, Repr

def Error.message : Error → String
  | storage e => "storage: " ++ e.message
  | blob e => "codec: " ++ e.message
  | unknownSection => "unknown settings section"
  | scheduleTableFull => "schedule table full"
  | scheduleNotFound id => "schedule " ++ toString id.toNat ++ " not found"
  | shotNotFound index => "shot " ++ toString index ++ " not found"
  | invalid r => "invalid request: " ++ r.message
  | mistuned m => "config: " ++ m.message

end Espresso
