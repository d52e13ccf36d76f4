import Espresso.Error
import Espresso.Json.Reader

/-!
Intervals of the controller in milliseconds, and how it spares the storage.
-/

namespace Espresso

structure Tuning where
  tickInterval : UInt32
  scheduleCheckInterval : UInt32
  statsSaveInterval : UInt32
  historySaveDelay : UInt32
  historyRetryInterval : UInt32
  historyMinFreeHeap : Nat
  deriving DecidableEq, Repr

namespace Tuning

instance : Inhabited Tuning := ⟨⟨1000, 10000, 300000, 5000, 2000, 60000⟩⟩

def validate (t : Tuning) : Except Error Unit :=
  if t.tickInterval = 0 then .error (.mistuned .tickInterval)
  else if t.scheduleCheckInterval = 0 ∨ 60000 < t.scheduleCheckInterval then
    .error (.mistuned .scheduleCheckInterval)
  else if t.statsSaveInterval = 0 then .error (.mistuned .statsSaveInterval)
  else if t.historyRetryInterval = 0 then .error (.mistuned .historyRetryInterval)
  else .ok ()

theorem validate_eq_ok {t : Tuning} : t.validate = .ok () ↔ 0 < t.tickInterval.toNat ∧
    (0 < t.scheduleCheckInterval.toNat ∧ t.scheduleCheckInterval.toNat ≤ 60000) ∧
    0 < t.statsSaveInterval.toNat ∧ 0 < t.historyRetryInterval.toNat := by
  have hpos (n : UInt32) : 0 < n.toNat ↔ n ≠ 0 := by
    rw [Nat.pos_iff_ne_zero, ne_eq, ne_eq, ← UInt32.toNat_zero, UInt32.toNat_inj]
  have hle (n : UInt32) : n.toNat ≤ 60000 ↔ ¬60000 < n :=
    (UInt32.le_iff_toNat_le (b := 60000)).symm.trans UInt32.not_lt.symm
  rw [hpos, hpos, hpos, hpos, hle, ← not_or]
  unfold validate
  split
  · simp [*]
  · split
    · simp [*]
    · split
      · simp [*]
      · split <;> simp [*]

def toJson (t : Tuning) : Json := .ofPairs [
  ("tick_interval_ms", .nat t.tickInterval.toNat),
  ("schedule_check_interval_ms", .nat t.scheduleCheckInterval.toNat),
  ("stats_save_interval_ms", .nat t.statsSaveInterval.toNat),
  ("history_save_delay_ms", .nat t.historySaveDelay.toNat),
  ("history_retry_interval_ms", .nat t.historyRetryInterval.toNat),
  ("history_min_free_heap", .nat t.historyMinFreeHeap)]

def ofJson? (v : Json) : Option Tuning := do
  let fields ← v.record? ["tick_interval_ms", "schedule_check_interval_ms",
    "stats_save_interval_ms", "history_save_delay_ms", "history_retry_interval_ms",
    "history_min_free_heap"]
  match fields with
  | [tick, check, save, delay, retry, heap] =>
    return {
      tickInterval := ← Json.required Json.uint32? tick
      scheduleCheckInterval := ← Json.required Json.uint32? check
      statsSaveInterval := ← Json.required Json.uint32? save
      historySaveDelay := ← Json.required Json.uint32? delay
      historyRetryInterval := ← Json.required Json.uint32? retry
      historyMinFreeHeap := ← Json.required (Json.nat? 64) heap }
  | _ => none

end Tuning

end Espresso
