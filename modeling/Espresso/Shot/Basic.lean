import Espresso.Json.Reader

namespace Espresso

structure Shot where
  timestamp : UInt32
  dose : Single
  yield : Single
  duration : UInt32
  preinfusion : UInt32
  flow : Single
  peak : Single
  temperature : Single
  rating : Option UInt8
  deriving DecidableEq, Inhabited

namespace Shot

def greatestRating : UInt8 := 5

def ratingOf (n : UInt8) : Option UInt8 := if n = 0 then none else some n

def ratio (s : Shot) : Single := if Binary.zero.lt s.dose then s.yield.div s.dose else .zero

def toJson (s : Shot) : Json := .ofPairs [
  ("timestamp", .nat s.timestamp.toNat),
  ("doseWeight", .single s.dose),
  ("yieldWeight", .single s.yield),
  ("durationMs", .nat s.duration.toNat),
  ("preinfusionMs", .nat s.preinfusion.toNat),
  ("avgFlowRate", .single s.flow),
  ("peakPressure", .single s.peak),
  ("avgTemperature", .single s.temperature),
  ("rating", s.rating.elim .null fun n => .nat n.toNat)]

def ofJson? (v : Json) : Option Shot := do
  let fields ← v.record? ["timestamp", "doseWeight", "yieldWeight", "durationMs", "preinfusionMs",
    "avgFlowRate", "peakPressure", "avgTemperature", "rating"]
  match fields with
  | [timestamp, dose, yield, duration, preinfusion, flow, peak, temperature, rating] =>
    return {
      timestamp := ← Json.required Json.uint32? timestamp
      dose := ← Json.required Json.single? dose
      yield := ← Json.required Json.single? yield
      duration := ← Json.required Json.uint32? duration
      preinfusion := ← Json.required Json.uint32? preinfusion
      flow := ← Json.required Json.single? flow
      peak := ← Json.required Json.single? peak
      temperature := ← Json.required Json.single? temperature
      rating := ← Json.optional Json.uint8? rating }
  | _ => none

end Shot

end Espresso
