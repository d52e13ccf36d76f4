import Espresso.Named
import Espresso.Json.Basic

/-!
Typed values out of documents. Nothing is converted but numbers: a whole number field refuses
floats, and a float field takes both.
-/

namespace Espresso.Json

def bool? : Json → Option Bool
  | bool b => some b
  | _ => none

def text? : Json → Option String
  | text s => some s
  | _ => none

def int? (lo hi : Int) : Json → Option Int
  | int n => if lo ≤ n ∧ n ≤ hi then some n else none
  | _ => none

def nat? (bits : Nat) (v : Json) : Option Nat := (v.int? 0 (Int.ofNat (2 ^ bits - 1))).map Int.toNat

def uint8? (v : Json) : Option UInt8 := (v.nat? 8).map UInt8.ofNat

def uint16? (v : Json) : Option UInt16 := (v.nat? 16).map UInt16.ofNat

def uint32? (v : Json) : Option UInt32 := (v.nat? 32).map UInt32.ofNat

def single? : Json → Option Single
  | int n => some (Binary.ofInt n)
  | float x => some x.convert
  | _ => none

/-- A value by its name, which may be the only key of an object and then has the value null. -/
def named? {α : Type} [Named α] : Json → Option α
  | text s => Named.ofName? s
  | object [(s, null)] => Named.ofName? s
  | _ => none

def record? (keys : List String) : Json → Option (List (Option Json))
  | object members => some (keys.map fun key => find? key members)
  | array items => if items.length = keys.length then some (items.map some) else none
  | _ => none

def required {α : Type} (read : Json → Option α) (field : Option Json) : Option α :=
  field.bind read

def optional {α : Type} (read : Json → Option α) : Option Json → Option (Option α)
  | none => some none
  | some null => some none
  | some v => (read v).map some

end Espresso.Json
