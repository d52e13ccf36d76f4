import Espresso.Saturating

namespace Espresso

/-- A wall-clock instant. `unix` counts seconds since the start of 1970, `weekday` counts from
Sunday, and the first of January of year one is day 1. -/
structure LocalTime where
  unix : Nat
  weekday : Nat
  hour : Nat
  minute : Nat
  day : Nat
  deriving DecidableEq, Repr, Inhabited

namespace LocalTime

def epoch : Nat := 1577836800

def lastSecond : Int := 8210266876799

def firstDay : Int := 719163

def greatestUnix : Nat := 9223372036854775807

def ofUnix (unix : Nat) (offset : Int) : Option LocalTime :=
  let seconds := (unix : Int) + offset * 60
  if unix < epoch ∨ greatestUnix < unix ∨ lastSecond < seconds then none
  else
    let day := seconds / 86400 + firstDay
    let second := (seconds % 86400).toNat
    some {
      unix
      weekday := (day % 7).toNat
      hour := second / 3600
      minute := second % 3600 / 60
      day := day.toNat }

def minuteOfDay (t : LocalTime) : Nat := t.hour * 60 + t.minute

def stamp (t : LocalTime) : UInt32 := saturate t.unix

end LocalTime

end Espresso
