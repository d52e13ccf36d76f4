import Espresso.Json.Basic

/-!
Reading a number. Its digits are gathered into 64 bits and scaled by a power of ten. A digit that
does not fit any more only counts for the scale if it stands before the point, and is dropped behind
it.
-/

namespace Espresso.Json

def significandBound : Nat := 18446744073709551616

def greatestNegative : Nat := 9223372036854775808

def digitValue (c : Char) : Nat := c.toNat - '0'.toNat

def gatherWhole (significand : Nat) : List Char → Nat × Nat
  | [] => (significand, 0)
  | c :: cs =>
    let next := significand * 10 + digitValue c
    if next < significandBound then gatherWhole next cs else (significand, cs.length + 1)

def gatherFraction (significand : Nat) : List Char → Nat × Nat
  | [] => (significand, 0)
  | c :: cs =>
    let next := significand * 10 + digitValue c
    if next < significandBound then
      let (gathered, taken) := gatherFraction next cs
      (gathered, taken + 1)
    else (significand, 0)

def greatestPower : Nat := 308

def power (n : Nat) : Double := Binary.ofNat (10 ^ n)

/-- A significand times a power of ten; `none` if it is too great. Multiplies or divides by one
power of ten, or by two if one is not enough to reach the least floats. -/
def scale (significand : Nat) (exponent : Int) : Option Double :=
  let f : Double := Binary.ofNat significand
  if exponent < 0 then
    let down := exponent.natAbs
    if down ≤ greatestPower then some (f.div (power down))
    else some ((f.div (power greatestPower)).div (power (min (down - greatestPower) greatestPower)))
  else if significand = 0 then some f
  else if exponent.toNat ≤ greatestPower then
    let scaled := f.mul (power exponent.toNat)
    if scaled.isFinite then some scaled else none
  else none

def signed (negative : Bool) (x : Double) : Double := if negative then x.neg else x

def ofParts (negative : Bool) (significand : Nat) (exponent : Int) : Option Json :=
  (scale significand exponent).map fun x => float (signed negative x)

def ofWhole (negative : Bool) (digits : List Char) : Option Json :=
  let (significand, left) := gatherWhole 0 digits
  if left ≠ 0 then ofParts negative significand left
  else if negative then
    if significand = 0 ∨ greatestNegative < significand then
      some (float (Binary.ofNat significand : Double).neg)
    else some (int (-significand))
  else some (int significand)

def ofDigits (negative : Bool) (whole fraction : List Char) (exponent : Int) : Option Json :=
  let (significand, left) := gatherWhole 0 whole
  let (significand, taken) := gatherFraction significand fraction
  ofParts negative significand (exponent + left - taken)

def isDigit (c : Char) : Bool := '0' ≤ c && c ≤ '9'

def spanDigits (cs : List Char) : List Char × List Char := cs.span isDigit

def digitsValue (digits : List Char) : Nat := digits.foldl (fun n c => n * 10 + digitValue c) 0

def exponent? : List Char → Option (Option Int × List Char)
  | [] => some (none, [])
  | c :: cs =>
    if c = 'e' ∨ c = 'E' then
      let (negative, cs) := match cs with
        | '-' :: cs => (true, cs)
        | '+' :: cs => (false, cs)
        | cs => (false, cs)
      let (digits, rest) := spanDigits cs
      if digits = [] then none
      else some (some (if negative then -(digitsValue digits : Int) else digitsValue digits), rest)
    else some (none, c :: cs)

def fraction? : List Char → Option (List Char × List Char)
  | '.' :: cs =>
    let (digits, rest) := spanDigits cs
    if digits = [] then none else some (digits, rest)
  | cs => some ([], cs)

def whole? (cs : List Char) : Option (List Char × List Char) :=
  let (digits, rest) := spanDigits cs
  if digits = [] ∨ (digits.head? = some '0' ∧ digits.length ≠ 1) then none else some (digits, rest)

def unsigned? (negative : Bool) (cs : List Char) : Option (Json × List Char) := do
  let (whole, cs) ← whole? cs
  let (fraction, cs) ← fraction? cs
  let (exponent, cs) ← exponent? cs
  let v ←
    if fraction = [] ∧ exponent = none then ofWhole negative whole
    else ofDigits negative whole fraction (exponent.getD 0)
  return (v, cs)

end Espresso.Json
