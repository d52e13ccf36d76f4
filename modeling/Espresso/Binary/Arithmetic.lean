import Espresso.Rounding
import Espresso.Binary.Basic

/-!
Arithmetic on binary floats. Every finite value is a whole number of units of its format, so sums,
products and quotients are taken exactly and rounded once, to the nearest value.
-/

namespace Espresso.Binary

variable {F G : BinaryFormat}

def units (x : Binary F) : Nat :=
  let exponent := x.magnitude / 2 ^ F.fractionBits
  let fraction := x.magnitude % 2 ^ F.fractionBits
  if exponent = 0 then fraction else (2 ^ F.fractionBits + fraction) * 2 ^ (exponent - 1)

def nearestMagnitude (F : BinaryFormat) (num den : Nat) : Nat :=
  let scale := (num / den).log2 - F.fractionBits
  min (scale * 2 ^ F.fractionBits + nearest num (den * 2 ^ scale)) F.infinity

theorem nearestMagnitude_lt (F : BinaryFormat) (num den : Nat) :
    nearestMagnitude F num den < 2 ^ F.magnitudeBits :=
  Nat.lt_of_le_of_lt (Nat.min_le_right _ _) F.infinity_lt

def ofUnits (negative : Bool) (num den : Nat) : Binary F :=
  ⟨negative, nearestMagnitude F num den, nearestMagnitude_lt F num den⟩

def ofRatio (negative : Bool) (num den : Nat) : Binary F :=
  ofUnits negative (num * 2 ^ F.unitPower) den

def ofDecimal (negative : Bool) (digits : Nat) (exponent : Int) : Binary F :=
  ofRatio negative (digits * 10 ^ exponent.toNat) (10 ^ (-exponent).toNat)

def ofNat (n : Nat) : Binary F := ofRatio false n 1

def ofInt (n : Int) : Binary F := ofRatio (n < 0) n.natAbs 1

instance {n : Nat} : OfNat (Binary F) n := ⟨ofNat n⟩

instance : OfScientific (Binary F) where
  ofScientific digits isNegative exponent :=
    ofDecimal false digits (if isNegative then -(exponent : Int) else exponent)

instance : Neg (Binary F) := ⟨neg⟩

def quiet (x : Binary F) : Binary F :=
  let bit := 2 ^ (F.fractionBits - 1)
  if x.magnitude / bit % 2 = 1 then x else ofBits (x.toBits + bit)

def undefined : Binary F :=
  ⟨true, min (F.infinity + 2 ^ (F.fractionBits - 1)) (2 ^ F.magnitudeBits - 1), by
    have := Nat.two_pow_pos F.magnitudeBits
    omega⟩

def signedUnits (x : Binary F) : Int := if x.negative then -(x.units : Int) else x.units

def ofSignedUnits (zeroSign : Bool) (n : Int) : Binary F :=
  if n = 0 then signedZero zeroSign else ofUnits (n < 0) n.natAbs 1

def add (x y : Binary F) : Binary F :=
  if x.isNaN then x.quiet
  else if y.isNaN then y.quiet
  else if x.isInfinite then
    if y.isInfinite && x.negative != y.negative then undefined else x
  else if y.isInfinite then y
  else ofSignedUnits (x.negative && y.negative) (x.signedUnits + y.signedUnits)

def mul (x y : Binary F) : Binary F :=
  let negative := x.negative != y.negative
  if x.isNaN then x.quiet
  else if y.isNaN then y.quiet
  else if x.isInfinite || y.isInfinite then
    if x.isZero || y.isZero then undefined else infinite negative
  else ofUnits negative (x.units * y.units) (2 ^ F.unitPower)

def div (x y : Binary F) : Binary F :=
  let negative := x.negative != y.negative
  if x.isNaN then x.quiet
  else if y.isNaN then y.quiet
  else if x.isInfinite then
    if y.isInfinite then undefined else infinite negative
  else if y.isInfinite then signedZero negative
  else if y.isZero then
    if x.isZero then undefined else infinite negative
  else ofUnits negative (x.units * 2 ^ F.unitPower) y.units

def convert (x : Binary F) : Binary G :=
  if x.isNaN then
    ⟨x.negative, min (G.infinity + 2 ^ (G.fractionBits - 1)) (2 ^ G.magnitudeBits - 1), by
      have := Nat.two_pow_pos G.magnitudeBits
      omega⟩
  else if x.isInfinite then infinite x.negative
  else ofUnits x.negative (x.units * 2 ^ G.unitPower) (2 ^ F.unitPower)

end Espresso.Binary
