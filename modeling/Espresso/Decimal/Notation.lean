import Espresso.Decimal.Shortest

namespace Espresso

namespace Decimal

def positional (d : Decimal) : List Char :=
  let digits := digitText d.digits
  let point := d.leading + 1
  if point ≤ 0 then '0' :: '.' :: (List.replicate (-point).toNat '0' ++ digits)
  else if digits.length ≤ point.toNat then
    digits ++ List.replicate (point.toNat - digits.length) '0' ++ ['.', '0']
  else digits.take point.toNat ++ '.' :: digits.drop point.toNat

def signText (negative : Bool) : List Char := if negative then ['-'] else []

def scientific (d : Decimal) : List Char :=
  let digits := digitText d.digits
  let tail := digits.drop 1
  digits.take 1 ++ (if tail = [] then [] else '.' :: tail) ++
    'e' :: (signText (d.leading < 0) ++ digitText d.leading.natAbs)

def render (d : Decimal) : List Char :=
  if -6 ≤ d.leading ∧ d.leading ≤ 15 then d.positional else d.scientific

end Decimal

namespace Binary

variable {F : BinaryFormat}

def text (x : Binary F) : List Char := Decimal.signText x.negative ++ x.shortest.render

def fixed (places : Nat) (x : Binary F) : List Char :=
  if x.isNaN then "NaN".toList
  else if x.isInfinite then Decimal.signText x.negative ++ "inf".toList
  else
    let scaled := nearest (x.units * 10 ^ places) (2 ^ F.unitPower)
    let fraction := Decimal.digitText (scaled % 10 ^ places)
    Decimal.signText x.negative ++ Decimal.digitText (scaled / 10 ^ places) ++
      '.' :: (List.replicate (places - fraction.length) '0' ++ fraction)

end Binary

end Espresso
