import Espresso.Decimal.Basic

/-!
The shortest decimal of a finite float: the fewest digits that round back to the float, of two
candidates the nearer, of two equally near ones the even.
-/

namespace Espresso.Binary

variable {F : BinaryFormat}

def readsAs (x : Binary F) (d : Decimal) : Bool :=
  (ofDecimal false d.digits d.exponent : Binary F).magnitude = x.magnitude

def withDigits (x : Binary F) (count : Nat) : Option Decimal :=
  let exact := x.exact
  let dropped := (Decimal.digitText exact.digits).length - count
  let grid := 10 ^ dropped
  let below : Decimal := ⟨exact.digits / grid, exact.exponent + dropped⟩
  let above : Decimal := ⟨exact.digits / grid + 1, exact.exponent + dropped⟩
  if x.readsAs below then
    if x.readsAs above then
      if nearest exact.digits grid = below.digits then some below else some above
    else some below
  else if x.readsAs above then some above
  else none

def shortest (x : Binary F) : Decimal :=
  let length := (Decimal.digitText x.exact.digits).length
  let found := (List.range length).findSome? fun i => x.withDigits (i + 1)
  (found.getD x.exact).dropZeros length

end Espresso.Binary
