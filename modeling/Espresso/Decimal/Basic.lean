import Espresso.Binary.Arithmetic

namespace Espresso

structure Decimal where
  digits : Nat
  exponent : Int
  deriving DecidableEq, Repr

namespace Decimal

def digitText (n : Nat) : List Char := Nat.toDigits 10 n

def leading (d : Decimal) : Int := (digitText d.digits).length - 1 + d.exponent

def dropZeros (d : Decimal) : Nat → Decimal
  | 0 => d
  | fuel + 1 =>
    if d.digits ≠ 0 ∧ d.digits % 10 = 0 then dropZeros ⟨d.digits / 10, d.exponent + 1⟩ fuel else d

end Decimal

namespace Binary

variable {F : BinaryFormat}

/-- The exact absolute value of a finite float. The value is `m / 2 ^ j` in lowest terms, and
`m / 2 ^ j = m * 5 ^ j / 10 ^ j`. -/
def exact (x : Binary F) : Decimal :=
  let common := Nat.gcd x.units (2 ^ F.unitPower)
  let power := (2 ^ F.unitPower / common).log2
  ⟨x.units / common * 5 ^ power, -(power : Int)⟩

end Binary

end Espresso
