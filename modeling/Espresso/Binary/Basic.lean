import Espresso.Power

/-!
Binary interchange floats as a sign and a magnitude. The magnitudes of a format are numbered in the
order of the values they stand for, so comparison is comparison of numbers.
-/

namespace Espresso

structure BinaryFormat where
  precision : Nat
  exponentBits : Nat
  deriving DecidableEq, Repr

namespace BinaryFormat

def single : BinaryFormat := ⟨24, 8⟩

def double : BinaryFormat := ⟨53, 11⟩

def fractionBits (F : BinaryFormat) : Nat := F.precision - 1

def magnitudeBits (F : BinaryFormat) : Nat := F.exponentBits + F.fractionBits

/-- The unit of a format, its least positive value, is `2` to minus this power. -/
def unitPower (F : BinaryFormat) : Nat := 2 ^ (F.exponentBits - 1) - 2 + F.fractionBits

/-- The magnitude of infinity; larger magnitudes are no numbers. -/
def infinity (F : BinaryFormat) : Nat := (2 ^ F.exponentBits - 1) * 2 ^ F.fractionBits

theorem infinity_lt (F : BinaryFormat) : F.infinity < 2 ^ F.magnitudeBits := by
  have hf : 0 < 2 ^ F.fractionBits := Nat.two_pow_pos _
  have he : 0 < 2 ^ F.exponentBits := Nat.two_pow_pos _
  rw [infinity, magnitudeBits, Nat.pow_add]
  exact Nat.mul_lt_mul_of_pos_right (by omega) hf

end BinaryFormat

structure Binary (F : BinaryFormat) where
  negative : Bool
  magnitude : Nat
  magnitude_lt : magnitude < 2 ^ F.magnitudeBits
  deriving DecidableEq

abbrev Single := Binary .single

abbrev Double := Binary .double

namespace Binary

variable {F : BinaryFormat}

instance : Inhabited (Binary F) := ⟨⟨false, 0, Nat.two_pow_pos _⟩⟩

def zero : Binary F := ⟨false, 0, Nat.two_pow_pos _⟩

def signedZero (negative : Bool) : Binary F := ⟨negative, 0, Nat.two_pow_pos _⟩

def infinite (negative : Bool) : Binary F := ⟨negative, F.infinity, F.infinity_lt⟩

def ofBits (bits : Nat) : Binary F where
  negative := bits / 2 ^ F.magnitudeBits % 2 = 1
  magnitude := bits % 2 ^ F.magnitudeBits
  magnitude_lt := Nat.mod_lt _ (Nat.two_pow_pos _)

def toBits (x : Binary F) : Nat := x.negative.toNat * 2 ^ F.magnitudeBits + x.magnitude

theorem ofBits_toBits (x : Binary F) : ofBits x.toBits = x := by
  obtain ⟨s, m, h⟩ := x
  have hd : (s.toNat * 2 ^ F.magnitudeBits + m) / 2 ^ F.magnitudeBits = s.toNat := by
    rw [Nat.mul_comm, Nat.mul_add_div (Nat.two_pow_pos _), Nat.div_eq_of_lt h, Nat.add_zero]
  have hm : (s.toNat * 2 ^ F.magnitudeBits + m) % 2 ^ F.magnitudeBits = m := by
    rw [Nat.mul_comm, Nat.mul_add_mod, Nat.mod_eq_of_lt h]
  simp only [ofBits, toBits, hd, hm, mk.injEq, and_true]
  cases s <;> rfl

theorem toBits_lt (x : Binary F) : x.toBits < 2 ^ (F.magnitudeBits + 1) := by
  have h := x.magnitude_lt
  rw [toBits, Nat.pow_succ]
  cases x.negative <;> simp <;> omega

theorem toBits_ofBits {n : Nat} (h : n < 2 ^ (F.magnitudeBits + 1)) :
    (ofBits n : Binary F).toBits = n := by
  have hq : n / 2 ^ F.magnitudeBits < 2 :=
    Nat.div_lt_of_lt_mul (by rw [Nat.pow_succ] at h; exact h)
  have hd := Nat.div_add_mod n (2 ^ F.magnitudeBits)
  rw [toBits, ofBits]
  rcases Nat.lt_or_ge (n / 2 ^ F.magnitudeBits) 1 with h0 | h1
  · rw [Nat.lt_one_iff.mp h0] at hd ⊢
    simpa using hd
  · rw [Nat.le_antisymm (Nat.lt_succ_iff.mp hq) h1] at hd ⊢
    simpa using hd

def isNaN (x : Binary F) : Bool := F.infinity < x.magnitude

def isInfinite (x : Binary F) : Bool := x.magnitude = F.infinity

def isFinite (x : Binary F) : Bool := x.magnitude < F.infinity

def isZero (x : Binary F) : Bool := x.magnitude = 0

def neg (x : Binary F) : Binary F := { x with negative := !x.negative }

def place (x : Binary F) : Int := if x.negative then -(x.magnitude : Int) else x.magnitude

def same (x y : Binary F) : Bool := !x.isNaN && !y.isNaN && x.place = y.place

def lt (x y : Binary F) : Bool := !x.isNaN && !y.isNaN && x.place < y.place

def le (x y : Binary F) : Bool := !x.isNaN && !y.isNaN && x.place ≤ y.place

def within (lo hi x : Binary F) : Bool := lo.le x && x.le hi

end Binary

end Espresso
