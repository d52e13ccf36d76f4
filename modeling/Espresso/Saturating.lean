namespace Espresso

def greatestCount : Nat := 4294967295

def saturate (n : Nat) : UInt32 := UInt32.ofNat (min n greatestCount)

theorem toNat_saturate (n : Nat) : (saturate n).toNat = min n greatestCount := by
  rw [saturate, UInt32.toNat_ofNat', greatestCount]
  omega

def saturatingAdd (a b : UInt32) : UInt32 := saturate (a.toNat + b.toNat)

theorem toNat_saturatingAdd (a b : UInt32) :
    (saturatingAdd a b).toNat = min (a.toNat + b.toNat) greatestCount := toNat_saturate _

end Espresso
