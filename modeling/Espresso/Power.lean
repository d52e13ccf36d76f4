namespace Espresso

/-- Powers are those of the natural numbers themselves, not those of a more general structure. -/
instance (priority := 10000) natPower : Pow Nat Nat := instPowNat

end Espresso
