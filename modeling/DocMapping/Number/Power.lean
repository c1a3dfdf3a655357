/-!
# Powers

Powers of whole numbers are those of the core library here, also in modules that see the powers of
monoids, so that a width such as `2 ^ 128` is the same number wherever it is written.
-/

namespace DocMapping

@[default_instance 20000]
instance (priority := 2000) powOfNatPow {α : Type} [NatPow α] : Pow α Nat := instPowNat

/-- The number of the lowest bits of another one. -/
def lowBits (width number : Nat) : Fin (2 ^ width) := Fin.ofNat (2 ^ width) number

@[simp] theorem val_lowBits (width number : Nat) :
    (lowBits width number).val = number % 2 ^ width := rfl

end DocMapping
