/-!
# Rounding modes

A floating-point instruction carries a three-bit rounding mode.
-/

namespace RiscV.RoundingMode

/-- The mode that defers to the dynamic rounding mode register. -/
def dynamic : Nat := 7

/-- The names of the modes, in order. -/
def names : List String := ["rne", "rtz", "rdn", "rup", "rmm", "rm5", "rm6", "dyn"]

/-- The name of a mode. -/
def name (mode : Nat) : String := names[mode]?.getD "rm?"

end RiscV.RoundingMode
