/-!
# Decimal numbers

A decimal is a whole number scaled by a power of ten. Its nearest binary number is taken exactly,
whatever the length of the digits.
-/

namespace TriggerScript

structure Decimal where
  digits : Nat
  exponent : Int
deriving DecidableEq

def digitsValue (cs : List Char) : Nat := cs.foldl (fun n c => n * 10 + (c.toNat - '0'.toNat)) 0

namespace Decimal

/-- The decimal written as whole digits, fraction digits and an exponent. -/
def ofParts (whole fraction : List Char) (exponent : Int) : Decimal :=
  ⟨digitsValue (whole ++ fraction), exponent - fraction.length⟩

/-- Power of ten of the first digit. Beyond ±400 every binary format overflows or underflows, so
the value itself is not worked out there. -/
def magnitude (d : Decimal) : Int := (Nat.toDigits 10 d.digits).length + d.exponent

def toFloat (d : Decimal) : Float :=
  if d.digits = 0 ∨ d.magnitude < -400 then 0.0
  else if d.magnitude > 400 then 1.0 / 0.0
  else Float.ofScientific d.digits (d.exponent < 0) d.exponent.natAbs

def toFloat32 (d : Decimal) : Float32 :=
  if d.digits = 0 ∨ d.magnitude < -400 then 0.0
  else if d.magnitude > 400 then 1.0 / 0.0
  else Float32.ofScientific d.digits (d.exponent < 0) d.exponent.natAbs

end Decimal

end TriggerScript
