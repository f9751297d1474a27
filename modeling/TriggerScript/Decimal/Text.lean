import TriggerScript.Decimal.Shortest

/-!
# Number texts

Numbers as listings show them: with the fewest digits that read back, or with a fixed number of
decimal places.
-/

namespace TriggerScript

namespace Decimal

def zeros (n : Nat) : List Char := List.replicate n '0'

/-- All digits around a point, at least one on either side. -/
def positional (d : Decimal) : String :=
  let digits := Nat.toDigits 10 d.digits
  if 0 ≤ d.exponent then .ofList (digits ++ zeros d.exponent.toNat ++ ['.', '0'])
  else
    let places := (-d.exponent).toNat
    let digits := zeros (places + 1 - digits.length) ++ digits
    .ofList (digits.take (digits.length - places) ++ '.' :: digits.drop (digits.length - places))

/-- One digit, the others behind a point if there are any, and the power of ten. -/
def scientific (d : Decimal) : String :=
  let digits := Nat.toDigits 10 d.digits
  let fraction := if digits.length = 1 then [] else '.' :: digits.tail
  .ofList (digits.take 1 ++ fraction ++ ['e']) ++ toString (d.exponent + (digits.length - 1))

end Decimal

namespace Single

/-- The text of a number from the text of its size. -/
def signed (x : Float32) (size : String) : String := if isNegative x then "-" ++ size else size

def special? (x : Float32) : Option String :=
  if x.isNaN then some "NaN" else if x.isInf then some (signed x "inf") else none

/-- Very large and very small numbers are written with a power of ten. -/
def isScientific (x : Float32) : Bool := x.abs ≥ 1e16 || (units x != 0 && x.abs < 1e-4)

def text (x : Float32) : String :=
  (special? x).getD (signed x
    (if isScientific x then (shortest x).scientific else (shortest x).positional))

/-- A quotient rounded to the nearest whole number, a half to the even one. -/
def roundDiv (num den : Nat) : Nat :=
  let (quotient, rest) := (num / den, 2 * (num % den))
  if rest < den ∨ rest = den ∧ quotient % 2 = 0 then quotient else quotient + 1

def tenthsText (x : Float32) : String :=
  (special? x).getD (signed x (Decimal.positional ⟨roundDiv (units x * 10) (1 <<< 149), -1⟩))

end Single

end TriggerScript
