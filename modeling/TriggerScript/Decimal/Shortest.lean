import TriggerScript.Decimal

/-!
# Shortest decimals

A finite single-precision number is a whole number of units of 2⁻¹⁴⁹, so everything about its
decimals is decided on natural numbers. The shortest decimal of a number is the one on the
coarsest grid of powers of ten that still rounds to the number.
-/

namespace TriggerScript.Single

def exponentBits (x : Float32) : Nat := x.toBits.toNat / 0x800000 % 0x100

def fractionBits (x : Float32) : Nat := x.toBits.toNat % 0x800000

def isNegative (x : Float32) : Bool := x.toBits.toNat / 0x80000000 == 1

/-- Units between a finite number and the next one away from zero. -/
def gap (x : Float32) : Nat := 1 <<< (exponentBits x - 1)

/-- Size of a finite number in units. Numbers without exponent bits have no leading one. -/
def units (x : Float32) : Nat :=
  (if exponentBits x = 0 then fractionBits x else 0x800000 + fractionBits x) * gap x

/-- The sizes that round to a number, in quarters of a unit. -/
structure Interval where
  low : Nat
  high : Nat
  /-- Whether the ends round to the number too. -/
  closed : Bool
deriving DecidableEq

/-- Halfway to both neighbours. Below a power of two the numbers lie twice as close, and the ends
go to the number with the even fraction. -/
def interval (x : Float32) : Interval where
  low := 4 * units x - if fractionBits x = 0 ∧ exponentBits x > 1 then gap x else 2 * gap x
  high := 4 * units x + 2 * gap x
  closed := fractionBits x % 2 == 0

def Interval.contains (i : Interval) (d : Decimal) : Bool :=
  let size := d.digits * Nat.pow 10 d.exponent.toNat <<< 151
  let scale := Nat.pow 10 (-d.exponent).toNat
  if i.closed then i.low * scale ≤ size && size ≤ i.high * scale
  else i.low * scale < size && size < i.high * scale

/-- The decimal on a grid that rounds to the number, of two the nearer and of equally near ones the
greater. Only the neighbours of the number on the grid come into question. -/
def onGrid? (x : Float32) (exponent : Int) : Option Decimal :=
  let size := units x * Nat.pow 10 (-exponent).toNat
  let step := Nat.pow 10 exponent.toNat <<< 149
  let below : Decimal := ⟨size / step, exponent⟩
  let above : Decimal := ⟨size / step + 1, exponent⟩
  match (interval x).contains below, (interval x).contains above with
  | true, true => some (if 2 * (size % step) < step then below else above)
  | true, false => some below
  | false, true => some above
  | false, false => none

/-- Grids on which single-precision numbers can end, the coarsest first. -/
def grids : List Int := (List.range 90).map fun (i : Nat) => (39 : Int) - i

/-- The decimal with the fewest digits that rounds to a finite number; the sign is left out. -/
def shortest (x : Float32) : Decimal :=
  if units x = 0 then ⟨0, 0⟩ else (grids.findSome? (onGrid? x)).getD ⟨0, 0⟩

end TriggerScript.Single
