import TriggerScript.Random

/-!
# Random samples

A sample is a set of distinct numbers below a length. How it is drawn, and with it how many words
it takes from the stream, depends on its size: a small sample takes one number after the other out
of a growing range, a large one exchanges places when the length is short, and draws until a number
is new when the length is long. The order of a sample has no meaning.
-/

namespace TriggerScript.Rng

/-- Takes `count` further numbers. Each step draws a number up to `j`, and takes `j` itself when the
draw was taken before. -/
def takeRising (taken : List Nat) : (count : Nat) → (j : Nat) → Rng → List Nat × Rng
  | 0, _, g => (taken, g)
  | count + 1, j, g =>
      let (t, g) := g.inRange 0 (UInt32.ofNat j)
      let pick := if taken.contains t.toNat then j else t.toNat
      takeRising (taken ++ [pick]) count (j + 1) g

/-- The generator after the places up to `i` were shuffled, from the last one on. -/
def afterShuffle : (i : Nat) → Rng → Rng
  | 0, g => g
  | i + 1, g => afterShuffle i (g.inRange 0 (UInt32.ofNat (i + 1))).2

/-- Exchanges `count` places from `i` on, each with one that is not before it. -/
def exchange : (count : Nat) → (i : Nat) → Array Nat → Rng → Array Nat × Rng
  | 0, _, places, g => (places, g)
  | count + 1, i, places, g =>
      let (j, g) := g.inRange (UInt32.ofNat i) (UInt32.ofNat (places.size - 1))
      exchange count (i + 1) (places.swapIfInBounds i j.toNat) g

/-- A number below `length` that was not taken before; after too many tries, the least one. -/
def fresh (length : Nat) (taken : List Nat) : (tries : Nat) → Rng → Nat × Rng
  | 0, g => (((List.range length).find? (!taken.contains ·)).getD 0, g)
  | tries + 1, g =>
      let (t, g) := g.below (UInt32.ofNat length)
      if taken.contains t.toNat then fresh length taken tries g else (t.toNat, g)

/-- Takes `count` further numbers below `length`, each drawn until it is new. -/
def takeFresh (length : Nat) (taken : List Nat) : (count : Nat) → Rng → List Nat × Rng
  | 0, g => (taken, g)
  | count + 1, g =>
      let (t, g) := fresh length taken maxRejections g
      takeFresh length (taken ++ [t]) count g

/-- Whether a sample exchanges places, since its length is short for its size. -/
def isExchanged (length count : Nat) : Bool :=
  if count < 12 then false
  else if count < 163 then 5 * length < (50 + 8 * count) * count
  else if length < 500000 then length < 270 * count
  else 3 * length < 110 * count

/-- `count` distinct numbers below `length`. From 50 numbers on a growing range is shuffled in the
end, which shows in the words it takes alone. -/
def sample (length count : Nat) (g : Rng) : List Nat × Rng :=
  if isExchanged length count then
    let (places, g) := exchange count 0 (Array.range length) g
    (places.toList.take count, g)
  else if count < 163 then
    let (taken, g) := takeRising [] count (length - count) g
    (taken, if count < 50 then g else afterShuffle (count - 1) g)
  else takeFresh length [] count g

end TriggerScript.Rng
