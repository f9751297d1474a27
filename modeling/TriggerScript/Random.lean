import TriggerScript.Random.Keystream

/-!
# Random draws

A generator is a key and a position in its keystream. Every draw takes words from the stream in
order; ranges are drawn by multiplying a word and rejecting the uneven tail.
-/

namespace TriggerScript

structure Rng where
  key : Key
  position : Nat := 0

namespace Rng

/-- One step of the congruential generator that spreads a seed over the key. -/
def seedStep (state : UInt64) : UInt64 := state * 6364136223846793005 + 11634580027462260723

def seedWord (state : UInt64) : UInt32 :=
  let x := ((state >>> 18 ^^^ state) >>> 27).toUInt32
  let r := (state >>> 59).toUInt32
  x >>> r ||| x <<< (32 - r)

def seedState (seed : UInt64) (n : Nat) : UInt64 := Nat.repeat seedStep n seed

/-- Generator of a seed: the key takes the words of the first eight seeding states. -/
def ofSeed (seed : UInt64) : Rng where
  key := Vector.ofFn fun i => seedWord (seedState seed (i + 1))

def nextWord (g : Rng) : UInt32 × Rng :=
  (Keystream.word g.key g.position, { g with position := g.position + 1 })

/-- Draws after which a range takes its word without further rejection. -/
def maxRejections : Nat := 128

/-- High half of the first product of a word with `range` whose low half is within `zone`. -/
def drawWithin (range zone : UInt32) : Nat → Rng → UInt32 × Rng
  | tries, g =>
      let (w, g) := g.nextWord
      let product := w.toUInt64 * range.toUInt64
      if product.toUInt32 ≤ zone then ((product >>> 32).toUInt32, g)
      else
        match tries with
        | 0 => ((product >>> 32).toUInt32, g)
        | tries + 1 => drawWithin range zone tries g

def leadingZeros (x : UInt32) : UInt32 := if x = 0 then 32 else 31 - UInt32.ofNat x.toNat.log2

/-- A word in `lo..hi`, ends included. -/
def inRange (lo hi : UInt32) (g : Rng) : UInt32 × Rng :=
  let range := hi - lo + 1
  if range = 0 then g.nextWord
  else
    let (offset, g) := drawWithin range ((range <<< leadingZeros range) - 1) maxRejections g
    (lo + offset, g)

/-- A word below `n`; words are rejected only where `n` does not divide their number. -/
def below (n : UInt32) (g : Rng) : UInt32 × Rng :=
  drawWithin n (0xFFFFFFFF - (0xFFFFFFFF - n + 1) % n) maxRejections g

/-- A word between `min` and `max`; a range of at most one word draws nothing. -/
def roll (min max : UInt32) (g : Rng) : UInt32 × Rng :=
  if min ≥ max then (min, g) else g.inRange min max

/-- One element of a list; an empty list draws nothing. -/
def choose {α : Type} (xs : List α) (g : Rng) : Option α × Rng :=
  match xs with
  | [] => (none, g)
  | _ :: _ =>
      let (i, g) := g.inRange 0 (UInt32.ofNat (xs.length - 1))
      (xs[i.toNat]?, g)

end Rng

end TriggerScript
