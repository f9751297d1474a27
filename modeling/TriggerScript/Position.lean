/-!
# Positions

Points in the world with a facing, in single precision. Angles are radians in `[0, 2π)`.
-/

namespace TriggerScript

structure Position where
  x : Float32
  y : Float32
  z : Float32
  o : Float32
deriving DecidableEq

namespace Position

def origin : Position := ⟨0.0, 0.0, 0.0, 0.0⟩

instance : Inhabited Position := ⟨origin⟩

/-- Full turn, nearest single-precision value. -/
def fullTurn : Float32 := Float32.ofBits 0x40C90FDB

def halfTurn : Float32 := Float32.ofBits 0x40490FDB

def quarterTurn : Float32 := Float32.ofBits 0x3FC90FDB

/-- Distance in three dimensions; the facing plays no part. -/
def distance (a b : Position) : Float32 :=
  let dx := a.x - b.x
  let dy := a.y - b.y
  let dz := a.z - b.z
  (dx * dx + dy * dy + dz * dz).sqrt

/-- Direction from `a` to `b`. -/
def angleTo (a b : Position) : Float32 :=
  let angle := Float32.atan2 (b.y - a.y) (b.x - a.x)
  if angle < 0.0 then angle + fullTurn else angle

/-- Whether `b` lies in the half-plane behind the facing of `a`: the direction from `b` to `a`
is then within a quarter turn of that facing. -/
def isBehind (a b : Position) : Bool :=
  let delta := (b.angleTo a - a.o).abs
  let delta := if delta > halfTurn then fullTurn - delta else delta
  delta < quarterTurn

end Position

end TriggerScript
