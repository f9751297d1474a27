import TriggerScript.Position

/-!
# Entities

Handles name live world entities. They are weak: the entity may be gone when a handle is used.
-/

namespace TriggerScript

abbrev Handle := UInt64

def Handle.text (h : Handle) : String := "#" ++ toString h.toNat

inductive EntityKind where
  | creature
  | gameObject
  | player
  | areaTrigger
deriving DecidableEq, Inhabited

/-- Players and creatures are units; objects and triggers are not. -/
def EntityKind.isUnit : EntityKind → Bool
  | .creature | .player => true
  | .gameObject | .areaTrigger => false

structure EntityInfo where
  handle : Handle
  entry : UInt32
  kind : EntityKind
  position : Position
  alive : Bool
  health : UInt32
  maxHealth : UInt32
  power : UInt32
  maxPower : UInt32
deriving DecidableEq, Inhabited

/-- Share of `value` in `max` in whole percents, rounded down and cut to a word; 0 when `max`
is 0. -/
def percent (value max : UInt32) : UInt32 :=
  if max = 0 then 0 else UInt32.ofNat (value.toNat * 100 / max.toNat)

namespace EntityInfo

def healthPct (e : EntityInfo) : UInt32 := percent e.health e.maxHealth

def powerPct (e : EntityInfo) : UInt32 := percent e.power e.maxPower

/-- Health missing up to the maximum, 0 above it. -/
def healthDeficit (e : EntityInfo) : UInt32 :=
  if e.health ≤ e.maxHealth then e.maxHealth - e.health else 0

def isPlayer (e : EntityInfo) : Bool := e.kind == .player

end EntityInfo

end TriggerScript
