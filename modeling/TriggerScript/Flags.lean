/-!
# Flag sets

Per-rule event flags, the flags of cast actions, and the instance difficulty they refer to.
-/

namespace TriggerScript

/-- Instance difficulty index; 0 to 3 are in use. -/
structure Difficulty where
  index : UInt8
deriving DecidableEq, Inhabited

structure EventFlags where
  bits : UInt16
deriving DecidableEq, Inhabited

namespace EventFlags

def none : EventFlags := ⟨0⟩
def notRepeatable : EventFlags := ⟨0x001⟩
def difficulty0 : EventFlags := ⟨0x002⟩
def difficulty1 : EventFlags := ⟨0x004⟩
def difficulty2 : EventFlags := ⟨0x008⟩
def difficulty3 : EventFlags := ⟨0x010⟩
def debugOnly : EventFlags := ⟨0x080⟩
def dontReset : EventFlags := ⟨0x100⟩
def whileCharmed : EventFlags := ⟨0x200⟩

/-- The set with these bits, unless an unknown bit is set. -/
def ofBits? (bits : UInt32) : Option EventFlags :=
  if bits &&& ~~~(0x39F : UInt32) = 0 then some ⟨bits.toUInt16⟩ else .none

def contains (flags other : EventFlags) : Bool := flags.bits &&& other.bits == other.bits

def union (flags other : EventFlags) : EventFlags := ⟨flags.bits ||| other.bits⟩

/-- Whether any of the four difficulty bits is set. -/
def isDifficultyRestricted (flags : EventFlags) : Bool := flags.bits &&& 0x01E != 0

/-- Unrestricted rules fire everywhere; restricted ones need a known difficulty whose bit is set. -/
def allowsDifficulty (flags : EventFlags) (difficulty : Option Difficulty) : Bool :=
  if flags.isDifficultyRestricted then
    match difficulty with
    | some d => d.index ≤ 3 && flags.bits &&& (0x002 <<< d.index.toUInt16) != 0
    | .none => false
  else true

end EventFlags

structure CastFlags where
  bits : UInt8
deriving DecidableEq, Inhabited

namespace CastFlags

def none : CastFlags := ⟨0⟩
def interruptPrevious : CastFlags := ⟨0x01⟩
def triggered : CastFlags := ⟨0x02⟩
def auraNotPresent : CastFlags := ⟨0x20⟩
def combatMove : CastFlags := ⟨0x40⟩

/-- The set with these bits, unless an unknown bit is set. -/
def ofBits? (bits : UInt32) : Option CastFlags :=
  if bits &&& ~~~(0x63 : UInt32) = 0 then some ⟨bits.toUInt8⟩ else .none

def contains (flags other : CastFlags) : Bool := flags.bits &&& other.bits == other.bits

def union (flags other : CastFlags) : CastFlags := ⟨flags.bits ||| other.bits⟩

end CastFlags

end TriggerScript
