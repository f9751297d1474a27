/-!
# Event phases

An entity is in one of the phases 1 to 12 or in none. Rules name sets of phases as masks: bit
`n - 1` stands for phase `n`.
-/

namespace TriggerScript

def maxPhase : UInt8 := 12

structure PhaseMask where
  bits : UInt16
deriving DecidableEq, Inhabited

namespace PhaseMask

def empty : PhaseMask := ⟨0⟩

def all : PhaseMask := ⟨0x0FFF⟩

/-- The mask with these bits, unless a bit beyond phase 12 is set. -/
def ofBits? (bits : UInt32) : Option PhaseMask :=
  if bits &&& ~~~(0x0FFF : UInt32) = 0 then some ⟨bits.toUInt16⟩ else none

/-- The mask of one phase; empty for 0 and for numbers beyond 12. -/
def single (phase : UInt8) : PhaseMask :=
  if phase = 0 ∨ phase > maxPhase then empty else ⟨1 <<< (phase - 1).toUInt16⟩

def isEmpty (m : PhaseMask) : Bool := m.bits == 0

def containsPhase (m : PhaseMask) (phase : UInt8) : Bool :=
  !(single phase).isEmpty && m.bits &&& (single phase).bits != 0

def intersects (m other : PhaseMask) : Bool := m.bits &&& other.bits != 0

/-- The phases in the mask, ascending. -/
def phases (m : PhaseMask) : List UInt8 :=
  [1, 2, 3, 4, 5, 6, 7, 8, 9, 10, 11, 12].filter m.containsPhase

/-- Lowest phase in the mask, 0 when empty. -/
def currentPhase (m : PhaseMask) : UInt8 := m.phases.headD 0

def text (m : PhaseMask) : String :=
  "\x7b" ++ ",".intercalate (m.phases.map fun p => toString p.toNat) ++ "\x7d"

@[simp] theorem isEmpty_empty : empty.isEmpty = true := rfl

@[simp] theorem intersects_empty (m : PhaseMask) : m.intersects empty = false := by
  simp [intersects, empty]

end PhaseMask

inductive PhaseGate where
  | always
  | phases (mask : PhaseMask)
deriving DecidableEq, Inhabited

/-- Whether a rule with this gate may fire in the phase `current`. -/
def PhaseGate.allows : PhaseGate → PhaseMask → Bool
  | .always, _ => true
  | .phases mask, current => mask.intersects current

theorem PhaseGate.allows_empty (g : PhaseGate) : g.allows PhaseMask.empty = true ↔ g = .always := by
  cases g <;> simp [PhaseGate.allows]

end TriggerScript
