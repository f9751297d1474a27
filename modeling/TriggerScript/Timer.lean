import TriggerScript.Saturating

/-!
# Rule timers

A timer counts milliseconds up to the moment at which its rule is due.
-/

namespace TriggerScript

structure Timer where
  /-- Milliseconds since the timer was last set. -/
  elapsed : UInt32 := 0
  nextFireAt : UInt32 := 0
  /-- Set for a rule that fires once, after it fired. -/
  exhausted : Bool := false
deriving DecidableEq, Inhabited

namespace Timer

def dueIn (delay : UInt32) : Timer := { nextFireAt := delay }

def isDue (t : Timer) : Bool := !t.exhausted && t.elapsed ≥ t.nextFireAt

def advance (t : Timer) (deltaMs : UInt32) : Timer := { t with elapsed := addSat t.elapsed deltaMs }

@[simp] theorem nextFireAt_advance (t : Timer) (d : UInt32) :
    (t.advance d).nextFireAt = t.nextFireAt := rfl

@[simp] theorem exhausted_advance (t : Timer) (d : UInt32) :
    (t.advance d).exhausted = t.exhausted := rfl

end Timer

end TriggerScript
