import TriggerScript.Random
import TriggerScript.ScriptState
import TriggerScript.Store

/-!
# Timed action lists

The steps of a timed action list run one after another, each after a delay of its own. A runner
keeps the clock of one list; time left over from a step counts for the next one.
-/

namespace TriggerScript

structure ListRunner where
  listId : UInt32
  rules : RuleSet
  cursor : Nat := 0
  elapsed : UInt32 := 0
  nextDelay : UInt32 := 0
  mode : CombatGate
  invoker : Option Handle

namespace ListRunner

def isFinished (r : ListRunner) : Bool := r.cursor ≥ r.rules.size

/-- Range of the delay of the next step; no delay after the last one. -/
def delayRange (r : ListRunner) : UInt32 × UInt32 :=
  (r.rules.rules[r.cursor]?.bind (·.event.initialTimer)).getD (0, 0)

def rollDelay (r : ListRunner) (g : Rng) : ListRunner × Rng :=
  let (delay, g) := g.roll r.delayRange.1 r.delayRange.2
  ({ r with nextDelay := delay }, g)

/-- A runner before the first step of a list. -/
def start (request : ListRequest) (rules : RuleSet) (g : Rng) : ListRunner × Rng :=
  rollDelay { listId := request.listId, rules, mode := request.mode, invoker := request.invoker } g

/-- Take up to `steps` steps that are due; the indices of the steps come in order. -/
def takeDue : (steps : Nat) → ListRunner → Rng → List Nat × ListRunner × Rng
  | 0, r, g => ([], r, g)
  | steps + 1, r, g =>
      if r.elapsed < r.nextDelay then ([], r, g)
      else
        let (r', g) :=
          rollDelay { r with elapsed := r.elapsed - r.nextDelay, cursor := r.cursor + 1 } g
        let (due, rest) := takeDue steps r' g
        (r.cursor :: due, rest)

/-- Advance the clock and take the steps that are due. A list whose combat mode does not hold is
paused. -/
def advance (r : ListRunner) (deltaMs : UInt32) (inCombat : Bool) (g : Rng) :
    List Nat × ListRunner × Rng :=
  if r.mode.allows inCombat then
    takeDue (r.rules.size - r.cursor) { r with elapsed := addSat r.elapsed deltaMs } g
  else ([], r, g)

end ListRunner

end TriggerScript
