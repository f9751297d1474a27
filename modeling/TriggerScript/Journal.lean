import TriggerScript.Rule
import TriggerScript.Signal

/-!
# Journals

What happens while a script runs is noted in order. The rules that fired are read off the journal.
-/

namespace TriggerScript

structure Fired where
  link : Link
  ruleId : RuleId
  /-- Number of links through which the rule was reached. -/
  depth : Nat
  /-- Commands that the world accepted. -/
  commands : Nat
deriving DecidableEq

inductive Incident where
  /-- A signal was handed to the pushed rules. -/
  | heard (signal : Signal)
  /-- The own rules took their turns, with the phase and the combat state at that time. -/
  | polled (deltaMs : UInt32) (phase : PhaseMask) (inCombat : Bool)
  /-- A running timed action list took its turn, with the steps that were due. -/
  | resumed (listId : UInt32) (due : List Nat)
  | fired (rule : Rule) (depth commands : Nat)
  /-- The script went back to its spawn state. -/
  | reset
  | despawned
deriving DecidableEq

namespace Incident

def record? : Incident → Option Fired
  | fired rule depth commands => some { link := rule.link, ruleId := rule.id, depth, commands }
  | _ => none

def signal? : Incident → Option Signal
  | heard signal => some signal
  | _ => none

end Incident

end TriggerScript
