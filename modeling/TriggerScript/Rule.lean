import TriggerScript.Action
import TriggerScript.Link
import TriggerScript.Phase

/-!
# Rules

A rule binds an event, with the gates that can veto it, to actions on targets.
-/

namespace TriggerScript

/-- Number of a rule, unique within its rule set. -/
abbrev RuleId := UInt32

structure EventSpec where
  event : Event
  phase : PhaseGate
  flags : EventFlags
  /-- Chance in percent to fire once the event holds. -/
  chance : UInt8
  cooldownMin : UInt32
  cooldownMax : UInt32
deriving DecidableEq, Inhabited

/-- One action of a rule. Without a target of its own it takes the target of the rule. -/
structure ActionStep where
  action : Action
  target : Option TargetDescriptor := none
deriving DecidableEq, Inhabited

structure Rule where
  link : Link
  id : RuleId
  spec : EventSpec
  actions : List ActionStep
  /-- Resolved once per firing for all steps without a target of their own. -/
  target : TargetDescriptor
  /-- Rule of the same set that fires after this one. -/
  linkTo : Option RuleId
  comment : String
deriving DecidableEq, Inhabited

namespace Rule

def event (r : Rule) : Event := r.spec.event

def flags (r : Rule) : EventFlags := r.spec.flags

def isPolled (r : Rule) : Bool := r.event.isPolled

def isRepeatable (r : Rule) : Bool := !r.flags.contains .notRepeatable

def survivesReset (r : Rule) : Bool := r.flags.contains .dontReset

/-- Link and number of a rule, with its comment in parentheses. -/
def label (r : Rule) : String :=
  let name := r.link.text ++ "#" ++ toString r.id.toNat
  if r.comment.isEmpty then name else name ++ " (" ++ r.comment ++ ")"

end Rule

end TriggerScript
