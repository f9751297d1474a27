import TriggerScript.Rule
import TriggerScript.Signal
import TriggerScript.Timer

/-!
# Script state

What the script of an entity remembers between passes. Actions stage their changes; a commit at
the end of the pass makes them visible and raises the signals that other rules react to.
-/

namespace TriggerScript

/-- An event that a script scheduled for itself. -/
structure TimedEvent where
  elapsed : UInt32
  nextFireAt : UInt32
  /-- Range of the further delays; none for an event that comes once. -/
  repeats : Option (UInt32 × UInt32)
  chance : UInt32
deriving DecidableEq, Inhabited

inductive TimedEventOp where
  | create (id : UInt32) (event : TimedEvent)
  /-- Makes the event due in the next pass. -/
  | trigger (id : UInt32)
  | remove (id : UInt32)
deriving DecidableEq

/-- Request to start a timed action list, or to start it over. -/
structure ListRequest where
  listId : UInt32
  mode : CombatGate
  allowOverride : Bool
  invoker : Option Handle
deriving DecidableEq

structure CounterOp where
  counter : UInt32
  value : UInt32
  /-- Set the counter instead of adding to it. -/
  reset : Bool
deriving DecidableEq

/-- Changes that wait for the end of the pass. -/
structure Staged where
  phase : Option PhaseMask := none
  counters : List CounterOp := []
  timedEvents : List TimedEventOp := []
  lists : List ListRequest := []
  reset : Bool := false
deriving DecidableEq

def Staged.isEmpty (s : Staged) : Bool :=
  s.phase.isNone && s.counters.isEmpty && s.timedEvents.isEmpty && s.lists.isEmpty && !s.reset

structure ScriptState where
  phase : PhaseMask := .empty
  timers : Std.ExtTreeMap RuleId Timer := ∅
  /-- Rules that fired and may fire only once. -/
  firedOnce : Std.ExtTreeMap RuleId Unit := ∅
  counters : Std.ExtTreeMap UInt32 UInt32 := ∅
  /-- Stored targets; their handles may have gone stale. -/
  stored : Std.ExtTreeMap UInt32 (List Handle) := ∅
  timedEvents : Std.ExtTreeMap UInt32 TimedEvent := ∅
  staged : Staged := {}
  /-- Signals raised by the last commit, for the next pass. -/
  deferred : List Signal := []

def CounterOp.apply (op : CounterOp) (current : UInt32) : UInt32 :=
  if op.reset then op.value else addSat current op.value

def TimedEventOp.apply (events : Std.ExtTreeMap UInt32 TimedEvent) :
    TimedEventOp → Std.ExtTreeMap UInt32 TimedEvent
  | create id event => events.insert id event
  | trigger id => events.modify id fun e => { e with elapsed := e.nextFireAt }
  | remove id => events.erase id

namespace ScriptState

/-- Value of a counter, 0 until it is set. -/
def counter (s : ScriptState) (id : UInt32) : UInt32 := s.counters.getD id 0

/-- The phase that the next commit leads to. -/
def pendingPhase (s : ScriptState) : PhaseMask := s.staged.phase.getD s.phase

/-- Enter a phase and raise its signal, unless it is the current one. -/
def commitPhase (s : ScriptState) (phase : Option PhaseMask) : ScriptState :=
  match phase with
  | none => s
  | some phase =>
      if phase = s.phase then s
      else { s with phase, deferred := s.deferred ++ [.eventPhaseChange phase] }

/-- Change a counter and raise the signal of its new value. -/
def commitCounter (s : ScriptState) (op : CounterOp) : ScriptState :=
  let value := op.apply (s.counter op.counter)
  { s with
    counters := s.counters.insert op.counter value
    deferred := s.deferred ++ [.counterSet op.counter value] }

/-- Carry out the staged changes of phase, counters and timed events, in this order. The requests
for lists and for a reset stay with the caller. -/
def commit (s : ScriptState) : ScriptState :=
  let staged := s.staged
  let s := { s with staged := {} }.commitPhase staged.phase
  let s := staged.counters.foldl commitCounter s
  { s with timedEvents := staged.timedEvents.foldl TimedEventOp.apply s.timedEvents }

/-- Forget phase, counters, timed events and everything that waits. -/
def clearVolatile (s : ScriptState) : ScriptState :=
  { s with phase := .empty, counters := ∅, timedEvents := ∅, staged := {}, deferred := [] }

def stage (s : ScriptState) (change : Staged → Staged) : ScriptState :=
  { s with staged := change s.staged }

end ScriptState

end TriggerScript
