import TriggerScript.Action.Decode
import TriggerScript.Event.Decode
import TriggerScript.Row
import TriggerScript.Rule
import TriggerScript.Target.Decode

/-!
# Decoding rows

A head row is decoded into a rule with its first action, a continuation row into one more action.
The columns are checked in a fixed order, and the first fault is the one reported.
-/

namespace TriggerScript

/-- The phase gate of a column: no mask, or the keyword `always` in any case, lets every phase
pass. -/
def PhaseGate.decode : Option PhaseColumn → Except RuleError PhaseGate
  | none => .ok .always
  | some (.keyword word) =>
      if word.toLower = "always" then .ok .always else .error (.invalidPhaseKeyword word)
  | some (.mask bits) =>
      if bits = 0 then .error .zeroPhaseMask
      else
        let mask :=
          if 0 ≤ bits ∧ bits < 0x100000000 then PhaseMask.ofBits? bits.toUInt64.toUInt32 else none
        match mask with
        | some mask => .ok (.phases mask)
        | none => .error (.phaseMaskOutOfRange bits)

namespace Row

def decodeAction (r : Row) : Except RuleError Action :=
  let p := r.actionParams
  Action.decode r.actionKind p[0] p[1] p[2] p[3] p[4] p[5]

def decodeTarget (r : Row) : Except RuleError TargetDescriptor := do
  let p := r.targetParams
  .ok { target := ← Target.decode r.targetKind p[0] p[1] p[2] p[3], literal := r.literal }

def decodeEvent (r : Row) : Except RuleError Event :=
  match r.eventKind with
  | none => .error .orphanContinuation
  | some kind =>
      let p := r.eventParams
      Event.decode kind p[0] p[1] p[2] p[3]

/-- Steps of timed action lists are timers; elsewhere the domain has to be in the scope of the
event. -/
def checkScope (source : SourceType) (event : Event) : Except RuleError Unit :=
  if source = .timedActionList then
    if event.isUpdate then .ok () else .error (.timedListStepNotUpdate event.name)
  else if event.scope.contains (.of source) then .ok ()
  else .error (.eventNotValidForSource event.name source)

/-- The event half of a head row in the domain `source`. -/
def decodeSpec (r : Row) (source : SourceType) : Except RuleError EventSpec := do
  let event ← r.decodeEvent
  let phase ← PhaseGate.decode r.phase
  let rawFlags := r.flags.getD 0
  let flags ← match EventFlags.ofBits? rawFlags with
    | some flags => .ok flags
    | none => .error (.unknownEventFlags rawFlags)
  let chance := r.chance.getD 100
  if chance > 100 then .error (.chanceOutOfRange chance)
  let cooldownMin := r.cooldownMin.getD 0
  let cooldownMax := r.cooldownMax.getD cooldownMin
  if cooldownMin > cooldownMax then .error (.cooldownInverted cooldownMin cooldownMax)
  checkScope source event
  .ok { event, phase, flags, chance := chance.toUInt8, cooldownMin, cooldownMax }

def decodeRule (r : Row) : Except RuleError Rule := do
  let source ← match SourceType.ofId? r.sourceType with
    | some source => .ok source
    | none => .error (.unknownSourceType r.sourceType)
  let spec ← r.decodeSpec source
  let action ← r.decodeAction
  let target ← r.decodeTarget
  .ok
    { link := ⟨r.entry, source⟩
      id := r.id
      spec
      actions := [{ action }]
      target
      linkTo := r.linkTo.filter (· != 0)
      comment := r.comment }

/-- The action of a continuation row. Target kind 0 leaves it the target of the rule. -/
def decodeContinuation (r : Row) : Except RuleError ActionStep := do
  match r.firstEventColumn? with
  | some column => .error (.continuationSetsEventField column)
  | none =>
      let action ← r.decodeAction
      if r.targetKind = 0 then .ok { action }
      else do .ok { action, target := some (← r.decodeTarget) }

end Row

/-- The finding about an action that needs targets and is given none. -/
def ActionStep.untargeted? (step : ActionStep) (shared : TargetDescriptor) : Option RuleError :=
  if step.action.needsTargets ∧ (step.target.getD shared).isNone then
    some (.noTargetForTargetedAction step.action.name)
  else none

def Rule.warnings (r : Rule) : List RuleError :=
  (if r.flags.contains .debugOnly then [.debugOnlyRule] else []) ++
    (r.actions.head?.bind (·.untargeted? r.target)).toList

end TriggerScript
