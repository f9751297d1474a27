import TriggerScript.Link

/-!
# Rule findings

Why a table row is rejected or flagged, with the text shown for each cause.
-/

namespace TriggerScript

/-- Hexadecimal with lower-case digits and a `0x` mark. -/
def hexText (n : Nat) : String := "0x" ++ String.ofList (Nat.toDigits 16 n)

/-- What is wrong with the parameters of an event, action or target kind. -/
inductive ParamFault where
  | minAboveMax (min max : UInt32)
  | distanceMinAboveMax (min max : UInt32)
  | maxAbovePercent (max : UInt32)
  | hostilityMode (mode : UInt32)
  | phaseMask (bits : UInt32)
  | guidOrEntryMissing
  | reactState (state : UInt32)
  | noEmotes
  | phaseTooHigh (phase : UInt32)
  | oneDirection
  | noPhases
  | percentTooHigh
  | counterReserved
  | chanceTooHigh (chance : UInt32)
  | updateMode (mode : UInt32)
  | noLists
deriving DecidableEq

def ParamFault.message : ParamFault → String
  | minAboveMax min max => "min " ++ toString min.toNat ++ " exceeds max " ++ toString max.toNat
  | distanceMinAboveMax min max =>
      "min distance " ++ toString min.toNat ++ " exceeds max distance " ++ toString max.toNat
  | maxAbovePercent max => "max " ++ toString max.toNat ++ " exceeds 100%"
  | hostilityMode mode => "hostility mode " ++ toString mode.toNat ++ " is not 0, 1 or 2"
  | phaseMask bits => "phase mask " ++ hexText bits.toNat ++ " is empty or exceeds phase 12"
  | guidOrEntryMissing => "either guid or entry must be set"
  | reactState state => "react state " ++ toString state.toNat ++ " is not 0..=2"
  | noEmotes => "no emotes given"
  | phaseTooHigh phase => "phase " ++ toString phase.toNat ++ " exceeds 12"
  | oneDirection => "exactly one of increment or decrement must be set"
  | noPhases => "no phases given"
  | percentTooHigh => "percent exceeds 100"
  | counterReserved => "counter id 0 is reserved"
  | chanceTooHigh chance => "chance " ++ toString chance.toNat ++ " exceeds 100"
  | updateMode mode => "update mode " ++ toString mode.toNat ++ " is not 0, 1 or 2"
  | noLists => "no lists given"

/-- Causes up to `timedListStepNotUpdate` reject a row; the later ones only flag it. -/
inductive RuleError where
  | unknownSourceType (id : UInt32)
  | unknownEventKind (kind : UInt32)
  | unknownActionKind (kind : UInt32)
  | unknownTargetKind (kind : UInt32)
  | zeroPhaseMask
  | phaseMaskOutOfRange (mask : Int64)
  | invalidPhaseKeyword (word : String)
  | cooldownInverted (min max : UInt32)
  | chanceOutOfRange (chance : UInt32)
  | unknownEventFlags (bits : UInt32)
  | unknownCastFlags (bits : UInt32)
  | invalidParam (kind : String) (fault : ParamFault)
  | duplicateRuleId
  | orphanContinuation
  | continuationSetsEventField (column : String)
  | eventNotValidForSource (event : String) (source : SourceType)
  | timedListStepNotUpdate (event : String)
  | missingLinkTarget (id : UInt32)
  | linkCycle (id : UInt32)
  | noTargetForTargetedAction (action : String)
  | debugOnlyRule
deriving DecidableEq

def RuleError.message : RuleError → String
  | unknownSourceType id => "unknown source type " ++ toString id.toNat
  | unknownEventKind kind => "unknown event kind " ++ toString kind.toNat
  | unknownActionKind kind => "unknown action kind " ++ toString kind.toNat
  | unknownTargetKind kind => "unknown target kind " ++ toString kind.toNat
  | zeroPhaseMask => "event phase mask must not be zero (use \"always\")"
  | phaseMaskOutOfRange mask =>
      "event phase mask " ++ hexText mask.toUInt64.toNat ++ " sets bits beyond phase 12"
  | invalidPhaseKeyword word => "unrecognized event phase mask keyword '" ++ word ++ "'"
  | cooldownInverted min max =>
      "cooldown_min " ++ toString min.toNat ++ " exceeds cooldown_max " ++ toString max.toNat
  | chanceOutOfRange chance => "event chance " ++ toString chance.toNat ++ " exceeds 100"
  | unknownEventFlags bits => "unknown event flag bits " ++ hexText bits.toNat
  | unknownCastFlags bits => "unknown cast flag bits " ++ hexText bits.toNat
  | invalidParam kind fault => "invalid parameters for " ++ kind ++ ": " ++ fault.message
  | duplicateRuleId => "duplicate rule id"
  | orphanContinuation =>
      "continuation row does not follow a rule with the same entry and id"
  | continuationSetsEventField column => "continuation row must not set " ++ column
  | eventNotValidForSource event source =>
      "event " ++ event ++ " cannot be used by " ++ source.title ++ " scripts"
  | timedListStepNotUpdate event =>
      "timed action list step uses " ++ event ++ "; steps must use an update event"
  | missingLinkTarget id => "link target " ++ toString id.toNat ++ " does not exist; link dropped"
  | linkCycle id => "link chain starting here loops back through rule " ++ toString id.toNat
  | noTargetForTargetedAction action =>
      "action " ++ action ++ " needs targets but the rule targets nothing"
  | debugOnlyRule => "rule only fires when debug rules are enabled"

end TriggerScript
