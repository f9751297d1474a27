import TriggerScript.Action
import TriggerScript.Target.Decode

/-!
# Decoding actions

A table row gives an action as a kind number and up to six words.
-/

namespace TriggerScript

def decodePhase (kind : String) (raw : UInt32) : Except RuleError UInt8 :=
  if raw > 12 then .error (.invalidParam kind (.phaseTooHigh raw)) else .ok raw.toUInt8

def CastFlags.decode (raw : UInt32) : Except RuleError CastFlags :=
  match CastFlags.ofBits? raw with
  | some flags => .ok flags
  | .none => .error (.unknownCastFlags raw)

def checkOrdered (kind : String) (min max : UInt32) : Except RuleError Unit :=
  if min > max then .error (.invalidParam kind (.minAboveMax min max)) else .ok ()

/-- Update mode of a called timed action list. -/
def CombatGate.decode (mode : UInt32) : Except RuleError CombatGate :=
  match mode with
  | 0 => .ok .outOfCombat
  | 1 => .ok .inCombat
  | 2 => .ok .any
  | mode => .error (.invalidParam "call_timed_action_list" (.updateMode mode))

/-- The words other than 0, or the given fault when there are none. -/
def decodeChoices (kind : String) (fault : ParamFault) (words : List UInt32) :
    Except RuleError (List UInt32) :=
  match words.filter (· != 0) with
  | [] => .error (.invalidParam kind fault)
  | chosen => .ok chosen

def Action.decode (kind p1 p2 p3 p4 p5 p6 : UInt32) : Except RuleError Action :=
  match kind with
  | 0 => .ok .none
  | 1 => .ok (.talk p1 p2 (p3 != 0))
  | 2 => .ok (.setFaction p1)
  | 3 => .ok (.morphToEntryOrModel p1 p2)
  | 4 => .ok (.sound p1 (p2 != 0))
  | 5 => .ok (.playEmote p1)
  | 6 => .ok (.failQuest p1)
  | 7 => .ok (.offerQuest p1 (p2 != 0))
  | 8 =>
      if p1 > 2 then .error (.invalidParam "set_react_state" (.reactState p1))
      else .ok (.setReactState p1)
  | 9 => .ok .activateGameObject
  | 10 => do
      let emotes ← decodeChoices "random_emote" .noEmotes [p1, p2, p3, p4, p5, p6]
      .ok (.randomEmote emotes)
  | 11 => do let flags ← CastFlags.decode p2; .ok (.cast p1 flags)
  | 12 => .ok (.summonCreature p1 p2 p3 (p4 != 0))
  | 13 => .ok (.threatSinglePct p1 p2)
  | 14 => .ok (.threatAllPct p1 p2)
  | 17 => .ok (.setEmoteState p1)
  | 20 => .ok (.autoAttack (p1 != 0))
  | 21 => .ok (.allowCombatMovement (p1 != 0))
  | 22 => do let phase ← decodePhase "set_event_phase" p1; .ok (.setEventPhase phase)
  | 23 =>
      if (p1 == 0) = (p2 == 0) then .error (.invalidParam "inc_event_phase" .oneDirection)
      else do
        let inc ← decodePhase "inc_event_phase" p1
        let dec ← decodePhase "inc_event_phase" p2
        .ok (.incEventPhase inc dec)
  | 24 => .ok .evade
  | 25 => .ok (.fleeForAssist (p1 != 0))
  | 27 => .ok .combatStop
  | 28 => .ok (.removeAurasFromSpell p1)
  | 29 => .ok (.follow p1 p2 p3)
  | 30 => do
      let words ← decodeChoices "random_phase" .noPhases [p1, p2, p3, p4, p5, p6]
      let phases ← words.mapM (decodePhase "random_phase")
      .ok (.randomPhase phases)
  | 31 => do
      checkOrdered "random_phase_range" p1 p2
      let min ← decodePhase "random_phase_range" p1
      let max ← decodePhase "random_phase_range" p2
      .ok (.randomPhaseRange min max)
  | 33 => .ok (.callKilledMonster p1)
  | 34 => .ok (.setInstanceData p1 p2)
  | 37 => .ok .die
  | 38 => .ok .setInCombatWithZone
  | 39 => .ok (.callForHelp p1 (p2 != 0))
  | 41 => .ok (.forceDespawn p1)
  | 42 =>
      if p2 > 100 then .error (.invalidParam "set_invincibility_hp_level" .percentTooHigh)
      else .ok (.setInvincibilityHpLevel p1 p2)
  | 45 => .ok (.setData p1 p2)
  | 47 => .ok (.setVisibility (p1 != 0))
  | 48 => .ok (.setActive (p1 != 0))
  | 49 => .ok .attackStart
  | 50 => .ok (.summonGameObject p1 p2)
  | 51 => .ok .killUnit
  | 53 => .ok (.waypointStart (p1 != 0) p2 (p3 != 0))
  | 54 => .ok (.waypointPause p1)
  | 55 => .ok (.waypointStop p1)
  | 59 => .ok (.setRun (p1 != 0))
  | 62 => .ok (.teleport p1)
  | 63 =>
      if p1 = 0 then .error (.invalidParam "set_counter" .counterReserved)
      else .ok (.setCounter p1 p2 (p3 != 0))
  | 64 => .ok (.storeTargetList p1)
  | 65 => .ok .waypointResume
  | 66 => .ok .setOrientation
  | 67 => do
      checkOrdered "create_timed_event" p2 p3
      checkOrdered "create_timed_event" p4 p5
      if p6 > 100 then .error (.invalidParam "create_timed_event" (.chanceTooHigh p6))
      else .ok (.createTimedEvent p1 p2 p3 p4 p5 (if p6 = 0 then 100 else p6))
  | 69 => .ok (.moveToPosition p1)
  | 73 => .ok (.triggerTimedEvent p1)
  | 74 => .ok (.removeTimedEvent p1)
  | 75 => .ok (.addAura p1)
  | 78 => .ok .callScriptReset
  | 80 => do let mode ← CombatGate.decode p2; .ok (.callTimedActionList p1 mode (p3 != 0))
  | 84 => .ok (.simpleTalk p1)
  | 85 => do let flags ← CastFlags.decode p2; .ok (.selfCast p1 flags)
  | 86 => do
      let flags ← CastFlags.decode p2
      let casters ← TargetDescriptor.decode p3 p4 p5 p6 0 .origin
      .ok (.crossCast p1 flags casters)
  | 87 => do
      let lists ← decodeChoices "call_random_timed_action_list" .noLists [p1, p2, p3, p4, p5, p6]
      .ok (.callRandomTimedActionList lists)
  | 88 => do
      checkOrdered "call_random_range_timed_action_list" p1 p2
      .ok (.callRandomRangeTimedActionList p1 p2)
  | 89 => .ok (.randomMove p1)
  | 92 => .ok (.interruptSpell p2 (p1 != 0))
  | 97 => .ok (.jumpToPosition p1 p2)
  | 101 => .ok .setHomePosition
  | 103 => .ok (.setRoot (p1 != 0))
  | 108 => .ok (.setPower p1 p2)
  | 109 => .ok (.addPower p1 p2)
  | 110 => .ok (.removePower p1 p2)
  | 129 => .ok (.scenePlay p1)
  | 130 => .ok (.sceneCancel p1)
  | 136 => .ok .attackStop
  | kind => .error (.unknownActionKind kind)

end TriggerScript
