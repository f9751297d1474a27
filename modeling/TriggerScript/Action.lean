import TriggerScript.Event
import TriggerScript.Flags
import TriggerScript.Target

/-!
# Actions

What a rule does when it fires. Actions on script state are staged until the pass ends; the other
actions ask the world for effects.
-/

namespace TriggerScript

inductive Action where
  | none
  -- speech and presentation
  | talk (group duration : UInt32) (useTalkTarget : Bool)
  | simpleTalk (group : UInt32)
  | sound (sound : UInt32) (onlySelf : Bool)
  | playEmote (emote : UInt32)
  | randomEmote (emotes : List UInt32)
  | setEmoteState (emote : UInt32)
  | morphToEntryOrModel (entry model : UInt32)
  | setVisibility (visible : Bool)
  | scenePlay (scene : UInt32)
  | sceneCancel (scene : UInt32)
  -- spells and auras
  | cast (spell : UInt32) (flags : CastFlags)
  /-- Each target casts on itself. -/
  | selfCast (spell : UInt32) (flags : CastFlags)
  /-- Every caster casts on every target of the rule. -/
  | crossCast (spell : UInt32) (flags : CastFlags) (casters : TargetDescriptor)
  | addAura (spell : UInt32)
  /-- Remove one aura, or all of them for spell 0. -/
  | removeAurasFromSpell (spell : UInt32)
  | interruptSpell (spell : UInt32) (withDelayed : Bool)
  -- combat
  | setFaction (faction : UInt32)
  | setReactState (state : UInt32)
  | threatSinglePct (inc dec : UInt32)
  | threatAllPct (inc dec : UInt32)
  | autoAttack (enabled : Bool)
  | allowCombatMovement (enabled : Bool)
  | attackStart
  | attackStop
  | evade
  | fleeForAssist (withEmote : Bool)
  | combatStop
  | callForHelp (radius : UInt32) (withEmote : Bool)
  | setInCombatWithZone
  | setInvincibilityHpLevel (flat percent : UInt32)
  | die
  | killUnit
  | forceDespawn (delayMs : UInt32)
  -- summons and objects
  | summonCreature (entry summonType durationMs : UInt32) (attackInvoker : Bool)
  | summonGameObject (entry despawnSecs : UInt32)
  | activateGameObject
  -- movement
  | follow (distance angle endEntry : UInt32)
  | waypointStart (run : Bool) (path : UInt32) (repeats : Bool)
  | waypointPause (delayMs : UInt32)
  | waypointStop (despawnMs : UInt32)
  | waypointResume
  | setRun (run : Bool)
  | teleport (map : UInt32)
  | moveToPosition (pointId : UInt32)
  | jumpToPosition (speedXy speedZ : UInt32)
  | randomMove (radius : UInt32)
  | setOrientation
  | setHomePosition
  | setRoot (rooted : Bool)
  -- quests and data
  | failQuest (quest : UInt32)
  | offerQuest (quest : UInt32) (directAdd : Bool)
  | callKilledMonster (entry : UInt32)
  | setInstanceData (field value : UInt32)
  | setData (field value : UInt32)
  | setActive (active : Bool)
  | setPower (powerType value : UInt32)
  | addPower (powerType value : UInt32)
  | removePower (powerType value : UInt32)
  -- script state
  | setEventPhase (phase : UInt8)
  | incEventPhase (inc dec : UInt8)
  | randomPhase (phases : List UInt8)
  | randomPhaseRange (min max : UInt8)
  /-- Add to a counter, or set it when `reset` holds. -/
  | setCounter (counter value : UInt32) (reset : Bool)
  | storeTargetList (varId : UInt32)
  | createTimedEvent (id initialMin initialMax repeatMin repeatMax chance : UInt32)
  | triggerTimedEvent (id : UInt32)
  | removeTimedEvent (id : UInt32)
  | callScriptReset
  | callTimedActionList (listId : UInt32) (mode : CombatGate) (allowOverride : Bool)
  | callRandomTimedActionList (lists : List UInt32)
  | callRandomRangeTimedActionList (min max : UInt32)
deriving DecidableEq, Inhabited

namespace Action

def kindId : Action → UInt32
  | none => 0
  | talk .. => 1
  | setFaction .. => 2
  | morphToEntryOrModel .. => 3
  | sound .. => 4
  | playEmote .. => 5
  | failQuest .. => 6
  | offerQuest .. => 7
  | setReactState .. => 8
  | activateGameObject => 9
  | randomEmote .. => 10
  | cast .. => 11
  | summonCreature .. => 12
  | threatSinglePct .. => 13
  | threatAllPct .. => 14
  | setEmoteState .. => 17
  | autoAttack .. => 20
  | allowCombatMovement .. => 21
  | setEventPhase .. => 22
  | incEventPhase .. => 23
  | evade => 24
  | fleeForAssist .. => 25
  | combatStop => 27
  | removeAurasFromSpell .. => 28
  | follow .. => 29
  | randomPhase .. => 30
  | randomPhaseRange .. => 31
  | callKilledMonster .. => 33
  | setInstanceData .. => 34
  | die => 37
  | setInCombatWithZone => 38
  | callForHelp .. => 39
  | forceDespawn .. => 41
  | setInvincibilityHpLevel .. => 42
  | setData .. => 45
  | setVisibility .. => 47
  | setActive .. => 48
  | attackStart => 49
  | summonGameObject .. => 50
  | killUnit => 51
  | waypointStart .. => 53
  | waypointPause .. => 54
  | waypointStop .. => 55
  | setRun .. => 59
  | teleport .. => 62
  | setCounter .. => 63
  | storeTargetList .. => 64
  | waypointResume => 65
  | setOrientation => 66
  | createTimedEvent .. => 67
  | moveToPosition .. => 69
  | triggerTimedEvent .. => 73
  | removeTimedEvent .. => 74
  | addAura .. => 75
  | callScriptReset => 78
  | callTimedActionList .. => 80
  | simpleTalk .. => 84
  | selfCast .. => 85
  | crossCast .. => 86
  | callRandomTimedActionList .. => 87
  | callRandomRangeTimedActionList .. => 88
  | randomMove .. => 89
  | interruptSpell .. => 92
  | jumpToPosition .. => 97
  | setHomePosition => 101
  | setRoot .. => 103
  | setPower .. => 108
  | addPower .. => 109
  | removePower .. => 110
  | scenePlay .. => 129
  | sceneCancel .. => 130
  | attackStop => 136

def name : Action → String
  | none => "none"
  | talk .. => "talk"
  | simpleTalk .. => "simple_talk"
  | sound .. => "sound"
  | playEmote .. => "play_emote"
  | randomEmote .. => "random_emote"
  | setEmoteState .. => "set_emote_state"
  | morphToEntryOrModel .. => "morph_to_entry_or_model"
  | setVisibility .. => "set_visibility"
  | scenePlay .. => "scene_play"
  | sceneCancel .. => "scene_cancel"
  | cast .. => "cast"
  | selfCast .. => "self_cast"
  | crossCast .. => "cross_cast"
  | addAura .. => "add_aura"
  | removeAurasFromSpell .. => "remove_auras_from_spell"
  | interruptSpell .. => "interrupt_spell"
  | setFaction .. => "set_faction"
  | setReactState .. => "set_react_state"
  | threatSinglePct .. => "threat_single_pct"
  | threatAllPct .. => "threat_all_pct"
  | autoAttack .. => "auto_attack"
  | allowCombatMovement .. => "allow_combat_movement"
  | attackStart => "attack_start"
  | attackStop => "attack_stop"
  | evade => "evade"
  | fleeForAssist .. => "flee_for_assist"
  | combatStop => "combat_stop"
  | callForHelp .. => "call_for_help"
  | setInCombatWithZone => "set_in_combat_with_zone"
  | setInvincibilityHpLevel .. => "set_invincibility_hp_level"
  | die => "die"
  | killUnit => "kill_unit"
  | forceDespawn .. => "force_despawn"
  | summonCreature .. => "summon_creature"
  | summonGameObject .. => "summon_gameobject"
  | activateGameObject => "activate_gameobject"
  | follow .. => "follow"
  | waypointStart .. => "waypoint_start"
  | waypointPause .. => "waypoint_pause"
  | waypointStop .. => "waypoint_stop"
  | waypointResume => "waypoint_resume"
  | setRun .. => "set_run"
  | teleport .. => "teleport"
  | moveToPosition .. => "move_to_position"
  | jumpToPosition .. => "jump_to_position"
  | randomMove .. => "random_move"
  | setOrientation => "set_orientation"
  | setHomePosition => "set_home_position"
  | setRoot .. => "set_root"
  | failQuest .. => "fail_quest"
  | offerQuest .. => "offer_quest"
  | callKilledMonster .. => "call_killed_monster"
  | setInstanceData .. => "set_instance_data"
  | setData .. => "set_data"
  | setActive .. => "set_active"
  | setPower .. => "set_power"
  | addPower .. => "add_power"
  | removePower .. => "remove_power"
  | setEventPhase .. => "set_event_phase"
  | incEventPhase .. => "inc_event_phase"
  | randomPhase .. => "random_phase"
  | randomPhaseRange .. => "random_phase_range"
  | setCounter .. => "set_counter"
  | storeTargetList .. => "store_target_list"
  | createTimedEvent .. => "create_timed_event"
  | triggerTimedEvent .. => "trigger_timed_event"
  | removeTimedEvent .. => "remove_timed_event"
  | callScriptReset => "call_script_reset"
  | callTimedActionList .. => "call_timed_action_list"
  | callRandomTimedActionList .. => "call_random_timed_action_list"
  | callRandomRangeTimedActionList .. => "call_random_range_timed_action_list"

/-- Whether the action changes script state at the end of the pass. -/
def isStaged : Action → Bool
  | setEventPhase .. | incEventPhase .. | randomPhase .. | randomPhaseRange .. | setCounter ..
  | createTimedEvent .. | triggerTimedEvent .. | removeTimedEvent .. | callScriptReset
  | callTimedActionList .. | callRandomTimedActionList .. | callRandomRangeTimedActionList .. =>
      true
  | _ => false

/-- Whether the action is skipped when its targets are empty. Actions on script state and those
that act on the owner run without targets. -/
def needsTargets : Action → Bool
  | none | talk _ _ false | setEventPhase .. | incEventPhase .. | randomPhase ..
  | randomPhaseRange .. | setCounter .. | createTimedEvent .. | triggerTimedEvent ..
  | removeTimedEvent .. | callScriptReset | callTimedActionList ..
  | callRandomTimedActionList .. | callRandomRangeTimedActionList .. | setInstanceData ..
  | threatAllPct .. | evade | fleeForAssist .. | combatStop | autoAttack ..
  | allowCombatMovement .. | callForHelp .. | setInCombatWithZone | setInvincibilityHpLevel ..
  | die | waypointStart .. | waypointPause .. | waypointStop .. | waypointResume | setRun ..
  | randomMove .. | summonCreature .. | summonGameObject .. | setHomePosition | setOrientation
  | attackStop => false
  | _ => true

theorem isStaged_and_needsTargets (a : Action) : (a.isStaged && a.needsTargets) = false := by
  cases a <;> rfl

theorem needsTargets_of_isStaged {a : Action} (h : a.isStaged = true) : a.needsTargets = false := by
  simpa [h] using isStaged_and_needsTargets a

end Action

end TriggerScript
