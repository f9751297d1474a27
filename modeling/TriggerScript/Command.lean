import TriggerScript.Entity

/-!
# Commands

Effects that scripts ask the world for. Every command names the entity that acts and, where it
differs, the entity acted upon.
-/

namespace TriggerScript

/-- How a power command changes the resource of its target. -/
inductive PowerOp where
  | set
  | add
  | remove
deriving DecidableEq, Inhabited

inductive WaypointOp where
  | start (path : UInt32) (run repeats : Bool)
  | pause (delayMs : UInt32)
  | stop (despawnMs : UInt32)
  | resume
deriving DecidableEq, Inhabited

inductive Command where
  -- speech and presentation
  | talk (speaker : Handle) (listener : Option Handle) (group durationMs : UInt32)
  | playSound (source : Handle) (listener : Option Handle) (sound : UInt32)
  | playEmote (actor : Handle) (emote : UInt32)
  | setEmoteState (actor : Handle) (emote : UInt32)
  | morph (target : Handle) (entry model : UInt32)
  | setVisibility (target : Handle) (visible : Bool)
  | playScene (player : Handle) (scene : UInt32)
  | cancelScene (player : Handle) (scene : UInt32)
  -- spells and auras
  | castSpell (caster target : Handle) (spell : UInt32) (triggered combatMove : Bool)
  /-- Abort a cast in flight; without a spell, whatever is being cast. -/
  | interruptCast (actor : Handle) (spell : Option UInt32) (withDelayed : Bool)
  | addAura (target : Handle) (spell : UInt32)
  /-- Remove an aura; without a spell, every aura. -/
  | removeAura (target : Handle) (spell : Option UInt32)
  -- combat
  | setFaction (target : Handle) (faction : UInt32)
  | setReactState (target : Handle) (state : UInt32)
  | modifyThreat (actor target : Handle) (pct : Int32)
  | setAutoAttack (actor : Handle) (enabled : Bool)
  | setCombatMovement (actor : Handle) (enabled : Bool)
  | attackStart (actor target : Handle)
  | attackStop (actor : Handle)
  | evade (actor : Handle)
  | fleeForAssist (actor : Handle) (withEmote : Bool)
  | combatStop (actor : Handle)
  | callForHelp (actor : Handle) (radius : UInt32) (withEmote : Bool)
  | setInCombatWithZone (actor : Handle)
  | setInvincibility (actor : Handle) (flat percent : UInt32)
  | kill (target : Handle)
  | despawn (target : Handle) (delayMs : UInt32)
  -- summons and objects
  | summonCreature (summoner : Handle) (entry : UInt32) (position : Position)
      (summonType durationMs : UInt32) (attack : Option Handle)
  | summonGameObject (summoner : Handle) (entry : UInt32) (position : Position)
      (despawnSecs : UInt32)
  | activateGameObject (target : Handle) (invoker : Option Handle)
  -- movement
  | follow (actor target : Handle) (distance angle endEntry : UInt32)
  | waypoint (actor : Handle) (op : WaypointOp)
  | setRun (actor : Handle) (run : Bool)
  | teleport (target : Handle) (map : UInt32) (position : Position)
  | moveTo (actor : Handle) (pointId : UInt32) (position : Position)
  | jumpTo (actor : Handle) (position : Position) (speedXy speedZ : UInt32)
  | randomMove (actor : Handle) (radius : UInt32)
  | setOrientation (actor : Handle) (orientation : Float32)
  | setHomePosition (actor : Handle) (position : Position)
  | setRoot (target : Handle) (rooted : Bool)
  -- quests and data
  | failQuest (player : Handle) (quest : UInt32)
  | offerQuest (player : Handle) (quest : UInt32) (directAdd : Bool)
  | killedMonster (player : Handle) (entry : UInt32)
  | setInstanceData (actor : Handle) (field value : UInt32)
  | setData (target : Handle) (field value : UInt32) (invoker : Handle)
  | setActive (target : Handle) (active : Bool)
  | power (target : Handle) (powerType : UInt32) (op : PowerOp) (amount : UInt32)
deriving DecidableEq, Inhabited

/-- Short name of the command, by which a world can refuse it. -/
def Command.name : Command → String
  | talk .. => "talk"
  | playSound .. => "play_sound"
  | playEmote .. => "play_emote"
  | setEmoteState .. => "set_emote_state"
  | morph .. => "morph"
  | setVisibility .. => "set_visibility"
  | playScene .. => "play_scene"
  | cancelScene .. => "cancel_scene"
  | castSpell .. => "cast_spell"
  | interruptCast .. => "interrupt_cast"
  | addAura .. => "add_aura"
  | removeAura .. => "remove_aura"
  | setFaction .. => "set_faction"
  | setReactState .. => "set_react_state"
  | modifyThreat .. => "modify_threat"
  | setAutoAttack .. => "set_auto_attack"
  | setCombatMovement .. => "set_combat_movement"
  | attackStart .. => "attack_start"
  | attackStop .. => "attack_stop"
  | evade .. => "evade"
  | fleeForAssist .. => "flee_for_assist"
  | combatStop .. => "combat_stop"
  | callForHelp .. => "call_for_help"
  | setInCombatWithZone .. => "set_in_combat_with_zone"
  | setInvincibility .. => "set_invincibility"
  | kill .. => "kill"
  | despawn .. => "despawn"
  | summonCreature .. => "summon_creature"
  | summonGameObject .. => "summon_gameobject"
  | activateGameObject .. => "activate_gameobject"
  | follow .. => "follow"
  | waypoint .. => "waypoint"
  | setRun .. => "set_run"
  | teleport .. => "teleport"
  | moveTo .. => "move_to"
  | jumpTo .. => "jump_to"
  | randomMove .. => "random_move"
  | setOrientation .. => "set_orientation"
  | setHomePosition .. => "set_home_position"
  | setRoot .. => "set_root"
  | failQuest .. => "fail_quest"
  | offerQuest .. => "offer_quest"
  | killedMonster .. => "killed_monster"
  | setInstanceData .. => "set_instance_data"
  | setData .. => "set_data"
  | setActive .. => "set_active"
  | power .. => "power"

inductive CommandFailure where
  | noSuchEntity (handle : Handle)
  | invalidTarget (handle : Handle)
  | rejected (command : String)
deriving DecidableEq

def CommandFailure.message : CommandFailure → String
  | noSuchEntity handle => "entity " ++ handle.text ++ " does not exist"
  | invalidTarget handle =>
      "entity " ++ handle.text ++ " is not a valid target for this command"
  | rejected command => "command rejected: " ++ command

end TriggerScript
