import TriggerScript.Command
import TriggerScript.Read

/-!
# Reading commands
-/

namespace TriggerScript

instance : Readable PowerOp where
  read? := Data.named? [("set", .set), ("add", .add), ("remove", .remove)]
  missing? := none

/-- A waypoint operation is written as its name, or as a table with its fields under its name. -/
def WaypointOp.ofData? : Data → Option WaypointOp
  | .text "resume" => some .resume
  | .table [("start", .table f)] => do
      some (.start (← Columns.field f "path") (← Columns.field f "run")
        (← Columns.field f "repeat"))
  | .table [("pause", .table f)] => do some (.pause (← Columns.field f "delay_ms"))
  | .table [("stop", .table f)] => do some (.stop (← Columns.field f "despawn_ms"))
  | _ => none

instance : Readable WaypointOp := ⟨WaypointOp.ofData?, none⟩

def Command.ofFields? (cols : Columns) (tag : String) : Option Command :=
  let f {α : Type} [Readable α] (name : String) : Option α := cols.field name
  match tag with
  | "talk" => do some (.talk (← f "speaker") (← f "listener") (← f "group") (← f "duration_ms"))
  | "play_sound" => do some (.playSound (← f "source") (← f "listener") (← f "sound"))
  | "play_emote" => do some (.playEmote (← f "actor") (← f "emote"))
  | "set_emote_state" => do some (.setEmoteState (← f "actor") (← f "emote"))
  | "morph" => do some (.morph (← f "target") (← f "entry") (← f "model"))
  | "set_visibility" => do some (.setVisibility (← f "target") (← f "visible"))
  | "play_scene" => do some (.playScene (← f "player") (← f "scene"))
  | "cancel_scene" => do some (.cancelScene (← f "player") (← f "scene"))
  | "cast_spell" => do
      some (.castSpell (← f "caster") (← f "target") (← f "spell") (← f "triggered")
        (← f "combat_move"))
  | "interrupt_cast" => do some (.interruptCast (← f "actor") (← f "spell") (← f "with_delayed"))
  | "add_aura" => do some (.addAura (← f "target") (← f "spell"))
  | "remove_aura" => do some (.removeAura (← f "target") (← f "spell"))
  | "set_faction" => do some (.setFaction (← f "target") (← f "faction"))
  | "set_react_state" => do some (.setReactState (← f "target") (← f "state"))
  | "modify_threat" => do some (.modifyThreat (← f "actor") (← f "target") (← f "pct"))
  | "set_auto_attack" => do some (.setAutoAttack (← f "actor") (← f "enabled"))
  | "set_combat_movement" => do some (.setCombatMovement (← f "actor") (← f "enabled"))
  | "attack_start" => do some (.attackStart (← f "actor") (← f "target"))
  | "attack_stop" => do some (.attackStop (← f "actor"))
  | "evade" => do some (.evade (← f "actor"))
  | "flee_for_assist" => do some (.fleeForAssist (← f "actor") (← f "with_emote"))
  | "combat_stop" => do some (.combatStop (← f "actor"))
  | "call_for_help" => do some (.callForHelp (← f "actor") (← f "radius") (← f "with_emote"))
  | "set_in_combat_with_zone" => do some (.setInCombatWithZone (← f "actor"))
  | "set_invincibility" => do some (.setInvincibility (← f "actor") (← f "flat") (← f "percent"))
  | "kill" => do some (.kill (← f "target"))
  | "despawn" => do some (.despawn (← f "target") (← f "delay_ms"))
  | "summon_creature" => do
      some (.summonCreature (← f "summoner") (← f "entry") (← f "position") (← f "summon_type")
        (← f "duration_ms") (← f "attack"))
  | "summon_game_object" => do
      some (.summonGameObject (← f "summoner") (← f "entry") (← f "position") (← f "despawn_secs"))
  | "activate_game_object" => do some (.activateGameObject (← f "target") (← f "invoker"))
  | "follow" => do
      some (.follow (← f "actor") (← f "target") (← f "distance") (← f "angle") (← f "end_entry"))
  | "waypoint" => do some (.waypoint (← f "actor") (← f "op"))
  | "set_run" => do some (.setRun (← f "actor") (← f "run"))
  | "teleport" => do some (.teleport (← f "target") (← f "map") (← f "position"))
  | "move_to" => do some (.moveTo (← f "actor") (← f "point_id") (← f "position"))
  | "jump_to" => do some (.jumpTo (← f "actor") (← f "position") (← f "speed_xy") (← f "speed_z"))
  | "random_move" => do some (.randomMove (← f "actor") (← f "radius"))
  | "set_orientation" => do some (.setOrientation (← f "actor") (← f "orientation"))
  | "set_home_position" => do some (.setHomePosition (← f "actor") (← f "position"))
  | "set_root" => do some (.setRoot (← f "target") (← f "rooted"))
  | "fail_quest" => do some (.failQuest (← f "player") (← f "quest"))
  | "offer_quest" => do some (.offerQuest (← f "player") (← f "quest") (← f "direct_add"))
  | "killed_monster" => do some (.killedMonster (← f "player") (← f "entry"))
  | "set_instance_data" => do some (.setInstanceData (← f "actor") (← f "field") (← f "value"))
  | "set_data" => do some (.setData (← f "target") (← f "field") (← f "value") (← f "invoker"))
  | "set_active" => do some (.setActive (← f "target") (← f "active"))
  | "power" => do some (.power (← f "target") (← f "power_type") (← f "op") (← f "amount"))
  | _ => none

instance : Readable Command := ⟨Data.tagged? Command.ofFields?, none⟩

end TriggerScript
