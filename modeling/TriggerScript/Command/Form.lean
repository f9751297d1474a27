import TriggerScript.Command
import TriggerScript.Form

/-!
# Written forms of commands
-/

namespace TriggerScript

instance : Described PowerOp := ⟨fun
  | .set => .choice "set"
  | .add => .choice "add"
  | .remove => .choice "remove"⟩

instance : Described WaypointOp := ⟨fun
  | .start path run repeats =>
      .nested "start" [("path", form path), ("run", form run), ("repeat", form repeats)]
  | .pause delayMs => .nested "pause" [("delay_ms", form delayMs)]
  | .stop despawnMs => .nested "stop" [("despawn_ms", form despawnMs)]
  | .resume => .choice "resume"⟩

instance : Described Command := ⟨fun
  | .talk s l g d =>
      .tagged "talk"
        [("speaker", form s), ("listener", form l), ("group", form g), ("duration_ms", form d)]
  | .playSound s l n =>
      .tagged "play_sound" [("source", form s), ("listener", form l), ("sound", form n)]
  | .playEmote a e => .tagged "play_emote" [("actor", form a), ("emote", form e)]
  | .setEmoteState a e => .tagged "set_emote_state" [("actor", form a), ("emote", form e)]
  | .morph t e m => .tagged "morph" [("target", form t), ("entry", form e), ("model", form m)]
  | .setVisibility t v => .tagged "set_visibility" [("target", form t), ("visible", form v)]
  | .playScene p s => .tagged "play_scene" [("player", form p), ("scene", form s)]
  | .cancelScene p s => .tagged "cancel_scene" [("player", form p), ("scene", form s)]
  | .castSpell c t s tr cm =>
      .tagged "cast_spell"
        [("caster", form c), ("target", form t), ("spell", form s), ("triggered", form tr),
          ("combat_move", form cm)]
  | .interruptCast a s d =>
      .tagged "interrupt_cast" [("actor", form a), ("spell", form s), ("with_delayed", form d)]
  | .addAura t s => .tagged "add_aura" [("target", form t), ("spell", form s)]
  | .removeAura t s => .tagged "remove_aura" [("target", form t), ("spell", form s)]
  | .setFaction t f => .tagged "set_faction" [("target", form t), ("faction", form f)]
  | .setReactState t s => .tagged "set_react_state" [("target", form t), ("state", form s)]
  | .modifyThreat a t p =>
      .tagged "modify_threat" [("actor", form a), ("target", form t), ("pct", form p)]
  | .setAutoAttack a e => .tagged "set_auto_attack" [("actor", form a), ("enabled", form e)]
  | .setCombatMovement a e => .tagged "set_combat_movement" [("actor", form a), ("enabled", form e)]
  | .attackStart a t => .tagged "attack_start" [("actor", form a), ("target", form t)]
  | .attackStop a => .tagged "attack_stop" [("actor", form a)]
  | .evade a => .tagged "evade" [("actor", form a)]
  | .fleeForAssist a e => .tagged "flee_for_assist" [("actor", form a), ("with_emote", form e)]
  | .combatStop a => .tagged "combat_stop" [("actor", form a)]
  | .callForHelp a r e =>
      .tagged "call_for_help" [("actor", form a), ("radius", form r), ("with_emote", form e)]
  | .setInCombatWithZone a => .tagged "set_in_combat_with_zone" [("actor", form a)]
  | .setInvincibility a f p =>
      .tagged "set_invincibility" [("actor", form a), ("flat", form f), ("percent", form p)]
  | .kill t => .tagged "kill" [("target", form t)]
  | .despawn t d => .tagged "despawn" [("target", form t), ("delay_ms", form d)]
  | .summonCreature s e p t d a =>
      .tagged "summon_creature"
        [("summoner", form s), ("entry", form e), ("position", form p), ("summon_type", form t),
          ("duration_ms", form d), ("attack", form a)]
  | .summonGameObject s e p d =>
      .tagged "summon_game_object"
        [("summoner", form s), ("entry", form e), ("position", form p), ("despawn_secs", form d)]
  | .activateGameObject t i =>
      .tagged "activate_game_object" [("target", form t), ("invoker", form i)]
  | .follow a t d n e =>
      .tagged "follow"
        [("actor", form a), ("target", form t), ("distance", form d), ("angle", form n),
          ("end_entry", form e)]
  | .waypoint a o => .tagged "waypoint" [("actor", form a), ("op", form o)]
  | .setRun a r => .tagged "set_run" [("actor", form a), ("run", form r)]
  | .teleport t m p =>
      .tagged "teleport" [("target", form t), ("map", form m), ("position", form p)]
  | .moveTo a i p =>
      .tagged "move_to" [("actor", form a), ("point_id", form i), ("position", form p)]
  | .jumpTo a p x z =>
      .tagged "jump_to"
        [("actor", form a), ("position", form p), ("speed_xy", form x), ("speed_z", form z)]
  | .randomMove a r => .tagged "random_move" [("actor", form a), ("radius", form r)]
  | .setOrientation a o => .tagged "set_orientation" [("actor", form a), ("orientation", form o)]
  | .setHomePosition a p => .tagged "set_home_position" [("actor", form a), ("position", form p)]
  | .setRoot t r => .tagged "set_root" [("target", form t), ("rooted", form r)]
  | .failQuest p q => .tagged "fail_quest" [("player", form p), ("quest", form q)]
  | .offerQuest p q d =>
      .tagged "offer_quest" [("player", form p), ("quest", form q), ("direct_add", form d)]
  | .killedMonster p e => .tagged "killed_monster" [("player", form p), ("entry", form e)]
  | .setInstanceData a f v =>
      .tagged "set_instance_data" [("actor", form a), ("field", form f), ("value", form v)]
  | .setData t f v i =>
      .tagged "set_data"
        [("target", form t), ("field", form f), ("value", form v), ("invoker", form i)]
  | .setActive t a => .tagged "set_active" [("target", form t), ("active", form a)]
  | .power t p o n =>
      .tagged "power"
        [("target", form t), ("power_type", form p), ("op", form o), ("amount", form n)]⟩

end TriggerScript
