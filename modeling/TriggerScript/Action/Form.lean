import TriggerScript.Action
import TriggerScript.Target.Form

/-!
# Written forms of actions
-/

namespace TriggerScript

instance : Described Action := ⟨fun
  | .none => .tagged "none" []
  | .talk g d u =>
      .tagged "talk" [("group", form g), ("duration", form d), ("use_talk_target", form u)]
  | .simpleTalk g => .tagged "simple_talk" [("group", form g)]
  | .sound s o => .tagged "sound" [("sound", form s), ("only_self", form o)]
  | .playEmote e => .tagged "play_emote" [("emote", form e)]
  | .randomEmote es => .tagged "random_emote" [("emotes", form es)]
  | .setEmoteState e => .tagged "set_emote_state" [("emote", form e)]
  | .morphToEntryOrModel e m =>
      .tagged "morph_to_entry_or_model" [("entry", form e), ("model", form m)]
  | .setVisibility v => .tagged "set_visibility" [("visible", form v)]
  | .scenePlay s => .tagged "scene_play" [("scene", form s)]
  | .sceneCancel s => .tagged "scene_cancel" [("scene", form s)]
  | .cast s f => .tagged "cast" [("spell", form s), ("flags", form f)]
  | .selfCast s f => .tagged "self_cast" [("spell", form s), ("flags", form f)]
  | .crossCast s f c =>
      .tagged "cross_cast" [("spell", form s), ("flags", form f), ("casters", form c)]
  | .addAura s => .tagged "add_aura" [("spell", form s)]
  | .removeAurasFromSpell s => .tagged "remove_auras_from_spell" [("spell", form s)]
  | .interruptSpell s d => .tagged "interrupt_spell" [("spell", form s), ("with_delayed", form d)]
  | .setFaction f => .tagged "set_faction" [("faction", form f)]
  | .setReactState s => .tagged "set_react_state" [("state", form s)]
  | .threatSinglePct i d => .tagged "threat_single_pct" [("inc", form i), ("dec", form d)]
  | .threatAllPct i d => .tagged "threat_all_pct" [("inc", form i), ("dec", form d)]
  | .autoAttack e => .tagged "auto_attack" [("enabled", form e)]
  | .allowCombatMovement e => .tagged "allow_combat_movement" [("enabled", form e)]
  | .attackStart => .tagged "attack_start" []
  | .attackStop => .tagged "attack_stop" []
  | .evade => .tagged "evade" []
  | .fleeForAssist e => .tagged "flee_for_assist" [("with_emote", form e)]
  | .combatStop => .tagged "combat_stop" []
  | .callForHelp r e => .tagged "call_for_help" [("radius", form r), ("with_emote", form e)]
  | .setInCombatWithZone => .tagged "set_in_combat_with_zone" []
  | .setInvincibilityHpLevel f p =>
      .tagged "set_invincibility_hp_level" [("flat", form f), ("percent", form p)]
  | .die => .tagged "die" []
  | .killUnit => .tagged "kill_unit" []
  | .forceDespawn d => .tagged "force_despawn" [("delay_ms", form d)]
  | .summonCreature e t d a =>
      .tagged "summon_creature"
        [("entry", form e), ("summon_type", form t), ("duration_ms", form d),
          ("attack_invoker", form a)]
  | .summonGameObject e d =>
      .tagged "summon_game_object" [("entry", form e), ("despawn_secs", form d)]
  | .activateGameObject => .tagged "activate_game_object" []
  | .follow d a e =>
      .tagged "follow" [("distance", form d), ("angle", form a), ("end_entry", form e)]
  | .waypointStart r p x =>
      .tagged "waypoint_start" [("run", form r), ("path", form p), ("repeat", form x)]
  | .waypointPause d => .tagged "waypoint_pause" [("delay_ms", form d)]
  | .waypointStop d => .tagged "waypoint_stop" [("despawn_ms", form d)]
  | .waypointResume => .tagged "waypoint_resume" []
  | .setRun r => .tagged "set_run" [("run", form r)]
  | .teleport m => .tagged "teleport" [("map", form m)]
  | .moveToPosition p => .tagged "move_to_position" [("point_id", form p)]
  | .jumpToPosition a b => .tagged "jump_to_position" [("speed_xy", form a), ("speed_z", form b)]
  | .randomMove r => .tagged "random_move" [("radius", form r)]
  | .setOrientation => .tagged "set_orientation" []
  | .setHomePosition => .tagged "set_home_position" []
  | .setRoot r => .tagged "set_root" [("rooted", form r)]
  | .failQuest q => .tagged "fail_quest" [("quest", form q)]
  | .offerQuest q d => .tagged "offer_quest" [("quest", form q), ("direct_add", form d)]
  | .callKilledMonster e => .tagged "call_killed_monster" [("entry", form e)]
  | .setInstanceData f v => .tagged "set_instance_data" [("field", form f), ("value", form v)]
  | .setData f v => .tagged "set_data" [("field", form f), ("value", form v)]
  | .setActive a => .tagged "set_active" [("active", form a)]
  | .setPower t v => .tagged "set_power" [("power_type", form t), ("value", form v)]
  | .addPower t v => .tagged "add_power" [("power_type", form t), ("value", form v)]
  | .removePower t v => .tagged "remove_power" [("power_type", form t), ("value", form v)]
  | .setEventPhase p => .tagged "set_event_phase" [("phase", form p)]
  | .incEventPhase i d => .tagged "inc_event_phase" [("inc", form i), ("dec", form d)]
  | .randomPhase ps => .tagged "random_phase" [("phases", form ps)]
  | .randomPhaseRange a b => .tagged "random_phase_range" [("min", form a), ("max", form b)]
  | .setCounter c v r =>
      .tagged "set_counter" [("counter", form c), ("value", form v), ("reset", form r)]
  | .storeTargetList v => .tagged "store_target_list" [("var_id", form v)]
  | .createTimedEvent i a b c d p =>
      .tagged "create_timed_event"
        [("id", form i), ("initial_min", form a), ("initial_max", form b), ("repeat_min", form c),
          ("repeat_max", form d), ("chance", form p)]
  | .triggerTimedEvent i => .tagged "trigger_timed_event" [("id", form i)]
  | .removeTimedEvent i => .tagged "remove_timed_event" [("id", form i)]
  | .callScriptReset => .tagged "call_script_reset" []
  | .callTimedActionList l m o =>
      .tagged "call_timed_action_list"
        [("list_id", form l), ("mode", form m), ("allow_override", form o)]
  | .callRandomTimedActionList ls => .tagged "call_random_timed_action_list" [("lists", form ls)]
  | .callRandomRangeTimedActionList a b =>
      .tagged "call_random_range_timed_action_list" [("min", form a), ("max", form b)]⟩

end TriggerScript
