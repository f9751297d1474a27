import TriggerScript.Form

/-!
# Written forms of events
-/

namespace TriggerScript

instance : Described Event := ⟨fun
  | .updateIc a b => .tagged "update_ic" [("initial_min", form a), ("initial_max", form b)]
  | .updateOoc a b => .tagged "update_ooc" [("initial_min", form a), ("initial_max", form b)]
  | .update a b => .tagged "update" [("initial_min", form a), ("initial_max", form b)]
  | .healthPct a b => .tagged "health_pct" [("min", form a), ("max", form b)]
  | .manaPct a b => .tagged "mana_pct" [("min", form a), ("max", form b)]
  | .targetHealthPct a b => .tagged "target_health_pct" [("min", form a), ("max", form b)]
  | .targetManaPct a b => .tagged "target_mana_pct" [("min", form a), ("max", form b)]
  | .range a b => .tagged "range" [("min", form a), ("max", form b)]
  | .oocLos h r p =>
      .tagged "ooc_los" [("hostility", form h), ("max_range", form r), ("player_only", form p)]
  | .icLos h r p =>
      .tagged "ic_los" [("hostility", form h), ("max_range", form r), ("player_only", form p)]
  | .isBehindTarget => .tagged "is_behind_target" []
  | .distanceCreature g e d =>
      .tagged "distance_creature" [("guid", form g), ("entry", form e), ("distance", form d)]
  | .distanceGameObject g e d =>
      .tagged "distance_game_object" [("guid", form g), ("entry", form e), ("distance", form d)]
  | .friendlyHealth d r => .tagged "friendly_health" [("hp_deficit", form d), ("radius", form r)]
  | .friendlyHealthPct a b r =>
      .tagged "friendly_health_pct" [("min", form a), ("max", form b), ("radius", form r)]
  | .friendlyIsCc r => .tagged "friendly_is_cc" [("radius", form r)]
  | .friendlyMissingBuff s r =>
      .tagged "friendly_missing_buff" [("spell", form s), ("radius", form r)]
  | .hasAura s n => .tagged "has_aura" [("spell", form s), ("stacks", form n)]
  | .targetBuffed s n => .tagged "target_buffed" [("spell", form s), ("stacks", form n)]
  | .victimCasting s => .tagged "victim_casting" [("spell", form s)]
  | .aggro => .tagged "aggro" []
  | .kill p e => .tagged "kill" [("player_only", form p), ("entry", form e)]
  | .death => .tagged "death" []
  | .evade => .tagged "evade" []
  | .reachedHome => .tagged "reached_home" []
  | .respawn => .tagged "respawn" []
  | .reset => .tagged "reset" []
  | .charmed r => .tagged "charmed" [("on_remove", form r)]
  | .damaged a b => .tagged "damaged" [("min", form a), ("max", form b)]
  | .damagedTarget a b => .tagged "damaged_target" [("min", form a), ("max", form b)]
  | .receiveHeal a b => .tagged "receive_heal" [("min", form a), ("max", form b)]
  | .spellHit s n => .tagged "spell_hit" [("spell", form s), ("school", form n)]
  | .spellHitTarget s n => .tagged "spell_hit_target" [("spell", form s), ("school", form n)]
  | .onSpell st s => .tagged "on_spell" [("stage", form st), ("spell", form s)]
  | .summonedUnit e => .tagged "summoned_unit" [("entry", form e)]
  | .summonDespawned e => .tagged "summon_despawned" [("entry", form e)]
  | .summonedUnitDies e => .tagged "summoned_unit_dies" [("entry", form e)]
  | .justSummoned => .tagged "just_summoned" []
  | .aiInit => .tagged "ai_init" []
  | .justCreated => .tagged "just_created" []
  | .corpseRemoved => .tagged "corpse_removed" []
  | .onDespawn => .tagged "on_despawn" []
  | .passengerBoarded => .tagged "passenger_boarded" []
  | .passengerRemoved => .tagged "passenger_removed" []
  | .movementInform t p =>
      .tagged "movement_inform" [("movement_type", form t), ("point_id", form p)]
  | .waypoint st a b => .tagged "waypoint" [("stage", form st), ("point", form a), ("path", form b)]
  | .followCompleted => .tagged "follow_completed" []
  | .receiveEmote e => .tagged "receive_emote" [("emote", form e)]
  | .acceptedQuest q => .tagged "accepted_quest" [("quest", form q)]
  | .rewardQuest q => .tagged "reward_quest" [("quest", form q)]
  | .gossipHello => .tagged "gossip_hello" []
  | .gossipSelect m o => .tagged "gossip_select" [("menu", form m), ("option", form o)]
  | .onSpellclick => .tagged "on_spellclick" []
  | .textOver g e => .tagged "text_over" [("group", form g), ("entry", form e)]
  | .areaTrigger t => .tagged "area_trigger" [("trigger_id", form t)]
  | .quest st o => .tagged "quest" [("stage", form st), ("objective", form o)]
  | .scene st p => .tagged "scene" [("stage", form st), ("param", form p)]
  | .goLootStateChanged s => .tagged "go_loot_state_changed" [("state", form s)]
  | .goEventInform e => .tagged "go_event_inform" [("event_id", form e)]
  | .dataSet f v => .tagged "data_set" [("field", form f), ("value", form v)]
  | .actionDone e => .tagged "action_done" [("event_id", form e)]
  | .timedEventTriggered i => .tagged "timed_event_triggered" [("id", form i)]
  | .counterSet c v => .tagged "counter_set" [("counter", form c), ("value", form v)]
  | .eventPhaseChange m => .tagged "event_phase_change" [("mask", form m)]
  | .link => .tagged "link" []⟩

end TriggerScript
