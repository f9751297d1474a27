import TriggerScript.Form
import TriggerScript.Signal

/-!
# Written forms of signals
-/

namespace TriggerScript

instance : Described Signal := ⟨fun
  | .aggro h => .tagged "aggro" [("invoker", form h)]
  | .death k => .tagged "death" [("killer", form k)]
  | .kill v e p =>
      .tagged "kill" [("victim", form v), ("victim_entry", form e), ("victim_is_player", form p)]
  | .evade => .tagged "evade" []
  | .reachedHome => .tagged "reached_home" []
  | .respawn => .tagged "respawn" []
  | .reset => .tagged "reset" []
  | .despawn => .tagged "despawn" []
  | .charmed c a => .tagged "charmed" [("charmer", form c), ("applied", form a)]
  | .damaged a n => .tagged "damaged" [("attacker", form a), ("amount", form n)]
  | .damagedTarget t n => .tagged "damaged_target" [("target", form t), ("amount", form n)]
  | .receiveHeal h n => .tagged "receive_heal" [("healer", form h), ("amount", form n)]
  | .spellHit c s m =>
      .tagged "spell_hit" [("caster", form c), ("spell", form s), ("school_mask", form m)]
  | .spellHitTarget t s m =>
      .tagged "spell_hit_target" [("target", form t), ("spell", form s), ("school_mask", form m)]
  | .spell st s t => .tagged "spell" [("stage", form st), ("spell", form s), ("target", form t)]
  | .summonedUnit s e => .tagged "summoned_unit" [("summon", form s), ("entry", form e)]
  | .summonDespawned s e => .tagged "summon_despawned" [("summon", form s), ("entry", form e)]
  | .summonedUnitDies s e => .tagged "summoned_unit_dies" [("summon", form s), ("entry", form e)]
  | .justSummoned s => .tagged "just_summoned" [("summoner", form s)]
  | .aiInit => .tagged "ai_init" []
  | .justCreated => .tagged "just_created" []
  | .corpseRemoved => .tagged "corpse_removed" []
  | .passengerBoarded p => .tagged "passenger_boarded" [("passenger", form p)]
  | .passengerRemoved p => .tagged "passenger_removed" [("passenger", form p)]
  | .movementInform t p pos =>
      .tagged "movement_inform"
        [("movement_type", form t), ("point_id", form p), ("position", form pos)]
  | .waypoint st a b pos =>
      .tagged "waypoint"
        [("stage", form st), ("point", form a), ("path", form b), ("position", form pos)]
  | .followCompleted l => .tagged "follow_completed" [("leader", form l)]
  | .receiveEmote h e => .tagged "receive_emote" [("invoker", form h), ("emote", form e)]
  | .acceptedQuest h q => .tagged "accepted_quest" [("invoker", form h), ("quest", form q)]
  | .rewardQuest h q => .tagged "reward_quest" [("invoker", form h), ("quest", form q)]
  | .gossipHello h => .tagged "gossip_hello" [("invoker", form h)]
  | .gossipSelect h m o =>
      .tagged "gossip_select" [("invoker", form h), ("menu", form m), ("option", form o)]
  | .spellclick h => .tagged "spellclick" [("invoker", form h)]
  | .textOver g e => .tagged "text_over" [("group", form g), ("entry", form e)]
  | .areaTrigger h t pos =>
      .tagged "area_trigger" [("invoker", form h), ("trigger_id", form t), ("position", form pos)]
  | .quest st h o =>
      .tagged "quest" [("stage", form st), ("invoker", form h), ("objective", form o)]
  | .scene st h p => .tagged "scene" [("stage", form st), ("invoker", form h), ("param", form p)]
  | .goLootStateChanged s => .tagged "go_loot_state_changed" [("state", form s)]
  | .goEventInform e => .tagged "go_event_inform" [("event_id", form e)]
  | .dataSet f v h => .tagged "data_set" [("field", form f), ("value", form v), ("invoker", form h)]
  | .actionDone e h => .tagged "action_done" [("event_id", form e), ("invoker", form h)]
  | .timedEventTriggered i => .tagged "timed_event_triggered" [("id", form i)]
  | .counterSet c v => .tagged "counter_set" [("counter", form c), ("value", form v)]
  | .eventPhaseChange p => .tagged "event_phase_change" [("phase", form p)]⟩

end TriggerScript
