import TriggerScript.Read
import TriggerScript.Signal

/-!
# Reading signals
-/

namespace TriggerScript

def Signal.ofFields? (cols : Columns) (tag : String) : Option Signal :=
  let f {α : Type} [Readable α] (name : String) : Option α := cols.field name
  match tag with
  | "aggro" => do some (.aggro (← f "invoker"))
  | "death" => do some (.death (← f "killer"))
  | "kill" => do some (.kill (← f "victim") (← f "victim_entry") (← f "victim_is_player"))
  | "evade" => some .evade
  | "reached_home" => some .reachedHome
  | "respawn" => some .respawn
  | "reset" => some .reset
  | "despawn" => some .despawn
  | "charmed" => do some (.charmed (← f "charmer") (← f "applied"))
  | "damaged" => do some (.damaged (← f "attacker") (← f "amount"))
  | "damaged_target" => do some (.damagedTarget (← f "target") (← f "amount"))
  | "receive_heal" => do some (.receiveHeal (← f "healer") (← f "amount"))
  | "spell_hit" => do some (.spellHit (← f "caster") (← f "spell") (← f "school_mask"))
  | "spell_hit_target" => do some (.spellHitTarget (← f "target") (← f "spell") (← f "school_mask"))
  | "spell" => do some (.spell (← f "stage") (← f "spell") (← f "target"))
  | "summoned_unit" => do some (.summonedUnit (← f "summon") (← f "entry"))
  | "summon_despawned" => do some (.summonDespawned (← f "summon") (← f "entry"))
  | "summoned_unit_dies" => do some (.summonedUnitDies (← f "summon") (← f "entry"))
  | "just_summoned" => do some (.justSummoned (← f "summoner"))
  | "ai_init" => some .aiInit
  | "just_created" => some .justCreated
  | "corpse_removed" => some .corpseRemoved
  | "passenger_boarded" => do some (.passengerBoarded (← f "passenger"))
  | "passenger_removed" => do some (.passengerRemoved (← f "passenger"))
  | "movement_inform" => do
      some (.movementInform (← f "movement_type") (← f "point_id") (← f "position"))
  | "waypoint" => do some (.waypoint (← f "stage") (← f "point") (← f "path") (← f "position"))
  | "follow_completed" => do some (.followCompleted (← f "leader"))
  | "receive_emote" => do some (.receiveEmote (← f "invoker") (← f "emote"))
  | "accepted_quest" => do some (.acceptedQuest (← f "invoker") (← f "quest"))
  | "reward_quest" => do some (.rewardQuest (← f "invoker") (← f "quest"))
  | "gossip_hello" => do some (.gossipHello (← f "invoker"))
  | "gossip_select" => do some (.gossipSelect (← f "invoker") (← f "menu") (← f "option"))
  | "spellclick" => do some (.spellclick (← f "invoker"))
  | "text_over" => do some (.textOver (← f "group") (← f "entry"))
  | "area_trigger" => do some (.areaTrigger (← f "invoker") (← f "trigger_id") (← f "position"))
  | "quest" => do some (.quest (← f "stage") (← f "invoker") (← f "objective"))
  | "scene" => do some (.scene (← f "stage") (← f "invoker") (← f "param"))
  | "go_loot_state_changed" => do some (.goLootStateChanged (← f "state"))
  | "go_event_inform" => do some (.goEventInform (← f "event_id"))
  | "data_set" => do some (.dataSet (← f "field") (← f "value") (← f "invoker"))
  | "action_done" => do some (.actionDone (← f "event_id") (← f "invoker"))
  | "timed_event_triggered" => do some (.timedEventTriggered (← f "id"))
  | "counter_set" => do some (.counterSet (← f "counter") (← f "value"))
  | "event_phase_change" => do some (.eventPhaseChange (← f "phase"))
  | _ => none

instance : Readable Signal := ⟨Data.tagged? Signal.ofFields?, none⟩

end TriggerScript
