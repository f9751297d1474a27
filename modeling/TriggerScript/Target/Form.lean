import TriggerScript.Form
import TriggerScript.Target

/-!
# Written forms of targets
-/

namespace TriggerScript

/-- A threat target has the fields of its filter. -/
def Form.ofFilter (tag : String) (f : ThreatFilter) : Form :=
  .tagged tag [("max_dist", form f.maxDist), ("players_only", form f.playersOnly)]

instance : Described Target := ⟨fun
  | .none => .tagged "none" []
  | .owner => .tagged "owner" []
  | .actionInvoker => .tagged "action_invoker" []
  | .actionInvokerVehicle => .tagged "action_invoker_vehicle" []
  | .invokerParty => .tagged "invoker_party" []
  | .ownerOrSummoner => .tagged "owner_or_summoner" []
  | .victim f => .ofFilter "victim" f
  | .hostileSecondAggro f => .ofFilter "hostile_second_aggro" f
  | .hostileLastAggro f => .ofFilter "hostile_last_aggro" f
  | .hostileRandom f => .ofFilter "hostile_random" f
  | .hostileRandomNotTop f => .ofFilter "hostile_random_not_top" f
  | .threatList f => .ofFilter "threat_list" f
  | .creatureRange e a b n =>
      .tagged "creature_range"
        [("entry", form e), ("min", form a), ("max", form b), ("max_size", form n)]
  | .creatureGuid g e => .tagged "creature_guid" [("guid", form g), ("entry", form e)]
  | .creatureDistance e m n =>
      .tagged "creature_distance" [("entry", form e), ("max", form m), ("max_size", form n)]
  | .gameObjectRange e a b n =>
      .tagged "game_object_range"
        [("entry", form e), ("min", form a), ("max", form b), ("max_size", form n)]
  | .gameObjectGuid g e => .tagged "game_object_guid" [("guid", form g), ("entry", form e)]
  | .gameObjectDistance e m n =>
      .tagged "game_object_distance" [("entry", form e), ("max", form m), ("max_size", form n)]
  | .playerRange a b n l =>
      .tagged "player_range"
        [("min", form a), ("max", form b), ("max_size", form n), ("in_los", form l)]
  | .playerDistance m l => .tagged "player_distance" [("max", form m), ("in_los", form l)]
  | .closestCreature e m d =>
      .tagged "closest_creature" [("entry", form e), ("max", form m), ("dead", form d)]
  | .closestGameObject e m => .tagged "closest_game_object" [("entry", form e), ("max", form m)]
  | .closestPlayer m l => .tagged "closest_player" [("max", form m), ("in_los", form l)]
  | .closestEnemy m p l =>
      .tagged "closest_enemy" [("max", form m), ("players_only", form p), ("in_los", form l)]
  | .closestFriendly m p l =>
      .tagged "closest_friendly" [("max", form m), ("players_only", form p), ("in_los", form l)]
  | .farthest m p l =>
      .tagged "farthest" [("max", form m), ("players_only", form p), ("in_los", form l)]
  | .position => .tagged "position" []
  | .stored v => .tagged "stored" [("var_id", form v)]⟩

instance : Described TargetDescriptor :=
  ⟨fun d => .record [("literal", form d.literal), ("target", form d.target)]⟩

end TriggerScript
