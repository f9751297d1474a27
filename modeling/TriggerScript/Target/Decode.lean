import TriggerScript.Target
import TriggerScript.RuleError

/-!
# Decoding targets

A table row gives a target as a kind number, up to four words and literal coordinates.
-/

namespace TriggerScript

namespace Target

def inRange (kind : String) (min max : UInt32) (target : Target) : Except RuleError Target :=
  if min > max then .error (.invalidParam kind (.distanceMinAboveMax min max)) else .ok target

def searchRange (max : UInt32) : UInt32 := if max = 0 then defaultSearchRange else max

def decode (kind p1 p2 p3 p4 : UInt32) : Except RuleError Target :=
  match kind with
  | 0 => .ok .none
  | 1 => .ok .owner
  | 2 => .ok (.victim ⟨p1, p2 != 0⟩)
  | 3 => .ok (.hostileSecondAggro ⟨p1, p2 != 0⟩)
  | 4 => .ok (.hostileLastAggro ⟨p1, p2 != 0⟩)
  | 5 => .ok (.hostileRandom ⟨p1, p2 != 0⟩)
  | 6 => .ok (.hostileRandomNotTop ⟨p1, p2 != 0⟩)
  | 7 => .ok .actionInvoker
  | 8 => .ok .position
  | 9 => inRange "creature_range" p2 p3 (.creatureRange p1 p2 p3 p4)
  | 10 => .ok (.creatureGuid p1 p2)
  | 11 => .ok (.creatureDistance p1 p2 p3)
  | 12 => .ok (.stored p1)
  | 13 => inRange "gameobject_range" p2 p3 (.gameObjectRange p1 p2 p3 p4)
  | 14 => .ok (.gameObjectGuid p1 p2)
  | 15 => .ok (.gameObjectDistance p1 p2 p3)
  | 16 => .ok .invokerParty
  | 17 => inRange "player_range" p1 p2 (.playerRange p1 p2 p3 (p4 != 0))
  | 18 => .ok (.playerDistance p1 (p2 != 0))
  | 19 => .ok (.closestCreature p1 (searchRange p2) (p3 != 0))
  | 20 => .ok (.closestGameObject p1 (searchRange p2))
  | 21 => .ok (.closestPlayer (searchRange p1) (p2 != 0))
  | 22 => .ok .actionInvokerVehicle
  | 23 => .ok .ownerOrSummoner
  | 24 => .ok (.threatList ⟨p1, false⟩)
  | 25 => .ok (.closestEnemy (searchRange p1) (p2 != 0) (p3 != 0))
  | 26 => .ok (.closestFriendly (searchRange p1) (p2 != 0) (p3 != 0))
  | 28 => .ok (.farthest p1 (p2 != 0) (p3 != 0))
  | kind => .error (.unknownTargetKind kind)

end Target

def TargetDescriptor.decode (kind p1 p2 p3 p4 : UInt32) (literal : Position) :
    Except RuleError TargetDescriptor :=
  (Target.decode kind p1 p2 p3 p4).map fun target => ⟨target, literal⟩

end TriggerScript
