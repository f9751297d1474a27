import TriggerScript.Position

/-!
# Targets

Who, or where, the actions of a rule apply to.
-/

namespace TriggerScript

/-- Restriction shared by the targets taken from the threat list. -/
structure ThreatFilter where
  /-- Greatest distance from the owner; 0 sets no limit. -/
  maxDist : UInt32
  playersOnly : Bool
deriving DecidableEq, Inhabited

inductive Target where
  | none
  -- by identity
  | owner
  | actionInvoker
  | actionInvokerVehicle
  | invokerParty
  | ownerOrSummoner
  -- from the threat list
  | victim (filter : ThreatFilter)
  | hostileSecondAggro (filter : ThreatFilter)
  | hostileLastAggro (filter : ThreatFilter)
  | hostileRandom (filter : ThreatFilter)
  | hostileRandomNotTop (filter : ThreatFilter)
  | threatList (filter : ThreatFilter)
  -- by place
  | creatureRange (entry min max maxSize : UInt32)
  | creatureGuid (guid entry : UInt32)
  | creatureDistance (entry max maxSize : UInt32)
  | gameObjectRange (entry min max maxSize : UInt32)
  | gameObjectGuid (guid entry : UInt32)
  | gameObjectDistance (entry max maxSize : UInt32)
  | playerRange (min max maxSize : UInt32) (inLos : Bool)
  | playerDistance (max : UInt32) (inLos : Bool)
  | closestCreature (entry max : UInt32) (dead : Bool)
  | closestGameObject (entry max : UInt32)
  | closestPlayer (max : UInt32) (inLos : Bool)
  | closestEnemy (max : UInt32) (playersOnly inLos : Bool)
  | closestFriendly (max : UInt32) (playersOnly inLos : Bool)
  | farthest (max : UInt32) (playersOnly inLos : Bool)
  -- literal and stored
  /-- The position of the triggering signal, else the coordinates of the row. -/
  | position
  | stored (varId : UInt32)
deriving DecidableEq, Inhabited

/-- Search range that a range of 0 stands for. -/
def defaultSearchRange : UInt32 := 100

/-- A target kind with the coordinates of its row. -/
structure TargetDescriptor where
  target : Target
  literal : Position := .origin
deriving DecidableEq, Inhabited

namespace TargetDescriptor

def isNone (d : TargetDescriptor) : Bool := d.target == .none

def kindId (d : TargetDescriptor) : UInt32 :=
  match d.target with
  | .none => 0
  | .owner => 1
  | .victim _ => 2
  | .hostileSecondAggro _ => 3
  | .hostileLastAggro _ => 4
  | .hostileRandom _ => 5
  | .hostileRandomNotTop _ => 6
  | .actionInvoker => 7
  | .position => 8
  | .creatureRange .. => 9
  | .creatureGuid .. => 10
  | .creatureDistance .. => 11
  | .stored _ => 12
  | .gameObjectRange .. => 13
  | .gameObjectGuid .. => 14
  | .gameObjectDistance .. => 15
  | .invokerParty => 16
  | .playerRange .. => 17
  | .playerDistance .. => 18
  | .closestCreature .. => 19
  | .closestGameObject .. => 20
  | .closestPlayer .. => 21
  | .actionInvokerVehicle => 22
  | .ownerOrSummoner => 23
  | .threatList _ => 24
  | .closestEnemy .. => 25
  | .closestFriendly .. => 26
  | .farthest .. => 28

end TargetDescriptor

end TriggerScript
