import TriggerScript.Event
import TriggerScript.Entity

/-!
# Signals

Something that happened to an entity, pushed to its script. `reset`, `despawn`,
`timedEventTriggered`, `counterSet` and `eventPhaseChange` are also raised by scripts themselves.
-/

namespace TriggerScript

inductive Signal where
  -- combat
  | aggro (invoker : Handle)
  | death (killer : Option Handle)
  | kill (victim : Handle) (victimEntry : UInt32) (victimIsPlayer : Bool)
  | evade
  | reachedHome
  | respawn
  | reset
  | despawn
  | charmed (charmer : Option Handle) (applied : Bool)
  | damaged (attacker : Handle) (amount : UInt32)
  | damagedTarget (target : Handle) (amount : UInt32)
  | receiveHeal (healer : Handle) (amount : UInt32)
  -- spells
  | spellHit (caster : Handle) (spell schoolMask : UInt32)
  | spellHitTarget (target : Handle) (spell schoolMask : UInt32)
  | spell (stage : SpellStage) (spell : UInt32) (target : Option Handle)
  -- summons and lifecycle
  | summonedUnit (summon : Handle) (entry : UInt32)
  | summonDespawned (summon : Handle) (entry : UInt32)
  | summonedUnitDies (summon : Handle) (entry : UInt32)
  | justSummoned (summoner : Handle)
  | aiInit
  | justCreated
  | corpseRemoved
  | passengerBoarded (passenger : Handle)
  | passengerRemoved (passenger : Handle)
  -- movement
  | movementInform (movementType pointId : UInt32) (position : Option Position)
  | waypoint (stage : WaypointStage) (point path : UInt32) (position : Option Position)
  | followCompleted (leader : Option Handle)
  -- interaction
  | receiveEmote (invoker : Handle) (emote : UInt32)
  | acceptedQuest (invoker : Handle) (quest : UInt32)
  | rewardQuest (invoker : Handle) (quest : UInt32)
  | gossipHello (invoker : Handle)
  | gossipSelect (invoker : Handle) (menu option : UInt32)
  | spellclick (invoker : Handle)
  | textOver (group entry : UInt32)
  | areaTrigger (invoker : Handle) (triggerId : UInt32) (position : Option Position)
  | quest (stage : QuestStage) (invoker : Handle) (objective : UInt32)
  | scene (stage : SceneStage) (invoker : Handle) (param : UInt32)
  | goLootStateChanged (state : UInt32)
  | goEventInform (eventId : UInt32)
  -- script state
  | dataSet (field value : UInt32) (invoker : Option Handle)
  | actionDone (eventId : UInt32) (invoker : Option Handle)
  | timedEventTriggered (id : UInt32)
  | counterSet (counter value : UInt32)
  | eventPhaseChange (phase : PhaseMask)
deriving DecidableEq, Inhabited

/-- An event parameter of 0 matches any value. -/
def anyOr (param actual : UInt32) : Bool := param == 0 || param == actual

/-- Inclusive range of amounts, without upper bound when `max` is 0. -/
def amountIn (min max amount : UInt32) : Bool := amount ≥ min && (max == 0 || amount ≤ max)

/-- Spell schools: 0 matches any, otherwise one school has to agree. -/
def schoolMatches (school mask : UInt32) : Bool := school == 0 || school &&& mask != 0

namespace Signal

def invoker : Signal → Option Handle
  | aggro h | receiveEmote h _ | acceptedQuest h _ | rewardQuest h _ | gossipHello h
  | gossipSelect h _ _ | spellclick h | areaTrigger h _ _ | quest _ h _ | scene _ h _
  | kill h _ _ | damaged h _ | damagedTarget h _ | receiveHeal h _ | spellHit h _ _
  | spellHitTarget h _ _ | summonedUnit h _ | summonDespawned h _ | summonedUnitDies h _
  | justSummoned h | passengerBoarded h | passengerRemoved h => some h
  | death h | charmed h _ | spell _ _ h | followCompleted h | dataSet _ _ h | actionDone _ h => h
  | _ => none

def position : Signal → Option Position
  | movementInform _ _ p | waypoint _ _ _ p | areaTrigger _ _ p => p
  | _ => none

/-- Whether the signal triggers a pushed event. -/
def triggers : Signal → Event → Bool
  | aggro _, .aggro => true
  | death _, .death => true
  | kill _ entry isPlayer, .kill playerOnly wanted =>
      if playerOnly then isPlayer else anyOr wanted entry
  | evade, .evade => true
  | reachedHome, .reachedHome => true
  | respawn, .respawn => true
  | reset, .reset => true
  | despawn, .onDespawn => true
  | charmed _ applied, .charmed onRemove => onRemove != applied
  | damaged _ amount, .damaged min max => amountIn min max amount
  | damagedTarget _ amount, .damagedTarget min max => amountIn min max amount
  | receiveHeal _ amount, .receiveHeal min max => amountIn min max amount
  | spellHit _ hit mask, .spellHit wanted school => anyOr wanted hit && schoolMatches school mask
  | spellHitTarget _ hit mask, .spellHitTarget wanted school =>
      anyOr wanted hit && schoolMatches school mask
  | spell stage cast _, .onSpell wantedStage wanted => wantedStage == stage && anyOr wanted cast
  | summonedUnit _ entry, .summonedUnit wanted => anyOr wanted entry
  | summonDespawned _ entry, .summonDespawned wanted => anyOr wanted entry
  | summonedUnitDies _ entry, .summonedUnitDies wanted => anyOr wanted entry
  | justSummoned _, .justSummoned => true
  | aiInit, .aiInit => true
  | justCreated, .justCreated => true
  | corpseRemoved, .corpseRemoved => true
  | passengerBoarded _, .passengerBoarded => true
  | passengerRemoved _, .passengerRemoved => true
  | movementInform movement point _, .movementInform wantedMovement wantedPoint =>
      anyOr wantedMovement movement && anyOr wantedPoint point
  | waypoint stage point path _, .waypoint wantedStage wantedPoint wantedPath =>
      wantedStage == stage && anyOr wantedPoint point && anyOr wantedPath path
  | followCompleted _, .followCompleted => true
  | receiveEmote _ emote, .receiveEmote wanted => wanted == emote
  | acceptedQuest _ id, .acceptedQuest wanted => anyOr wanted id
  | rewardQuest _ id, .rewardQuest wanted => anyOr wanted id
  | gossipHello _, .gossipHello => true
  | gossipSelect _ menu option, .gossipSelect wantedMenu wantedOption =>
      wantedMenu == menu && wantedOption == option
  | spellclick _, .onSpellclick => true
  | textOver group entry, .textOver wantedGroup wantedEntry =>
      wantedGroup == group && anyOr wantedEntry entry
  | areaTrigger _ id _, .areaTrigger wanted => anyOr wanted id
  | quest stage _ objective, .quest wantedStage wanted =>
      wantedStage == stage && anyOr wanted objective
  | scene stage _ param, .scene wantedStage wanted => wantedStage == stage && anyOr wanted param
  | goLootStateChanged state, .goLootStateChanged wanted => wanted == state
  | goEventInform id, .goEventInform wanted => wanted == id
  | dataSet field value _, .dataSet wantedField wantedValue =>
      wantedField == field && wantedValue == value
  | actionDone id _, .actionDone wanted => wanted == id
  | timedEventTriggered id, .timedEventTriggered wanted => wanted == id
  | counterSet counter value, .counterSet wantedCounter wantedValue =>
      wantedCounter == counter && wantedValue == value
  | eventPhaseChange phase, .eventPhaseChange mask => mask.intersects phase
  | _, _ => false

/-- After these signals the owner is out of combat. -/
def endsCombat : Signal → Bool
  | evade | death _ | reachedHome => true
  | _ => false

/-- These signals put the owner back into its spawn state. -/
def resetsScript : Signal → Bool
  | respawn | reachedHome => true
  | _ => false

end Signal

end TriggerScript
