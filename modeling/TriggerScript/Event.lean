import TriggerScript.Phase
import TriggerScript.Link

/-!
# Events

What makes a rule eligible to fire. A pushed event waits for a matching signal; a polled event is
a condition on the world that is checked on every pass.
-/

namespace TriggerScript

/-- Combat state that an event or a timed action list requires of its owner. -/
inductive CombatGate where
  | any
  | inCombat
  | outOfCombat
deriving DecidableEq, Inhabited

def CombatGate.allows : CombatGate → Bool → Bool
  | .any, _ => true
  | .inCombat, fighting => fighting
  | .outOfCombat, fighting => !fighting

/-- Which units a line-of-sight event reacts to. -/
inductive LosHostility where
  | hostile
  | notHostile
  | any
deriving DecidableEq, Inhabited

inductive WaypointStage where
  | started
  | reached
  | paused
  | resumed
  | stopped
  | ended
deriving DecidableEq, Inhabited

inductive QuestStage where
  | accepted
  | objectiveCompleted
  | completed
  | rewarded
  | failed
deriving DecidableEq, Inhabited

inductive SceneStage where
  | started
  | triggered
  | cancelled
  | completed
deriving DecidableEq, Inhabited

inductive SpellStage where
  | started
  | cast
  | failed
deriving DecidableEq, Inhabited

inductive Event where
  -- timers (polled)
  | updateIc (initialMin initialMax : UInt32)
  | updateOoc (initialMin initialMax : UInt32)
  | update (initialMin initialMax : UInt32)
  -- resources (polled)
  | healthPct (min max : UInt32)
  | manaPct (min max : UInt32)
  | targetHealthPct (min max : UInt32)
  | targetManaPct (min max : UInt32)
  -- proximity (polled)
  | range (min max : UInt32)
  | oocLos (hostility : LosHostility) (maxRange : UInt32) (playerOnly : Bool)
  | icLos (hostility : LosHostility) (maxRange : UInt32) (playerOnly : Bool)
  | isBehindTarget
  | distanceCreature (guid entry distance : UInt32)
  | distanceGameObject (guid entry distance : UInt32)
  -- friendly units (polled)
  | friendlyHealth (hpDeficit radius : UInt32)
  | friendlyHealthPct (min max radius : UInt32)
  | friendlyIsCc (radius : UInt32)
  | friendlyMissingBuff (spell radius : UInt32)
  -- auras and casts (polled)
  | hasAura (spell count : UInt32)
  | targetBuffed (spell count : UInt32)
  | victimCasting (spell : UInt32)
  -- combat
  | aggro
  | kill (playerOnly : Bool) (entry : UInt32)
  | death
  | evade
  | reachedHome
  | respawn
  | reset
  | charmed (onRemove : Bool)
  | damaged (min max : UInt32)
  | damagedTarget (min max : UInt32)
  | receiveHeal (min max : UInt32)
  -- spells
  | spellHit (spell school : UInt32)
  | spellHitTarget (spell school : UInt32)
  | onSpell (stage : SpellStage) (spell : UInt32)
  -- summons
  | summonedUnit (entry : UInt32)
  | summonDespawned (entry : UInt32)
  | summonedUnitDies (entry : UInt32)
  | justSummoned
  -- lifecycle
  | aiInit
  | justCreated
  | corpseRemoved
  | onDespawn
  | passengerBoarded
  | passengerRemoved
  -- movement
  | movementInform (movementType pointId : UInt32)
  | waypoint (stage : WaypointStage) (point path : UInt32)
  | followCompleted
  -- interaction
  | receiveEmote (emote : UInt32)
  | acceptedQuest (quest : UInt32)
  | rewardQuest (quest : UInt32)
  | gossipHello
  | gossipSelect (menu option : UInt32)
  | onSpellclick
  | textOver (group entry : UInt32)
  | areaTrigger (triggerId : UInt32)
  | quest (stage : QuestStage) (objective : UInt32)
  | scene (stage : SceneStage) (param : UInt32)
  -- game objects
  | goLootStateChanged (state : UInt32)
  | goEventInform (eventId : UInt32)
  -- script state
  | dataSet (field value : UInt32)
  | actionDone (eventId : UInt32)
  | timedEventTriggered (id : UInt32)
  | counterSet (counter value : UInt32)
  | eventPhaseChange (mask : PhaseMask)
  /-- Never fires on its own; reached only through the link of another rule. -/
  | link
deriving DecidableEq, Inhabited

namespace Event

def kindId : Event → UInt32
  | updateIc .. => 0
  | updateOoc .. => 1
  | healthPct .. => 2
  | manaPct .. => 3
  | aggro => 4
  | kill .. => 5
  | death => 6
  | evade => 7
  | spellHit .. => 8
  | range .. => 9
  | oocLos .. => 10
  | respawn => 11
  | targetHealthPct .. => 12
  | victimCasting .. => 13
  | friendlyHealth .. => 14
  | friendlyIsCc .. => 15
  | friendlyMissingBuff .. => 16
  | summonedUnit .. => 17
  | targetManaPct .. => 18
  | acceptedQuest .. => 19
  | rewardQuest .. => 20
  | reachedHome => 21
  | receiveEmote .. => 22
  | hasAura .. => 23
  | targetBuffed .. => 24
  | reset => 25
  | icLos .. => 26
  | passengerBoarded => 27
  | passengerRemoved => 28
  | charmed .. => 29
  | spellHitTarget .. => 31
  | damaged .. => 32
  | damagedTarget .. => 33
  | movementInform .. => 34
  | summonDespawned .. => 35
  | corpseRemoved => 36
  | aiInit => 37
  | dataSet .. => 38
  | waypoint .started .. => 39
  | waypoint .reached .. => 40
  | areaTrigger .. => 46
  | quest .accepted _ => 47
  | quest .objectiveCompleted _ => 48
  | quest .completed _ => 49
  | quest .rewarded _ => 50
  | quest .failed _ => 51
  | textOver .. => 52
  | receiveHeal .. => 53
  | justSummoned => 54
  | waypoint .paused .. => 55
  | waypoint .resumed .. => 56
  | waypoint .stopped .. => 57
  | waypoint .ended .. => 58
  | timedEventTriggered .. => 59
  | update .. => 60
  | link => 61
  | gossipSelect .. => 62
  | justCreated => 63
  | gossipHello => 64
  | followCompleted => 65
  | eventPhaseChange .. => 66
  | isBehindTarget => 67
  | goLootStateChanged .. => 70
  | goEventInform .. => 71
  | actionDone .. => 72
  | onSpellclick => 73
  | friendlyHealthPct .. => 74
  | distanceCreature .. => 75
  | distanceGameObject .. => 76
  | counterSet .. => 77
  | scene .started _ => 78
  | scene .triggered _ => 79
  | scene .cancelled _ => 80
  | scene .completed _ => 81
  | summonedUnitDies .. => 82
  | onSpell .cast _ => 83
  | onSpell .failed _ => 84
  | onSpell .started _ => 85
  | onDespawn => 86

def name : Event → String
  | updateIc .. => "update_ic"
  | updateOoc .. => "update_ooc"
  | update .. => "update"
  | healthPct .. => "health_pct"
  | manaPct .. => "mana_pct"
  | targetHealthPct .. => "target_health_pct"
  | targetManaPct .. => "target_mana_pct"
  | range .. => "range"
  | oocLos .. => "ooc_los"
  | icLos .. => "ic_los"
  | isBehindTarget => "is_behind_target"
  | distanceCreature .. => "distance_creature"
  | distanceGameObject .. => "distance_gameobject"
  | friendlyHealth .. => "friendly_health"
  | friendlyHealthPct .. => "friendly_health_pct"
  | friendlyIsCc .. => "friendly_is_cc"
  | friendlyMissingBuff .. => "friendly_missing_buff"
  | hasAura .. => "has_aura"
  | targetBuffed .. => "target_buffed"
  | victimCasting .. => "victim_casting"
  | aggro => "aggro"
  | kill .. => "kill"
  | death => "death"
  | evade => "evade"
  | reachedHome => "reached_home"
  | respawn => "respawn"
  | reset => "reset"
  | charmed .. => "charmed"
  | damaged .. => "damaged"
  | damagedTarget .. => "damaged_target"
  | receiveHeal .. => "receive_heal"
  | spellHit .. => "spellhit"
  | spellHitTarget .. => "spellhit_target"
  | onSpell .. => "on_spell"
  | summonedUnit .. => "summoned_unit"
  | summonDespawned .. => "summon_despawned"
  | summonedUnitDies .. => "summoned_unit_dies"
  | justSummoned => "just_summoned"
  | aiInit => "ai_init"
  | justCreated => "just_created"
  | corpseRemoved => "corpse_removed"
  | onDespawn => "on_despawn"
  | passengerBoarded => "passenger_boarded"
  | passengerRemoved => "passenger_removed"
  | movementInform .. => "movement_inform"
  | waypoint .. => "waypoint"
  | followCompleted => "follow_completed"
  | receiveEmote .. => "receive_emote"
  | acceptedQuest .. => "accepted_quest"
  | rewardQuest .. => "reward_quest"
  | gossipHello => "gossip_hello"
  | gossipSelect .. => "gossip_select"
  | onSpellclick => "on_spellclick"
  | textOver .. => "text_over"
  | areaTrigger .. => "areatrigger"
  | quest .. => "quest"
  | scene .. => "scene"
  | goLootStateChanged .. => "go_loot_state_changed"
  | goEventInform .. => "go_event_inform"
  | dataSet .. => "data_set"
  | actionDone .. => "action_done"
  | timedEventTriggered .. => "timed_event_triggered"
  | counterSet .. => "counter_set"
  | eventPhaseChange .. => "event_phase_change"
  | link => "link"

/-- Polled events are checked on every pass; all others wait for a signal. -/
def isPolled : Event → Bool
  | updateIc .. | updateOoc .. | update .. | healthPct .. | manaPct .. | targetHealthPct ..
  | targetManaPct .. | range .. | oocLos .. | icLos .. | isBehindTarget | distanceCreature ..
  | distanceGameObject .. | friendlyHealth .. | friendlyHealthPct .. | friendlyIsCc ..
  | friendlyMissingBuff .. | hasAura .. | targetBuffed .. | victimCasting .. => true
  | _ => false

/-- Range of the first delay of a timer event. -/
def initialTimer : Event → Option (UInt32 × UInt32)
  | updateIc min max | updateOoc min max | update min max => some (min, max)
  | _ => none

/-- Timer events hold whenever they are due. -/
def isUpdate : Event → Bool
  | updateIc .. | updateOoc .. | update .. => true
  | _ => false

theorem isSome_initialTimer (e : Event) : e.initialTimer.isSome = e.isUpdate := by
  cases e <;> rfl

theorem isPolled_of_isUpdate {e : Event} (h : e.isUpdate = true) : e.isPolled = true := by
  cases e with
  | updateIc | updateOoc | update => rfl
  | _ => cases h

/-- Combat state in which the timer of a polled event advances. -/
def combatGate : Event → CombatGate
  | updateOoc .. | oocLos .. => .outOfCombat
  | updateIc .. | targetHealthPct .. | targetManaPct .. | range .. | icLos .. | isBehindTarget
  | friendlyHealth .. | friendlyHealthPct .. | friendlyIsCc .. | targetBuffed ..
  | victimCasting .. => .inCombat
  | _ => .any

def scope : Event → SourceMask
  | update .. | link => .all
  | updateIc .. => (SourceMask.of .creature).union (.of .timedActionList)
  | updateOoc .. => (SourceMask.worldObject.union (.of .instanceZone)).union (.of .timedActionList)
  | spellHit .. | summonedUnit .. | summonedUnitDies .. | acceptedQuest .. | rewardQuest ..
  | reset | respawn | aiInit | justCreated | dataSet .. | textOver .. | timedEventTriggered ..
  | gossipHello | gossipSelect .. | eventPhaseChange .. | counterSet .. => .worldObject
  | goLootStateChanged .. | goEventInform .. => .of .gameObject
  | areaTrigger .. => .of .areaTrigger
  | quest .. => .of .quest
  | scene .. => .of .scene
  | _ => .of .creature

end Event

end TriggerScript
