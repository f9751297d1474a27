import TriggerScript.Event
import TriggerScript.RuleError

/-!
# Decoding events

A table row gives an event as a kind number and up to four words.
-/

namespace TriggerScript

def orderedRange (kind : String) (min max : UInt32) : Except RuleError (UInt32 × UInt32) :=
  if min > max then .error (.invalidParam kind (.minAboveMax min max)) else .ok (min, max)

def percentRange (kind : String) (min max : UInt32) : Except RuleError (UInt32 × UInt32) := do
  let (min, max) ← orderedRange kind min max
  if max > 100 then .error (.invalidParam kind (.maxAbovePercent max)) else .ok (min, max)

def LosHostility.decode (kind : String) (mode : UInt32) : Except RuleError LosHostility :=
  match mode with
  | 0 => .ok .hostile
  | 1 => .ok .notHostile
  | 2 => .ok .any
  | mode => .error (.invalidParam kind (.hostilityMode mode))

def Event.decode (kind p1 p2 p3 _p4 : UInt32) : Except RuleError Event :=
  match kind with
  | 0 => do let (min, max) ← orderedRange "update_ic" p1 p2; .ok (.updateIc min max)
  | 1 => do let (min, max) ← orderedRange "update_ooc" p1 p2; .ok (.updateOoc min max)
  | 2 => do let (min, max) ← percentRange "health_pct" p1 p2; .ok (.healthPct min max)
  | 3 => do let (min, max) ← percentRange "mana_pct" p1 p2; .ok (.manaPct min max)
  | 4 => .ok .aggro
  | 5 => .ok (.kill (p1 != 0) p2)
  | 6 => .ok .death
  | 7 => .ok .evade
  | 8 => .ok (.spellHit p1 p2)
  | 9 => do let (min, max) ← orderedRange "range" p1 p2; .ok (.range min max)
  | 10 => do let h ← LosHostility.decode "ooc_los" p1; .ok (.oocLos h p2 (p3 != 0))
  | 11 => .ok .respawn
  | 12 => do
      let (min, max) ← percentRange "target_health_pct" p1 p2
      .ok (.targetHealthPct min max)
  | 13 => .ok (.victimCasting p1)
  | 14 => .ok (.friendlyHealth p1 p2)
  | 15 => .ok (.friendlyIsCc p1)
  | 16 => .ok (.friendlyMissingBuff p1 p2)
  | 17 => .ok (.summonedUnit p1)
  | 18 => do
      let (min, max) ← percentRange "target_mana_pct" p1 p2
      .ok (.targetManaPct min max)
  | 19 => .ok (.acceptedQuest p1)
  | 20 => .ok (.rewardQuest p1)
  | 21 => .ok .reachedHome
  | 22 => .ok (.receiveEmote p1)
  | 23 => .ok (.hasAura p1 p2)
  | 24 => .ok (.targetBuffed p1 (if p2 = 0 then 1 else p2))
  | 25 => .ok .reset
  | 26 => do let h ← LosHostility.decode "ic_los" p1; .ok (.icLos h p2 (p3 != 0))
  | 27 => .ok .passengerBoarded
  | 28 => .ok .passengerRemoved
  | 29 => .ok (.charmed (p1 != 0))
  | 31 => .ok (.spellHitTarget p1 p2)
  | 32 => do let (min, max) ← orderedRange "damaged" p1 p2; .ok (.damaged min max)
  | 33 => do let (min, max) ← orderedRange "damaged_target" p1 p2; .ok (.damagedTarget min max)
  | 34 => .ok (.movementInform p1 p2)
  | 35 => .ok (.summonDespawned p1)
  | 36 => .ok .corpseRemoved
  | 37 => .ok .aiInit
  | 38 => .ok (.dataSet p1 p2)
  | 39 => .ok (.waypoint .started p1 p2)
  | 40 => .ok (.waypoint .reached p1 p2)
  | 46 => .ok (.areaTrigger p1)
  | 47 => .ok (.quest .accepted 0)
  | 48 => .ok (.quest .objectiveCompleted p1)
  | 49 => .ok (.quest .completed 0)
  | 50 => .ok (.quest .rewarded 0)
  | 51 => .ok (.quest .failed 0)
  | 52 => .ok (.textOver p1 p2)
  | 53 => do let (min, max) ← orderedRange "receive_heal" p1 p2; .ok (.receiveHeal min max)
  | 54 => .ok .justSummoned
  | 55 => .ok (.waypoint .paused p1 p2)
  | 56 => .ok (.waypoint .resumed p1 p2)
  | 57 => .ok (.waypoint .stopped p1 p2)
  | 58 => .ok (.waypoint .ended p1 p2)
  | 59 => .ok (.timedEventTriggered p1)
  | 60 => do let (min, max) ← orderedRange "update" p1 p2; .ok (.update min max)
  | 61 => .ok .link
  | 62 => .ok (.gossipSelect p1 p2)
  | 63 => .ok .justCreated
  | 64 => .ok .gossipHello
  | 65 => .ok .followCompleted
  | 66 =>
      match (PhaseMask.ofBits? p1).filter fun m => !m.isEmpty with
      | some mask => .ok (.eventPhaseChange mask)
      | none => .error (.invalidParam "event_phase_change" (.phaseMask p1))
  | 67 => .ok .isBehindTarget
  | 70 => .ok (.goLootStateChanged p1)
  | 71 => .ok (.goEventInform p1)
  | 72 => .ok (.actionDone p1)
  | 73 => .ok .onSpellclick
  | 74 => do
      let (min, max) ← percentRange "friendly_health_pct" p1 p2
      .ok (.friendlyHealthPct min max p3)
  | 75 =>
      if p1 = 0 ∧ p2 = 0 then .error (.invalidParam "distance_creature" .guidOrEntryMissing)
      else .ok (.distanceCreature p1 p2 p3)
  | 76 =>
      if p1 = 0 ∧ p2 = 0 then .error (.invalidParam "distance_gameobject" .guidOrEntryMissing)
      else .ok (.distanceGameObject p1 p2 p3)
  | 77 => .ok (.counterSet p1 p2)
  | 78 => .ok (.scene .started 0)
  | 79 => .ok (.scene .triggered p1)
  | 80 => .ok (.scene .cancelled 0)
  | 81 => .ok (.scene .completed p1)
  | 82 => .ok (.summonedUnitDies p1)
  | 83 => .ok (.onSpell .cast p1)
  | 84 => .ok (.onSpell .failed p1)
  | 85 => .ok (.onSpell .started p1)
  | 86 => .ok .onDespawn
  | kind => .error (.unknownEventKind kind)

end TriggerScript
