import TriggerScript.ScriptState
import TriggerScript.Targeting

/-!
# Dispatching actions

A fired rule runs its steps in order. Most actions ask the world for a fixed list of commands; some
decide between commands; actions on script state are staged until the pass ends.
-/

namespace TriggerScript

namespace World

def positionOf? (w : World) (h : Handle) : Option Position := (w.info? h).map (·.position)

/-- Position of an entity, the origin when it is gone. -/
def positionOf (w : World) (h : Handle) : Position := (w.positionOf? h).getD .origin

def players (w : World) (entities : List Handle) : List Handle :=
  entities.filter fun h => (w.info? h).any (·.isPlayer)

end World

namespace Targets

/-- Where summons appear: at the target position, else at every target entity, else at the
owner. -/
def spawnPositions (t : Targets) (w : World) (owner : Handle) : List Position :=
  match t.position with
  | some position => [position]
  | none =>
      let positions := t.entities.filterMap w.positionOf?
      if positions.isEmpty then [w.positionOf owner] else positions

/-- Where a movement leads: to the target position or the first target entity. -/
def destination? (t : Targets) (w : World) : Option Position :=
  t.position.or (t.entities.head?.bind w.positionOf?)

/-- Which way to turn: as the target position does, or towards the first target entity. -/
def orientation? (t : Targets) (w : World) (owner : Handle) : Option Float32 :=
  match t.position with
  | some position => some position.o
  | none => (t.entities.head?.bind w.positionOf?).map (w.positionOf owner).angleTo

end Targets

/-- A number as a parameter of a command, where 0 stands for none. -/
def nonZero? (n : UInt32) : Option UInt32 := if n = 0 then none else some n

/-- The commands of an action whose commands depend on nothing that they change themselves. -/
def Action.commands (w : World) (o : Occasion) (t : Targets) (literal : Position) :
    Action → List Command
  | .talk group duration true => t.entities.map fun h => .talk h o.invoker group duration
  | .talk group duration false => [.talk o.owner (t.entities.head?.or o.invoker) group duration]
  | .simpleTalk group => t.entities.map fun h => .talk h o.invoker group 0
  | .sound id onlySelf =>
      t.entities.map fun h => .playSound h (if onlySelf then some h else .none) id
  | .playEmote emote => t.entities.map (.playEmote · emote)
  | .setEmoteState emote => t.entities.map (.setEmoteState · emote)
  | .morphToEntryOrModel entry model => t.entities.map (.morph · entry model)
  | .setVisibility visible => t.entities.map (.setVisibility · visible)
  | .scenePlay scene => (w.players t.entities).map (.playScene · scene)
  | .sceneCancel scene => (w.players t.entities).map (.cancelScene · scene)
  | .addAura spell => t.entities.map (.addAura · spell)
  | .removeAurasFromSpell spell => t.entities.map (.removeAura · (nonZero? spell))
  | .interruptSpell spell withDelayed =>
      t.entities.map (.interruptCast · (nonZero? spell) withDelayed)
  | .setFaction faction => t.entities.map (.setFaction · faction)
  | .setReactState state => t.entities.map (.setReactState · state)
  | .threatSinglePct inc dec =>
      t.entities.map (.modifyThreat o.owner · (inc.toInt32 - dec.toInt32))
  | .threatAllPct inc dec =>
      (w.threatList o.owner).map fun e =>
        .modifyThreat o.owner e.handle (inc.toInt32 - dec.toInt32)
  | .autoAttack enabled => [.setAutoAttack o.owner enabled]
  | .allowCombatMovement enabled => [.setCombatMovement o.owner enabled]
  | .attackStart => t.entities.head?.toList.map (.attackStart o.owner ·)
  | .attackStop => [.attackStop o.owner]
  | .evade => [.evade o.owner]
  | .fleeForAssist withEmote => [.fleeForAssist o.owner withEmote]
  | .combatStop => [.combatStop o.owner]
  | .callForHelp radius withEmote => [.callForHelp o.owner radius withEmote]
  | .setInCombatWithZone => [.setInCombatWithZone o.owner]
  | .setInvincibilityHpLevel flat percent => [.setInvincibility o.owner flat percent]
  | .die => [.kill o.owner]
  | .killUnit => t.entities.map .kill
  | .forceDespawn delayMs => t.entities.map (.despawn · delayMs)
  | .summonCreature entry summonType durationMs attackInvoker =>
      (t.spawnPositions w o.owner).map fun position =>
        .summonCreature o.owner entry position summonType durationMs
          (if attackInvoker then o.invoker else .none)
  | .summonGameObject entry despawnSecs =>
      (t.spawnPositions w o.owner).map (.summonGameObject o.owner entry · despawnSecs)
  | .activateGameObject => t.entities.map (.activateGameObject · o.invoker)
  | .follow distance angle endEntry =>
      t.entities.head?.toList.map (.follow o.owner · distance angle endEntry)
  | .waypointStart run path repeats => [.waypoint o.owner (.start path run repeats)]
  | .waypointPause delayMs => [.waypoint o.owner (.pause delayMs)]
  | .waypointStop despawnMs => [.waypoint o.owner (.stop despawnMs)]
  | .waypointResume => [.waypoint o.owner .resume]
  | .setRun run => [.setRun o.owner run]
  | .teleport map => t.entities.map (.teleport · map (t.position.getD literal))
  | .moveToPosition pointId => (t.destination? w).toList.map (.moveTo o.owner pointId ·)
  | .jumpToPosition speedXy speedZ =>
      (t.destination? w).toList.map (.jumpTo o.owner · speedXy speedZ)
  | .randomMove radius => [.randomMove o.owner radius]
  | .setOrientation => (t.orientation? w o.owner).toList.map (.setOrientation o.owner ·)
  | .setHomePosition => [.setHomePosition o.owner (t.position.getD (w.positionOf o.owner))]
  | .setRoot rooted => t.entities.map (.setRoot · rooted)
  | .failQuest quest => (w.players t.entities).map (.failQuest · quest)
  | .offerQuest quest directAdd => (w.players t.entities).map (.offerQuest · quest directAdd)
  | .callKilledMonster entry => (w.players t.entities).map (.killedMonster · entry)
  | .setInstanceData field value => [.setInstanceData o.owner field value]
  | .setData field value => t.entities.map (.setData · field value o.owner)
  | .setActive active => t.entities.map (.setActive · active)
  | .setPower powerType value => t.entities.map (.power · powerType .set value)
  | .addPower powerType value => t.entities.map (.power · powerType .add value)
  | .removePower powerType value => t.entities.map (.power · powerType .remove value)
  | _ => []

/-- The phase number raised and lowered within 0 and the highest phase. -/
def shiftPhase (current inc dec : UInt8) : UInt8 :=
  UInt8.ofNat (min (current.toNat + inc.toNat - dec.toNat) maxPhase.toNat)

namespace Staged

def enterPhase (phase : UInt8) (s : Staged) : Staged := { s with phase := some (.single phase) }

def changeCounter (op : CounterOp) (s : Staged) : Staged :=
  { s with counters := s.counters ++ [op] }

def changeTimedEvent (op : TimedEventOp) (s : Staged) : Staged :=
  { s with timedEvents := s.timedEvents ++ [op] }

def startList (request : ListRequest) (s : Staged) : Staged :=
  { s with lists := s.lists ++ [request] }

def requestReset (s : Staged) : Staged := { s with reset := true }

end Staged

/-- The change that an action on script state stages. Other actions stage nothing. -/
def Action.staging (a : Action) (invoker : Option Handle) (pending : PhaseMask) (g : Rng) :
    (Staged → Staged) × Rng :=
  let start := fun (listId : UInt32) (mode : CombatGate) (allowOverride : Bool) =>
    Staged.startList { listId, mode, allowOverride, invoker }
  match a with
  | .setEventPhase phase => (.enterPhase phase, g)
  | .incEventPhase inc dec => (.enterPhase (shiftPhase pending.currentPhase inc dec), g)
  | .randomPhase phases =>
      let (phase, g) := g.choose phases
      (phase.elim id .enterPhase, g)
  | .randomPhaseRange min max =>
      let (phase, g) := g.roll min.toUInt32 max.toUInt32
      (.enterPhase phase.toUInt8, g)
  | .setCounter counter value reset => (.changeCounter { counter, value, reset }, g)
  | .createTimedEvent id initialMin initialMax repeatMin repeatMax chance =>
      let (nextFireAt, g) := g.roll initialMin initialMax
      let repeats : Option (UInt32 × UInt32) :=
        if repeatMax = 0 then .none else some (repeatMin, repeatMax)
      (.changeTimedEvent (.create id { elapsed := 0, nextFireAt, repeats, chance }), g)
  | .triggerTimedEvent id => (.changeTimedEvent (.trigger id), g)
  | .removeTimedEvent id => (.changeTimedEvent (.remove id), g)
  | .callScriptReset => (.requestReset, g)
  | .callTimedActionList listId mode allowOverride => (start listId mode allowOverride, g)
  | .callRandomTimedActionList lists =>
      let (listId, g) := g.choose lists
      (listId.elim id fun listId => start listId .any false, g)
  | .callRandomRangeTimedActionList min max =>
      let (listId, g) := g.roll min max
      (start listId .any false, g)
  | _ => (id, g)

/-- World, script state and draws while the steps of a rule run. -/
structure Dispatch where
  world : World
  state : ScriptState
  rng : Rng
  /-- Commands that the world accepted. -/
  performed : Nat := 0

namespace Dispatch

/-- Ask the world for one effect. A failure changes nothing for the steps that follow. -/
def perform (d : Dispatch) (c : Command) : Dispatch :=
  match d.world.perform c with
  | (.ok (), world) => { d with world, performed := d.performed + 1 }
  | (.error _, world) => { d with world }

def performAll (d : Dispatch) (cs : List Command) : Dispatch := cs.foldl perform d

def resolve (d : Dispatch) (o : Occasion) (t : TargetDescriptor) : Targets × Dispatch :=
  let (targets, rng) := t.resolve o d.world d.state.stored d.rng
  (targets, { d with rng })

/-- One cast. A target that has the aura may be left out, and the caster may have to interrupt what
it is casting. -/
def cast (spell : UInt32) (flags : CastFlags) (d : Dispatch) (caster target : Handle) : Dispatch :=
  if flags.contains .auraNotPresent && d.world.auraStacks target spell > 0 then d
  else
    let d :=
      if flags.contains .interruptPrevious && (d.world.casting? caster).isSome then
        d.perform (.interruptCast caster none false)
      else d
    d.perform (.castSpell caster target spell (flags.contains .triggered)
      (flags.contains .combatMove))

/-- Each target plays an emote of its own choice. -/
def playRandomEmote (emotes : List UInt32) (d : Dispatch) (h : Handle) : Dispatch :=
  let (emote, rng) := d.rng.choose emotes
  { d with rng }.performAll (emote.toList.map (.playEmote h ·))

def run (o : Occasion) (t : Targets) (literal : Position) (a : Action) (d : Dispatch) : Dispatch :=
  match a with
  | .randomEmote emotes => t.entities.foldl (playRandomEmote emotes) d
  | .cast spell flags => t.entities.foldl (fun d h => cast spell flags d o.owner h) d
  | .selfCast spell flags => t.entities.foldl (fun d h => cast spell flags d h h) d
  | .crossCast spell flags casters =>
      let (casters, d) := d.resolve o casters
      casters.entities.foldl (fun d caster =>
        t.entities.foldl (fun d h => cast spell flags d caster h) d) d
  | .storeTargetList varId =>
      { d with state := { d.state with stored := d.state.stored.insert varId t.entities } }
  | a =>
      let (change, rng) := a.staging o.invoker d.state.pendingPhase d.rng
      { d with state := d.state.stage change, rng }.performAll (a.commands d.world o t literal)

/-- Run one step of a rule, unless its action needs targets and has none. -/
def runStep (o : Occasion) (rule : Rule) (shared : Targets) (d : Dispatch) (step : ActionStep) :
    Dispatch :=
  match step.target with
  | none =>
      if step.action.needsTargets && shared.isEmpty then d
      else run o shared rule.target.literal step.action d
  | some target =>
      let (targets, d) := d.resolve o target
      if step.action.needsTargets && targets.isEmpty then d
      else run o targets target.literal step.action d

/-- Run all steps of a rule. Its target is resolved once, before the first step. -/
def execute (o : Occasion) (rule : Rule) (d : Dispatch) : Dispatch :=
  let (shared, d) := d.resolve o rule.target
  rule.actions.foldl (runStep o rule shared) d

end Dispatch

end TriggerScript
