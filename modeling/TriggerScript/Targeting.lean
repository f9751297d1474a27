import TriggerScript.Random.Sample
import TriggerScript.Signal
import TriggerScript.Sorting
import TriggerScript.Target
import TriggerScript.World

/-!
# Resolving targets

A target is resolved for an occasion into distinct entities in a fixed order, or into a position.
Nothing found is a valid answer.
-/

namespace TriggerScript

/-- Whose rule fires, and what made it fire. -/
structure Occasion where
  owner : Handle
  invoker : Option Handle := none
  position : Option Position := none
deriving DecidableEq

structure Targets where
  entities : List Handle := []
  position : Option Position := none
deriving DecidableEq

namespace Targets

/-- Distinct entities in the order of their first occurrences. -/
def ofList (entities : List Handle) : Targets := { entities := entities.eraseDups }

def ofOption (entity : Option Handle) : Targets := ofList entity.toList

def ofPosition (position : Position) : Targets := { position := some position }

def isEmpty (t : Targets) : Bool := t.entities.isEmpty && t.position.isNone

end Targets

namespace World

/-- Whether an entity on the threat list of `owner` passes a filter. -/
def passesFilter (w : World) (owner : Handle) (f : ThreatFilter) (h : Handle) : Bool :=
  match w.info? h with
  | none => false
  | some e =>
      e.alive && (!f.playersOnly || e.isPlayer) &&
        (f.maxDist == 0 ||
          (w.info? owner).any fun o => o.position.distance e.position ≤ f.maxDist.toFloat32)

/-- The threat list by descending threat, equal threat in the order of arrival. -/
def byThreat (w : World) (owner : Handle) : List Handle :=
  (sortStable (fun a b => a.threat > b.threat) (w.threatList owner)).map (·.handle)

def filteredByThreat (w : World) (owner : Handle) (f : ThreatFilter) : List Handle :=
  (w.byThreat owner).filter (w.passesFilter owner f)

/-- Range that a search covers; 0 stands for the default. -/
def searchRange (max : UInt32) : Float32 :=
  (if max = 0 then defaultSearchRange else max).toFloat32

/-- Whether a candidate at a distance comes before another: the closer first, then the lower
handle. -/
def comesFirst (a b : Float32 × Handle) : Bool :=
  a.1 < b.1 || (!(b.1 < a.1) && a.2 < b.2)

/-- Entities around `owner` at a distance from `min` to `max` that `keep` accepts, closest first.
The owner is left out. -/
def around (w : World) (owner : Handle) (min max : UInt32) (keep : EntityInfo → Bool) :
    List Handle :=
  match w.info? owner with
  | none => []
  | some me =>
      let candidates := (w.near me.position (searchRange max)).filter fun e =>
        e.handle != owner && keep e
      let measured := candidates.map fun e => (me.position.distance e.position, e.handle)
      let inRange := measured.filter fun m => m.1 ≥ min.toFloat32 && m.1 ≤ searchRange max
      (sortStable comesFirst inRange).map (·.2)

/-- Sight counts only where it is asked for. -/
def sees (w : World) (owner : Handle) (inLos : Bool) (e : EntityInfo) : Bool :=
  !inLos || w.inLineOfSight owner e.handle

def isLivingCreature (entry : UInt32) (e : EntityInfo) : Bool :=
  e.kind == .creature && e.alive && anyOr entry e.entry

def isGameObject (entry : UInt32) (e : EntityInfo) : Bool :=
  e.kind == .gameObject && anyOr entry e.entry

def isLivingPlayer (w : World) (owner : Handle) (inLos : Bool) (e : EntityInfo) : Bool :=
  e.isPlayer && e.alive && w.sees owner inLos e

/-- Living units that are hostile to `owner`, or all others. -/
def isLivingUnit (w : World) (owner : Handle) (hostile playersOnly inLos : Bool)
    (e : EntityInfo) : Bool :=
  e.kind.isUnit && e.alive && (!playersOnly || e.isPlayer) &&
    (w.isHostile owner e.handle == hostile) && w.sees owner inLos e

/-- The entity with a guid, when it lives and has the kind and entry asked for. -/
def byGuid (w : World) (guid entry : UInt32) (kind : EntityKind) : Targets :=
  .ofOption (((w.info? guid.toUInt64).filter fun e =>
    e.kind == kind && e.alive && anyOr entry e.entry).map (·.handle))

end World

/-- At most `maxSize` random members of a list, in its order; 0 keeps all. -/
def trim (found : List Handle) (maxSize : UInt32) (g : Rng) : List Handle × Rng :=
  if maxSize = 0 ∨ found.length ≤ maxSize.toNat then (found, g)
  else
    let (picked, g) := g.sample found.length maxSize.toNat
    ((sortStable (fun a b => decide (a < b)) picked).filterMap (found[·]?), g)

/-- The entities or the position of a target. Only random picks draw from the generator. -/
def TargetDescriptor.resolve (d : TargetDescriptor) (o : Occasion) (w : World)
    (stored : Std.ExtTreeMap UInt32 (List Handle)) (g : Rng) : Targets × Rng :=
  match d.target with
  | .none => ({}, g)
  | .owner => (.ofList [o.owner], g)
  | .actionInvoker => (.ofOption (o.invoker.filter w.exists?), g)
  | .actionInvokerVehicle => (.ofOption ((o.invoker.bind w.vehicleOf?).filter w.exists?), g)
  | .invokerParty =>
      match o.invoker.filter w.exists? with
      | none => ({}, g)
      | some invoker =>
          let party := w.partyOf invoker
          (.ofList ((if party.isEmpty then [invoker] else party).filter w.exists?), g)
  | .ownerOrSummoner => (.ofOption ((w.ownerOf? o.owner).filter w.exists?), g)
  | .victim f => (.ofOption ((w.victim? o.owner).filter (w.passesFilter o.owner f)), g)
  | .hostileSecondAggro f => (.ofOption (w.filteredByThreat o.owner f)[1]?, g)
  | .hostileLastAggro f => (.ofOption (w.filteredByThreat o.owner f).getLast?, g)
  | .hostileRandom f =>
      let (pick, g) := g.choose (w.filteredByThreat o.owner f)
      (.ofOption pick, g)
  | .hostileRandomNotTop f =>
      let (pick, g) := g.choose (w.filteredByThreat o.owner f).tail
      (.ofOption pick, g)
  | .threatList f => (.ofList (w.filteredByThreat o.owner f), g)
  | .creatureRange entry min max maxSize =>
      let (found, g) := trim (w.around o.owner min max (World.isLivingCreature entry)) maxSize g
      (.ofList found, g)
  | .creatureDistance entry max maxSize =>
      let (found, g) := trim (w.around o.owner 0 max (World.isLivingCreature entry)) maxSize g
      (.ofList found, g)
  | .gameObjectRange entry min max maxSize =>
      let (found, g) := trim (w.around o.owner min max (World.isGameObject entry)) maxSize g
      (.ofList found, g)
  | .gameObjectDistance entry max maxSize =>
      let (found, g) := trim (w.around o.owner 0 max (World.isGameObject entry)) maxSize g
      (.ofList found, g)
  | .playerRange min max maxSize inLos =>
      let (found, g) := trim (w.around o.owner min max (w.isLivingPlayer o.owner inLos)) maxSize g
      (.ofList found, g)
  | .playerDistance max inLos =>
      (.ofList (w.around o.owner 0 max (w.isLivingPlayer o.owner inLos)), g)
  | .closestCreature entry max dead =>
      (.ofOption (w.around o.owner 0 max fun e =>
        e.kind == .creature && (e.alive || dead) && anyOr entry e.entry).head?, g)
  | .closestGameObject entry max =>
      (.ofOption (w.around o.owner 0 max (World.isGameObject entry)).head?, g)
  | .closestPlayer max inLos =>
      (.ofOption (w.around o.owner 0 max (w.isLivingPlayer o.owner inLos)).head?, g)
  | .closestEnemy max playersOnly inLos =>
      (.ofOption (w.around o.owner 0 max (w.isLivingUnit o.owner true playersOnly inLos)).head?, g)
  | .closestFriendly max playersOnly inLos =>
      (.ofOption (w.around o.owner 0 max (w.isLivingUnit o.owner false playersOnly inLos)).head?, g)
  | .farthest max playersOnly inLos =>
      (.ofOption
        (w.around o.owner 0 max (w.isLivingUnit o.owner true playersOnly inLos)).getLast?, g)
  | .creatureGuid guid entry => (w.byGuid guid entry .creature, g)
  | .gameObjectGuid guid entry => (w.byGuid guid entry .gameObject, g)
  | .position => (.ofPosition (o.position.getD d.literal), g)
  | .stored varId => (.ofList ((stored.getD varId []).filter w.exists?), g)

end TriggerScript
