import TriggerScript.Targeting

/-!
# Polled conditions

Whether a polled event holds for an entity, and through whom. Scans look at the entities near the
owner and name the one that ranks first by a strict order, so they do not depend on the order of
enumeration.
-/

namespace TriggerScript

/-- A condition that holds, with the unit through which it does. -/
structure Hit where
  invoker : Option Handle := none
deriving DecidableEq

/-- A hit without an invoker if the condition holds. -/
def Hit.bare (holds : Bool) : Option Hit := if holds then some {} else none

/-- A hit through a unit if the condition holds. -/
def Hit.by (h : Handle) (holds : Bool) : Option Hit := if holds then some ⟨some h⟩ else none

def inPercent (value min max : UInt32) : Bool := value ≥ min && value ≤ max

/-- The element that no other one ranks before; of equals the first. -/
def leastBy {α : Type} (before : α → α → Bool) : List α → Option α
  | [] => none
  | x :: xs => some (xs.foldl (fun best y => if before y best then y else best) x)

/-- What scans see around an entity. The entities near a position come in any order. -/
structure Surroundings where
  near : Position → Float32 → List EntityInfo
  inLineOfSight : Handle → Handle → Bool
  isHostile : Handle → Handle → Bool
  crowdControlled : Handle → Bool
  auraStacks : Handle → UInt32 → UInt32

/-- Whether an entity comes before another one: by its rank, at equal rank by the lower handle. -/
def comesBefore (outranks : EntityInfo → EntityInfo → Bool) (a b : EntityInfo) : Bool :=
  outranks a b || (!outranks b a && a.handle < b.handle)

def isCloser (me a b : EntityInfo) : Bool :=
  me.position.distance a.position < me.position.distance b.position

namespace Surroundings

/-- The entity around `me` that comes first among those that `keep` accepts. -/
def first? (s : Surroundings) (me : EntityInfo) (range : Float32)
    (outranks : EntityInfo → EntityInfo → Bool) (keep : EntityInfo → Bool) : Option Hit :=
  (leastBy (comesBefore outranks) ((s.near me.position range).filter keep)).map fun e =>
    ⟨some e.handle⟩

/-- Units in the sight of `me`, players and units of the hostility asked for. -/
def isInSight (s : Surroundings) (me : EntityInfo) (hostility : LosHostility) (playerOnly : Bool)
    (e : EntityInfo) : Bool :=
  e.handle != me.handle && e.kind.isUnit && e.alive && (!playerOnly || e.isPlayer) &&
    s.inLineOfSight me.handle e.handle &&
      match hostility with
      | .hostile => s.isHostile me.handle e.handle
      | .notHostile => !s.isHostile me.handle e.handle
      | .any => true

/-- Living entities of a kind and entry, without `me`. -/
def isOther (me : EntityInfo) (kind : EntityKind) (entry : UInt32) (e : EntityInfo) : Bool :=
  e.handle != me.handle && e.kind == kind && e.alive && e.entry == entry

/-- Living units that are not hostile to `me`, itself among them. -/
def isFriend (s : Surroundings) (me e : EntityInfo) : Bool :=
  e.kind.isUnit && e.alive && (e.handle == me.handle || !s.isHostile me.handle e.handle)

/-- The hit of an event that is about the closest, the most needy or the first entity around `me`.
The other events scan nothing. -/
def scan? (s : Surroundings) (me : EntityInfo) : Event → Option Hit
  | .oocLos hostility maxRange playerOnly | .icLos hostility maxRange playerOnly =>
      s.first? me (World.searchRange maxRange) (isCloser me) (s.isInSight me hostility playerOnly)
  | .distanceCreature _ entry distance =>
      s.first? me distance.toFloat32 (isCloser me) (isOther me .creature entry)
  | .distanceGameObject _ entry distance =>
      s.first? me distance.toFloat32 (isCloser me) (isOther me .gameObject entry)
  | .friendlyHealth hpDeficit radius =>
      s.first? me (World.searchRange radius) (fun a b => a.healthDeficit > b.healthDeficit) fun e =>
        s.isFriend me e && e.healthDeficit ≥ hpDeficit && e.healthDeficit > 0
  | .friendlyHealthPct min max radius =>
      s.first? me (World.searchRange radius) (fun a b => a.healthPct < b.healthPct) fun e =>
        s.isFriend me e && inPercent e.healthPct min max
  | .friendlyIsCc radius =>
      s.first? me (World.searchRange radius) (fun _ _ => false) fun e =>
        s.isFriend me e && s.crowdControlled e.handle
  | .friendlyMissingBuff spell radius =>
      s.first? me (World.searchRange radius) (fun _ _ => false) fun e =>
        s.isFriend me e && s.auraStacks e.handle spell == 0
  | _ => none

end Surroundings

namespace World

def surroundings (w : World) : Surroundings where
  near := w.near
  inLineOfSight := w.inLineOfSight
  isHostile := w.isHostile
  crowdControlled := w.crowdControlled
  auraStacks := w.auraStacks

def livingVictim? (w : World) (owner : Handle) : Option EntityInfo :=
  ((w.victim? owner).bind w.info?).filter (·.alive)

/-- Whether the entity with a guid is within a distance. -/
def within? (w : World) (me : EntityInfo) (kind : EntityKind) (guid distance : UInt32) :
    Option Hit :=
  (w.info? guid.toUInt64).bind fun e =>
    Hit.by e.handle (e.kind == kind && e.alive &&
      me.position.distance e.position ≤ distance.toFloat32)

/-- Check a polled event for an existing entity. Pushed events never hold. -/
def holds? (w : World) (owner : Handle) (event : Event) : Option Hit :=
  (w.info? owner).bind fun me =>
    match event with
    | .updateIc .. | .updateOoc .. | .update .. => some {}
    | .healthPct min max => Hit.bare (inPercent me.healthPct min max)
    | .manaPct min max => Hit.bare (inPercent me.powerPct min max)
    | .targetHealthPct min max =>
        (w.livingVictim? owner).bind fun v => Hit.by v.handle (inPercent v.healthPct min max)
    | .targetManaPct min max =>
        (w.livingVictim? owner).bind fun v => Hit.by v.handle (inPercent v.powerPct min max)
    | .range min max =>
        (w.livingVictim? owner).bind fun v =>
          let distance := me.position.distance v.position
          Hit.by v.handle (distance ≥ min.toFloat32 && distance ≤ max.toFloat32)
    | .isBehindTarget =>
        (w.livingVictim? owner).bind fun v => Hit.by v.handle (v.position.isBehind me.position)
    | .distanceCreature guid entry distance =>
        if guid ≠ 0 then w.within? me .creature guid distance
        else w.surroundings.scan? me (.distanceCreature guid entry distance)
    | .distanceGameObject guid entry distance =>
        if guid ≠ 0 then w.within? me .gameObject guid distance
        else w.surroundings.scan? me (.distanceGameObject guid entry distance)
    | .hasAura spell count =>
        let current := w.auraStacks owner spell
        Hit.bare (if count = 0 then current == 0 else current ≥ count)
    | .targetBuffed spell count =>
        (w.livingVictim? owner).bind fun v =>
          Hit.by v.handle (w.auraStacks v.handle spell ≥ count)
    | .victimCasting spell =>
        (w.livingVictim? owner).bind fun v =>
          (w.casting? v.handle).bind fun casting => Hit.by v.handle (anyOr spell casting)
    | event => w.surroundings.scan? me event

end World

end TriggerScript
