import Std.Data.ExtTreeMap
import TriggerScript.Command
import TriggerScript.Flags
import TriggerScript.Saturating

/-!
# The world

Entities by handle, with the parties, sight lines and difficulty around them. The world keeps a
log of every command it was asked to perform, and applies those that change what rules observe.
-/

namespace TriggerScript

structure ThreatEntry where
  handle : Handle
  threat : Float32
deriving DecidableEq, Inhabited

structure Entity where
  info : EntityInfo
  /-- 0 is neutral to everyone. -/
  faction : UInt32
  inCombat : Bool := false
  charmed : Bool := false
  casting : Option UInt32 := none
  auras : Std.ExtTreeMap UInt32 UInt32 := ∅
  crowdControlled : Bool := false
  /-- Threat in the order of arrival. -/
  threat : List ThreatEntry := []
  owner : Option Handle := none
  vehicle : Option Handle := none

structure World where
  entities : Std.ExtTreeMap Handle Entity := ∅
  parties : List (List Handle) := []
  blockedSight : List (Handle × Handle) := []
  difficulty : Option Difficulty := none
  nextHandle : Handle := 1
  /-- Commands asked for, oldest first. -/
  log : List Command := []
  refused : List String := []
  /-- A stack was added to an aura that had as many as a word can count. The program stops there;
  the world stays as it was, and nothing that is said of it later is an answer of the program. -/
  overflowed : Bool := false

/-- The count of stacks to which no further one can be added. -/
def fullCount : UInt32 := 0xFFFFFFFF

/-- Faction of spawned creatures, hostile to players. -/
def hostileFaction : UInt32 := 14

def playerFaction : UInt32 := 1

def EntityKind.defaultFaction : EntityKind → UInt32
  | .creature => hostileFaction
  | .player => playerFaction
  | .gameObject | .areaTrigger => 0

/-- Appends the target to a threat list, or raises its threat. -/
def raiseThreat (target : Handle) (amount : Float32) : List ThreatEntry → List ThreatEntry
  | [] => [⟨target, amount⟩]
  | t :: ts =>
      if t.handle = target then { t with threat := t.threat + amount } :: ts
      else t :: raiseThreat target amount ts

namespace Entity

def spawned (handle : Handle) (kind : EntityKind) (entry : UInt32) (position : Position) :
    Entity where
  info :=
    { handle, entry, kind, position, alive := true
      health := 100, maxHealth := 100, power := 100, maxPower := 100 }
  faction := kind.defaultFaction

/-- Health as a share of the maximum; shares above 100 count as 100. -/
def withHealthPct (pct : UInt32) (e : Entity) : Entity :=
  { e with info.health := UInt32.ofNat (e.info.maxHealth.toNat * min pct.toNat 100 / 100) }

def withPowerPct (pct : UInt32) (e : Entity) : Entity :=
  { e with info.power := UInt32.ofNat (e.info.maxPower.toNat * min pct.toNat 100 / 100) }

/-- Leaving combat forgets all threat. -/
def withCombat (fighting : Bool) (e : Entity) : Entity :=
  { e with inCombat := fighting, threat := if fighting then e.threat else [] }

def withAlive (alive : Bool) (e : Entity) : Entity :=
  { e with info.alive := alive, info.health := if alive then e.info.maxHealth else 0 }

/-- A count of 0 removes the aura. -/
def withAura (spell count : UInt32) (e : Entity) : Entity :=
  { e with auras := if count = 0 then e.auras.erase spell else e.auras.insert spell count }

def withThreat (target : Handle) (amount : Float32) (e : Entity) : Entity :=
  { e with inCombat := true, threat := raiseThreat target amount e.threat }

def killed (e : Entity) : Entity :=
  { e with info.alive := false, info.health := 0, inCombat := false }

/-- Stacks of an aura, 0 without it. -/
def auraStacks (e : Entity) (spell : UInt32) : UInt32 := e.auras.getD spell 0

/-- Add a stack to an aura. A full count stays full. -/
def stacked (spell : UInt32) (e : Entity) : Entity :=
  { e with auras := e.auras.insert spell (addSat (e.auraStacks spell) 1) }

end Entity

namespace World

def empty : World := {}

def find? (w : World) (h : Handle) : Option Entity := w.entities[h]?

def exists? (w : World) (h : Handle) : Bool := (w.find? h).isSome

def handles (w : World) : List Handle := w.entities.keys

/-- Change one entity; nothing happens when it is gone. -/
def modify (w : World) (h : Handle) (change : Entity → Entity) : World :=
  { w with entities := w.entities.modify h change }

def remove (w : World) (h : Handle) : World := { w with entities := w.entities.erase h }

def spawn (w : World) (kind : EntityKind) (entry : UInt32) (position : Position) :
    Handle × World :=
  let h := w.nextHandle
  (h, { w with
    entities := w.entities.insert h (.spawned h kind entry position)
    nextHandle := h + 1 })

def addParty (w : World) (members : List Handle) : World :=
  { w with parties := w.parties ++ [members] }

def blockSight (w : World) (a b : Handle) : World :=
  { w with blockedSight := (a, b) :: w.blockedSight }

def setDifficulty (w : World) (difficulty : Option Difficulty) : World := { w with difficulty }

/-- From now on every command of this name fails. -/
def refuse (w : World) (command : String) : World := { w with refused := command :: w.refused }

def takeLog (w : World) : List Command × World := (w.log, { w with log := [] })

def info? (w : World) (h : Handle) : Option EntityInfo := (w.find? h).map (·.info)

def inCombat (w : World) (h : Handle) : Bool := (w.find? h).any (·.inCombat)

def charmed (w : World) (h : Handle) : Bool := (w.find? h).any (·.charmed)

def casting? (w : World) (h : Handle) : Option UInt32 := (w.find? h).bind (·.casting)

def crowdControlled (w : World) (h : Handle) : Bool := (w.find? h).any (·.crowdControlled)

def auraStacks (w : World) (h : Handle) (spell : UInt32) : UInt32 :=
  (w.find? h).elim 0 (·.auraStacks spell)

/-- Threat list of an entity in the order of arrival. -/
def threatList (w : World) (h : Handle) : List ThreatEntry := (w.find? h).elim [] (·.threat)

def ownerOf? (w : World) (h : Handle) : Option Handle := (w.find? h).bind (·.owner)

def vehicleOf? (w : World) (h : Handle) : Option Handle := (w.find? h).bind (·.vehicle)

/-- The first party that has the entity as a member; empty when there is none. -/
def partyOf (w : World) (h : Handle) : List Handle :=
  (w.parties.find? (·.contains h)).getD []

/-- The earliest entry with the greatest threat. -/
def topThreat : List ThreatEntry → Option ThreatEntry :=
  List.foldl (fun best t =>
    match best with
    | none => some t
    | some b => if t.threat > b.threat then some t else some b) none

/-- The entity that another one attacks: the top of its threat list. -/
def victim? (w : World) (h : Handle) : Option Handle := (topThreat (w.threatList h)).map (·.handle)

/-- Entities, living or not, within `radius` of a point, by handle. -/
def near (w : World) (center : Position) (radius : Float32) : List EntityInfo :=
  (w.entities.values.map (·.info)).filter fun e => e.position.distance center ≤ radius

def inLineOfSight (w : World) (a b : Handle) : Bool := !w.blockedSight.contains (a, b)

/-- Units of different, non-neutral factions are hostile. -/
def isHostile (w : World) (a b : Handle) : Bool :=
  match w.find? a, w.find? b with
  | some a, some b =>
      a.info.kind.isUnit && b.info.kind.isUnit && a.faction != 0 && b.faction != 0 &&
        a.faction != b.faction
  | _, _ => false

def require (w : World) (h : Handle) : Except CommandFailure Unit :=
  if w.exists? h then .ok () else .error (.noSuchEntity h)

def changing (w : World) (h : Handle) (change : Entity → Entity) : Except CommandFailure World :=
  if w.exists? h then .ok (w.modify h change) else .error (.noSuchEntity h)

/-- The world when a stack is to be added to an aura: it overflows if the count is full. -/
def stacking (w : World) (h : Handle) (spell : UInt32) : World :=
  { w with overflowed := w.overflowed || w.auraStacks h spell == fullCount }

/-- The effect of a command on what rules observe. -/
def apply (w : World) : Command → Except CommandFailure World
  | .kill target => w.changing target .killed
  | .despawn target _ => do w.require target; .ok (w.remove target)
  | .teleport target _ position => w.changing target fun e => { e with info.position := position }
  | .addAura target spell => (w.stacking target spell).changing target (.stacked spell)
  | .removeAura target (some spell) =>
      w.changing target fun e => { e with auras := e.auras.erase spell }
  | .removeAura target none => w.changing target fun e => { e with auras := ∅ }
  | .setFaction target faction => w.changing target fun e => { e with faction }
  | .interruptCast actor spell _ =>
      w.changing actor fun e =>
        { e with casting := if spell.isNone || e.casting == spell then none else e.casting }
  | .castSpell caster target .. => do w.require caster; w.require target; .ok w
  | .summonCreature summoner entry position .. => do
      w.require summoner
      let (summon, w) := w.spawn .creature entry position
      .ok (w.modify summon fun e => { e with owner := some summoner })
  | _ => .ok w

def record (w : World) (c : Command) : World := { w with log := w.log ++ [c] }

/-- Ask the world for an effect. The command enters the log whether it succeeds or not. -/
def perform (w : World) (c : Command) : Except CommandFailure Unit × World :=
  if w.refused.contains c.name then (.error (.rejected c.name), w.record c)
  else
    match w.apply c with
    | .ok changed => (.ok (), changed.record c)
    | .error failure => (.error failure, w.record c)

end World

end TriggerScript
