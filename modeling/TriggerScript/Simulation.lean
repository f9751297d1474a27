import TriggerScript.Script

/-!
# Simulation

A world with a script for every spawned creature that has rules. Scripts run in the order of their
handles.
-/

namespace TriggerScript

structure Simulation where
  store : Store
  engine : EngineConfig
  world : World := .empty
  scripts : Std.ExtTreeMap Handle Script := ∅
  clockMs : UInt64 := 0

namespace Simulation

def script? (s : Simulation) (h : Handle) : Option Script := s.scripts[h]?

def scripted (s : Simulation) : List Handle := s.scripts.keys

/-- Take over a script and the world after a pass of it. -/
def update (s : Simulation) (h : Handle) (p : Progress) : List Fired × Simulation :=
  (p.fired, { s with world := p.world, scripts := s.scripts.insert h p.script })

/-- Give an entity the script of its spawn, if the store has rules for it, and run its first
pass. -/
def attach (s : Simulation) (h : Handle) (entry : UInt32) : List Fired × Simulation :=
  match s.store.forSpawn? .creature entry h with
  | none => ([], s)
  | some rules =>
      s.update h ((Script.create h rules s.store s.engine).advance 0 (some .aiInit) s.world)

def spawnCreature (s : Simulation) (entry : UInt32) (position : Position) :
    Handle × List Fired × Simulation :=
  let (h, world) := s.world.spawn .creature entry position
  (h, { s with world }.attach h entry)

def spawnPlayer (s : Simulation) (position : Position) : Handle × Simulation :=
  let (h, world) := s.world.spawn .player 0 position
  (h, { s with world })

/-- Swap the store. Scripts whose entities are still there start over with their new rules. -/
def replaceStore (s : Simulation) (store : Store) : Simulation :=
  let live := s.scripted.filterMap fun h => (s.world.info? h).map fun e => (h, e.entry)
  live.foldl (fun s (h, entry) => (s.attach h entry).2) { s with store, scripts := ∅ }

def signal? (s : Simulation) (h : Handle) (signal : Signal) : Option (List Fired × Simulation) :=
  (s.script? h).map fun script => s.update h (script.advance 0 (some signal) s.world)

def forceFire? (s : Simulation) (h : Handle) (id : RuleId) : Option (List Fired × Simulation) :=
  ((s.script? h).bind fun script => script.forceFire? id s.world).map (s.update h)

/-- Let time pass for all scripts, and drop those of despawned entities. -/
def tick (s : Simulation) (deltaMs : UInt32) : List (Handle × Fired) × Simulation :=
  let (fired, s) := s.scripted.foldl (fun (fired, s) h =>
    match s.script? h with
    | none => (fired, s)
    | some script =>
        let (own, s) := s.update h (script.advance deltaMs none s.world)
        (fired ++ own.map (h, ·), s)) (([] : List (Handle × Fired)), s)
  (fired,
    { s with
      clockMs := s.clockMs + deltaMs.toUInt64
      scripts := s.scripts.filter fun _ script => !script.despawned })

/-- Despawn the script of an entity, then remove the entity. -/
def despawn (s : Simulation) (h : Handle) : List Fired × Simulation :=
  match s.script? h with
  | none => ([], { s with world := s.world.remove h })
  | some script =>
      let p := script.despawn s.world
      (p.fired, { s with world := p.world.remove h, scripts := s.scripts.erase h })

end Simulation

end TriggerScript
