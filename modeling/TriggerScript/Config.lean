import TriggerScript.Files
import TriggerScript.Toml

/-!
# Configuration

Settings of the interpreter and of the tool, as they are kept in a TOML document.
-/

namespace TriggerScript

structure EngineConfig where
  maxLinkDepth : UInt8 := 16
  /-- Seed of the random draws. Without one the draws cannot be repeated. -/
  rngSeed : Option UInt64 := none
  debugRules : Bool := false
  maxTimedLists : UInt64 := 8
deriving DecidableEq

def EngineConfig.ofData? (d : Data) : Option EngineConfig := do
  let cols ← d.columns? ["max_link_depth", "rng_seed", "debug_rules", "max_timed_lists"]
  some
    { maxLinkDepth := ← cols.withDefault "max_link_depth" 16 Data.byte?
      rngSeed := ← cols.optional "rng_seed" Data.long?
      debugRules := ← cols.withDefault "debug_rules" false Data.flag?
      maxTimedLists := ← cols.withDefault "max_timed_lists" 8 Data.long? }

def EngineConfig.seeded (c : EngineConfig) (seed : UInt64) : EngineConfig :=
  { c with rngSeed := c.rngSeed.or (some seed) }

structure AppConfig where
  rulesDirectory : String := ""
  /-- Length of a tick of the simulation unless one is given. -/
  tickMs : UInt32 := 100
  engine : EngineConfig := {}
deriving DecidableEq

inductive ConfigError where
  | missingRulesDirectory (path : String)
  | invalidTick
  | save
deriving DecidableEq

def ConfigError.message : ConfigError → String
  | missingRulesDirectory path => "rules directory " ++ path ++ " does not exist"
  | invalidTick => "tick must be at least 1 ms"
  | save => "failed to save configuration"

namespace AppConfig

def ofData? (d : Data) : Option AppConfig := do
  let cols ← d.columns? ["rules_directory", "tick_ms", "engine"]
  some
    { rulesDirectory := ← cols.withDefault "rules_directory" "" Data.text?
      tickMs := ← cols.withDefault "tick_ms" 100 Data.word?
      engine := ← cols.withDefault "engine" {} EngineConfig.ofData? }

def parse? (text : String) : Option AppConfig := (Toml.parse? text).bind ofData?

def setTick (c : AppConfig) (tickMs : UInt32) : Except ConfigError AppConfig :=
  if tickMs = 0 then .error .invalidTick else .ok { c with tickMs }

/-- Look for rules in an existing directory from now on. -/
def setRulesDirectory (c : AppConfig) (files : FileTree) (path : String) :
    Except ConfigError AppConfig :=
  if (files.directory? path).isSome then .ok { c with rulesDirectory := path }
  else .error (.missingRulesDirectory path)

end AppConfig

end TriggerScript
