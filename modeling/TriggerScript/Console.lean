import TriggerScript.Config.Text
import TriggerScript.Console.Error
import TriggerScript.Console.Listing
import TriggerScript.Console.Request
import TriggerScript.Console.Words

/-!
# Console

A session with a simulation: every line is a request, answered with lines of text. A request that
fails is answered with its error.
-/

namespace TriggerScript

structure Console where
  files : FileTree
  configPath : String
  config : AppConfig
  simulation : Simulation
  watching : Bool := false
  /-- Seed of the draws when the configuration has none. -/
  entropy : UInt64 := 0

/-- The console after a request, with what it has to say. -/
structure Answer where
  console : Console
  lines : List String := []
  error : Option ConsoleError := none

namespace Answer

def andThen (a : Answer) (next : Console → Answer) : Answer :=
  if a.error.isSome then a
  else
    let b := next a.console
    { b with lines := a.lines ++ b.lines }

/-- Every line on its own, with the error last. -/
def text (a : Answer) : String :=
  String.join ((a.lines ++ (a.error.map (·.message)).toList).map (· ++ "\n"))

end Answer

namespace Console

def say (c : Console) (lines : List String) : Answer := { console := c, lines }

def fail (c : Console) (error : ConsoleError) : Answer := { console := c, error := some error }

def continueWith (c : Console) (simulation : Simulation) (lines : List String) : Answer :=
  say { c with simulation } lines

def read (c : Console) (path : Option String) : Except ConsoleError LoadReport :=
  let path := path.getD c.config.rulesDirectory
  match c.files.resolve? path with
  | none => .error (.missingPath path)
  | some place =>
      (if (c.files.file? place).isSome then c.files.loadFile path else c.files.loadDirectory path)
        |>.mapError .load

def load (c : Console) (path : Option String) : Answer :=
  match c.read path with
  | .ok report =>
      c.continueWith (c.simulation.replaceStore report.store) (Listing.report false report)
  | .error e => c.fail e

def validate (c : Console) (path : Option String) : Answer :=
  match c.read path with
  | .ok report => c.say (Listing.report true report)
  | .error e => c.fail e

def rules (c : Console) (entry : Int64) (sourceType : UInt32) : Answer :=
  match SourceType.ofId? sourceType with
  | none => c.fail (.unknownSourceType sourceType)
  | some source =>
      match c.simulation.store.find? ⟨entry, source⟩ with
      | none => c.fail (.noRules ⟨entry, source⟩)
      | some set => c.say (Listing.rules set)

def withEntity (c : Console) (h : Handle) (next : Entity → Answer) : Answer :=
  match c.simulation.world.find? h with
  | none => c.fail (.unknownEntity h)
  | some e => next e

def alter (c : Console) (h : Handle) (change : Entity → Entity) : Answer :=
  c.continueWith { c.simulation with world := c.simulation.world.modify h change } []

def spawn (c : Console) (entry : UInt32) (position : Position) : Answer :=
  let (h, fired, s) := c.simulation.spawnCreature entry position
  let note := if (s.script? h).isSome then "" else " (no rules)"
  c.continueWith s
    (("spawned creature " ++ toString entry.toNat ++ " as " ++ h.text ++ note) ::
      fired.map (Listing.firing h))

def spawnPlayer (c : Console) (position : Position) : Answer :=
  let (h, s) := c.simulation.spawnPlayer position
  c.continueWith s ["spawned player as " ++ h.text]

/-- What a signal says about combat and charm of the entity that it is sent to. -/
def foreshadow (signal : Signal) (e : Entity) : Entity :=
  match signal with
  | .aggro invoker => e.withThreat invoker 1
  | .charmed _ applied => { e with charmed := applied }
  | signal => if signal.endsCombat then e.withCombat false else e

/-- Deliver a signal. The entity changes with it even if it has no script. -/
def signal (c : Console) (h : Handle) (kind : SignalKind) (details : SignalDetails) : Answer :=
  match kind.signal? details with
  | none => c.fail (.invokerMissing kind)
  | some signal =>
      (c.alter h (foreshadow signal)).andThen fun c =>
        match c.simulation.signal? h signal with
        | none => c.fail (.noScript h)
        | some (fired, s) => c.continueWith s (fired.map (Listing.firing h))

/-- Let ticks of one length pass. `earlier` holds what fired so far, the latest first. -/
def ticks (ms : UInt32) :
    Nat → (earlier : List (Handle × Fired)) → Simulation → List (Handle × Fired) × Simulation
  | 0, earlier, s => (earlier.reverse, s)
  | count + 1, earlier, s =>
      let (fired, s) := s.tick ms
      ticks ms count (fired.reverse ++ earlier) s

def tick (c : Console) (ms : Option UInt32) (count : UInt32) : Answer :=
  let (fired, s) := ticks (ms.getD c.config.tickMs) count.toNat [] c.simulation
  c.continueWith s
    ((fired.map fun (h, f) => Listing.firing h f) ++
      ["clock: " ++ toString s.clockMs.toNat ++ "ms"])

def health (c : Console) (h : Handle) (pct : UInt32) : Answer :=
  if pct > 100 then c.fail .healthOutOfRange
  else c.withEntity h fun _ => c.alter h (.withHealthPct pct)

def threat (c : Console) (owner target : Handle) (amount : Float32) : Answer :=
  c.withEntity owner fun _ => c.withEntity target fun _ => c.alter owner (.withThreat target amount)

def fire (c : Console) (h : Handle) (id : RuleId) : Answer :=
  match c.simulation.forceFire? h id with
  | none => c.fail (.noRule h id)
  | some (fired, s) => c.continueWith s (fired.map (Listing.firing h))

def despawn (c : Console) (h : Handle) : Answer :=
  c.withEntity h fun _ =>
    let (fired, s) := c.simulation.despawn h
    c.continueWith s (fired.map (Listing.firing h) ++ ["despawned " ++ h.text])

def inspect (c : Console) (h : Handle) : Answer :=
  c.withEntity h fun e =>
    c.say (Listing.entity h e :: (c.simulation.script? h).elim ["no script"] Listing.script)

def commands (c : Console) : Answer :=
  let (log, world) := c.simulation.world.takeLog
  c.continueWith { c.simulation with world } (Listing.commands log)

/-- Start over with the rules of now and the settings of now. -/
def clear (c : Console) : Answer :=
  c.continueWith { store := c.simulation.store, engine := c.config.engine.seeded c.entropy }
    ["simulation cleared"]

/-- Take over a configuration and write it down. One that cannot be written holds all the same. -/
def configure (c : Console) (config : AppConfig) : Answer :=
  let c := { c with config }
  match c.files.write? c.configPath config.document with
  | some files => say { c with files } []
  | none => c.fail (.config .save)

def watch (c : Console) : Answer :=
  let path := c.config.rulesDirectory
  if c.watching then c.say ["Already watching"]
  else if (c.files.directory? path).isSome then
    say { c with watching := true } ["Watching directory: " ++ path]
  else c.say ["Warning: Rules directory " ++ path ++ " does not exist"]

def unwatch (c : Console) : Answer := say { c with watching := false } ["Stopped watching"]

def setDirectory (c : Console) (path : String) : Answer :=
  if path = c.config.rulesDirectory then
    c.say ["Rules directory already configured to " ++ path]
  else
    match c.config.setRulesDirectory c.files path with
    | .error e => c.fail (.config e)
    | .ok config =>
        (c.configure config).andThen fun c =>
          (load { c with watching := false } none).andThen watch

def setTick (c : Console) (ms : UInt32) : Answer :=
  match c.config.setTick ms with
  | .error e => c.fail (.config e)
  | .ok config => c.configure config

/-- Draw with another seed. Seeds are taken when scripts are created, so the simulation starts
over. -/
def setSeed (c : Console) (seed : Option UInt64) : Answer :=
  (c.configure { c.config with engine.rngSeed := seed }).andThen clear

def run (c : Console) : Request → Answer
  | .load path => c.load path
  | .validate path => c.validate path
  | .rules entry sourceType => c.rules entry sourceType
  | .spawn entry position => c.spawn entry position
  | .spawnPlayer position => c.spawnPlayer position
  | .signal h kind details => c.signal h kind details
  | .tick ms count => c.tick ms count
  | .health h pct => c.health h pct
  | .threat owner target amount => c.threat owner target amount
  | .fire h id => c.fire h id
  | .despawn h => c.despawn h
  | .inspect h => c.inspect h
  | .commands => c.commands
  | .clear => c.clear
  | .watch => c.watch
  | .unwatch => c.unwatch
  | .config => c.say (Listing.settings c.configPath c.config)
  | .setDirectory path => c.setDirectory path
  | .setTick ms => c.setTick ms
  | .setSeed seed => c.setSeed seed
  | .leave => c.say []

def request? (line : String) : Except ConsoleError (Option Request) :=
  match words? (trim line.toList) with
  | none => .error .quoting
  | some words => (Request.ofWords words).mapError .arguments

def answer (c : Console) (line : String) : Answer :=
  match request? line with
  | .error e => c.fail e
  | .ok none => c.say []
  | .ok (some request) => c.run request

def isLeave (line : String) : Bool :=
  match request? line with
  | .ok (some .leave) => true
  | _ => false

def prompt : String := "smartscript> "

/-- What is said at the end, without an end of line. -/
def farewell : String := "quitting..."

/-- A configuration file that is missing is written with the defaults. -/
def withConfigFile (files : FileTree) (configPath : String) : FileTree :=
  if (files.resolve? configPath).isSome then files
  else (files.write? configPath ({} : AppConfig).document).getD files

def start (files : FileTree) (configPath defaultDirectory : String) (entropy : UInt64) : Answer :=
  let files := withConfigFile files configPath
  let config := AppConfig.ofFile files configPath defaultDirectory
  let simulation : Simulation := { store := ∅, engine := config.engine.seeded entropy }
  load { files, configPath, config, simulation, entropy } none

/-- What is said while the lines are read, up to the first that ends the session, or to the end of
the lines. -/
def session (c : Console) : List String → String
  | [] => prompt ++ farewell
  | line :: lines =>
      if isLeave line then prompt ++ farewell
      else
        let a := c.answer line
        prompt ++ a.text ++ session a.console lines

def path? (c : Console) (line : String) : Option String :=
  match request? line with
  | .ok (some (.load path)) | .ok (some (.validate path)) =>
      some (path.getD c.config.rulesDirectory)
  | .ok (some (.setDirectory path)) => some path
  | .ok (some .watch) => some c.config.rulesDirectory
  | _ => none

end Console

end TriggerScript
