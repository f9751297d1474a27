import TriggerScript.Console.Arguments
import TriggerScript.Console.SignalKind
import TriggerScript.Rule

/-!
# Requests

What a line can ask of the console.
-/

namespace TriggerScript.Console

inductive Request where
  /-- Load rules from a path, without one from the configured directory. -/
  | load (path : Option String)
  /-- Load rules as a trial and show every finding. -/
  | validate (path : Option String)
  | rules (entry : Int64) (sourceType : UInt32)
  | spawn (entry : UInt32) (position : Position)
  | spawnPlayer (position : Position)
  | signal (handle : Handle) (kind : SignalKind) (details : SignalDetails)
  | tick (ms : Option UInt32) (count : UInt32)
  | health (handle : Handle) (pct : UInt32)
  | threat (owner target : Handle) (amount : Float32)
  | fire (handle : Handle) (rule : RuleId)
  | despawn (handle : Handle)
  | inspect (handle : Handle)
  /-- Show the commands performed so far and forget them. -/
  | commands
  | clear
  | watch
  | unwatch
  | config
  | setDirectory (path : String)
  | setTick (ms : UInt32)
  /-- Without a seed the draws cannot be repeated. -/
  | setSeed (seed : Option UInt64)
  | leave
deriving DecidableEq

namespace Request

def optionNames : String → List String
  | "load" | "validate" | "set-directory" => ["path"]
  | "rules" => ["source-type"]
  | "signal" => ["invoker", "value", "field"]
  | "tick" => ["ms", "count"]
  | _ => []

/-- How many positional arguments a request takes at most; nothing for an unknown word. -/
def limit? : String → Option Nat
  | "load" | "validate" | "set-directory" | "tick" | "commands" | "clear" | "watch" | "unwatch"
  | "config" | "exit" => some 0
  | "rules" | "despawn" | "show" | "set-tick" | "set-seed" => some 1
  | "signal" | "health" | "fire" => some 2
  | "spawn-player" | "threat" => some 3
  | "spawn" => some 4
  | _ => none

/-- A point from its coordinates at the positional arguments from `index` on, 0 where they are
missing. -/
def point (a : Arguments) (index : Nat) : Except ArgumentError Position := do
  .ok ⟨← a.positionalD index "X" 0 single?, ← a.positionalD (index + 1) "Y" 0 single?,
    ← a.positionalD (index + 2) "Z" 0 single?, 0⟩

def ofArguments (word : String) (a : Arguments) : Except ArgumentError Request :=
  match word with
  | "load" => do .ok (.load (← a.option "path" some))
  | "validate" => do .ok (.validate (← a.option "path" some))
  | "rules" => do
      .ok (.rules (← a.required 0 "ENTRY" signedLong?) (← a.optionD "source-type" 0 word?))
  | "spawn" => do .ok (.spawn (← a.required 0 "ENTRY" word?) (← point a 1))
  | "spawn-player" => do .ok (.spawnPlayer (← point a 0))
  | "signal" => do
      let handle ← a.required 0 "HANDLE" long?
      let kind ← a.required 1 "KIND" SignalKind.ofWord?
      let invoker ← a.option "invoker" long?
      .ok (.signal handle kind
        { invoker, value := ← a.optionD "value" 0 word?, field := ← a.optionD "field" 0 word? })
  | "tick" => do .ok (.tick (← a.option "ms" word?) (← a.optionD "count" 1 word?))
  | "health" => do .ok (.health (← a.required 0 "HANDLE" long?) (← a.required 1 "PCT" word?))
  | "threat" => do
      let owner ← a.required 0 "OWNER" long?
      let target ← a.required 1 "TARGET" long?
      .ok (.threat owner target (← a.positionalD 2 "AMOUNT" 1 single?))
  | "fire" => do .ok (.fire (← a.required 0 "HANDLE" long?) (← a.required 1 "RULE" word?))
  | "despawn" => do .ok (.despawn (← a.required 0 "HANDLE" long?))
  | "show" => do .ok (.inspect (← a.required 0 "HANDLE" long?))
  | "commands" => .ok .commands
  | "clear" => .ok .clear
  | "watch" => .ok .watch
  | "unwatch" => .ok .unwatch
  | "config" => .ok .config
  | "set-directory" => do
      match ← a.option "path" some with
      | some path => .ok (.setDirectory path)
      | none => .error (.argumentMissing "--path <PATH>")
  | "set-tick" => do .ok (.setTick (← a.required 0 "MS" word?))
  | "set-seed" => do .ok (.setSeed (← a.positional? 0 "SEED" long?))
  | "exit" => .ok .leave
  | word => .error (.unknownRequest word)

/-- The request of a line's words; a line without words, or with only the mark that ends options,
asks for nothing. -/
def ofWords : List String → Except ArgumentError (Option Request)
  | [] | ["--"] => .ok none
  | word :: words =>
      match limit? word with
      | none => .error (.unknownRequest word)
      | some limit => do
          let a ← Arguments.sort (optionNames word) words
          match a.positional[limit]? with
          | some extra => .error (.unexpected extra)
          | none => (ofArguments word a).map some

end Request

end TriggerScript.Console
