import TriggerScript.Command.Form
import TriggerScript.Form.Text
import TriggerScript.Load
import TriggerScript.Simulation

/-!
# Listings

What the console shows of rules, firings, entities, commands and settings, line by line.
-/

namespace TriggerScript.Listing

def pad (width : Nat) (s : String) : String := s ++ .ofList (List.replicate (width - s.length) ' ')

/-- One row of the table of rules. The last column is not filled up. -/
def ruleRow (id event phase actions comment : String) : String :=
  pad 5 id ++ " " ++ pad 22 event ++ " " ++ pad 10 phase ++ " " ++ pad 24 actions ++ " " ++ comment

def phaseText : PhaseGate → String
  | .always => "always"
  | .phases mask => mask.text

def rule (r : Rule) : String :=
  let link := r.linkTo.elim "" fun id => " -> " ++ toString id.toNat
  ruleRow (toString r.id.toNat) r.event.name (phaseText r.spec.phase)
    (",".intercalate (r.actions.map (·.action.name))) (r.comment ++ link)

def total (count : Nat) (what : String) : List String :=
  ["", "Total: " ++ toString count ++ " " ++ what]

def rules (set : RuleSet) : List String :=
  ruleRow "Id" "Event" "Phase" "Actions" "Comment" :: .ofList (List.replicate 80 '-') ::
    set.rules.map rule ++ total set.size "rules"

/-- The outcome of loading; warnings are shown on request only. -/
def report (verbose : Bool) (r : LoadReport) : List String :=
  (r.failed.map fun failure => "failed: " ++ failure.message) ++
    ((r.diagnostics.filter fun d => verbose || d.isError).map (·.text)) ++
    [toString r.files ++ " files, " ++ toString r.store.size ++ " rule sets, " ++
      toString r.store.ruleCount ++ " rules (" ++ toString r.errorCount ++ " errors, " ++
      toString r.warningCount ++ " warnings)"]

def firing (h : Handle) (f : Fired) : String :=
  h.text ++ " fired " ++ f.link.text ++ "#" ++ toString f.ruleId.toNat ++ " (depth " ++
    toString f.depth ++ ", " ++ toString f.commands ++ " commands)"

def progress (elapsed due : UInt32) : String :=
  toString elapsed.toNat ++ "/" ++ toString due.toNat ++ "ms"

def entity (h : Handle) (e : Entity) : String :=
  let p := e.info.position
  h.text ++ " " ++ (form e.info.kind).text ++ " entry " ++ toString e.info.entry.toNat ++ " at (" ++
    Single.tenthsText p.x ++ ", " ++ Single.tenthsText p.y ++ ", " ++ Single.tenthsText p.z ++
    ") hp " ++ toString e.info.healthPct.toNat ++ "% " ++
    (if e.inCombat then "in combat" else "idle") ++ if e.info.alive then "" else " (dead)"

/-- The state of a script: its phase, counters, timers, timed events and lists. -/
def script (s : Script) : List String :=
  ("phase: " ++ s.state.phase.text) ::
    (s.state.counters.toList.map fun (id, value) =>
      "counter " ++ toString id.toNat ++ " = " ++ toString value.toNat) ++
    (s.state.timers.toList.map fun (id, t) =>
      "timer rule " ++ toString id.toNat ++ ": " ++ progress t.elapsed t.nextFireAt ++
        if t.exhausted then " (done)" else "") ++
    (s.state.timedEvents.toList.map fun (id, e) =>
      "timed event " ++ toString id.toNat ++ ": " ++ progress e.elapsed e.nextFireAt) ++
    s.lists.values.map fun l =>
      "timed list " ++ toString l.listId.toNat ++ ": step " ++ toString l.cursor ++ "/" ++
        toString l.rules.size ++ " (" ++ (form l.mode).text ++ ")"

def commands (log : List Command) : List String :=
  if log.isEmpty then ["No commands recorded"]
  else (log.map fun c => (form c).text) ++ total log.length "commands"

def settings (path : String) (c : AppConfig) : List String :=
  ["config file: " ++ path,
    "rules directory: " ++ c.rulesDirectory,
    "tick: " ++ toString c.tickMs.toNat ++ "ms",
    "max link depth: " ++ toString c.engine.maxLinkDepth.toNat,
    "max timed lists: " ++ toString c.engine.maxTimedLists.toNat,
    "debug rules: " ++ (if c.engine.debugRules then "true" else "false"),
    "rng seed: " ++ c.engine.rngSeed.elim "random" fun seed => toString seed.toNat]

end TriggerScript.Listing
