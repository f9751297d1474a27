import TriggerScript.Config
import TriggerScript.Console.Arguments
import TriggerScript.Console.SignalKind
import TriggerScript.Load
import TriggerScript.Rule

/-!
# Failures of the console
-/

namespace TriggerScript

inductive ConsoleError where
  | quoting
  | arguments (cause : Console.ArgumentError)
  | missingPath (path : String)
  | load (cause : LoadError)
  | config (cause : ConfigError)
  | unknownSourceType (id : UInt32)
  | noRules (link : Link)
  | invokerMissing (kind : SignalKind)
  | noScript (handle : Handle)
  | noRule (handle : Handle) (id : RuleId)
  | unknownEntity (handle : Handle)
  | healthOutOfRange
deriving DecidableEq

def ConsoleError.message : ConsoleError → String
  | quoting => "error: Invalid quoting"
  | arguments cause => cause.message
  | missingPath path => path ++ " does not exist"
  | load cause => cause.message
  | config cause => cause.message
  | unknownSourceType id => "unknown source type " ++ toString id.toNat
  | noRules link => "no rules for " ++ link.text
  | invokerMissing kind => "signal " ++ kind.title ++ " needs --invoker"
  | noScript handle => handle.text ++ " has no script"
  | noRule handle id => handle.text ++ " has no rule " ++ toString id.toNat
  | unknownEntity handle => "unknown entity " ++ handle.text
  | healthOutOfRange => "health must be 0..=100"

end TriggerScript
