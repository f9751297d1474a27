import TriggerScript.RuleError

/-!
# Diagnostics

Findings about rule tables, each with the row it is about.
-/

namespace TriggerScript

/-- An error rejects the rule, a warning keeps it, perhaps without the offending part. -/
inductive Severity where
  | error
  | warning
deriving DecidableEq

def Severity.name : Severity → String
  | error => "error"
  | warning => "warning"

structure Diagnostic where
  entry : Int64
  /-- Source type column as given, which may name no domain. -/
  sourceType : UInt32
  ruleId : UInt32
  file : String
  row : Nat
  severity : Severity
  finding : RuleError
deriving DecidableEq

namespace Diagnostic

def isError (d : Diagnostic) : Bool := d.severity = .error

/-- Name of the domain, or its number when there is none. -/
def sourceText (d : Diagnostic) : String :=
  match SourceType.ofId? d.sourceType with
  | some source => source.name
  | none => "source#" ++ toString d.sourceType.toNat

def text (d : Diagnostic) : String :=
  d.severity.name ++ ": " ++ d.file ++ "[row " ++ toString d.row ++ "] " ++ d.sourceText ++ ":" ++
    toString d.entry.toInt ++ " rule " ++ toString d.ruleId.toNat ++ ": " ++ d.finding.message

end Diagnostic

end TriggerScript
