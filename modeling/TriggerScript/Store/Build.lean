import TriggerScript.Diagnostic
import TriggerScript.Row.Decode
import TriggerScript.Store

/-!
# Building a store from tables

The rows of a table form blocks: a head with the continuations that follow it. Every block yields
one rule or none; the rules that remain are grouped by link, and the links between the rules of a
set are checked.
-/

namespace TriggerScript

structure PlacedRow where
  file : String
  index : Nat
  row : Row

namespace PlacedRow

def report (p : PlacedRow) (severity : Severity) (finding : RuleError) : Diagnostic where
  entry := p.row.entry
  sourceType := p.row.sourceType
  ruleId := p.row.id
  file := p.file
  row := p.index
  severity
  finding

end PlacedRow

def Table.placed (t : Table) : List PlacedRow :=
  t.rows.zipIdx.map fun (row, index) => ⟨t.file, index, row⟩

/-- A head row and the continuation rows up to the next head. -/
structure Block where
  head : PlacedRow
  followers : List PlacedRow

/-- The continuations before the first head, and the blocks. -/
def splitBlocks : List PlacedRow → List PlacedRow × List Block
  | [] => ([], [])
  | p :: ps =>
      let (leading, blocks) := splitBlocks ps
      if p.row.isContinuation then (p :: leading, blocks) else ([], ⟨p, leading⟩ :: blocks)

structure Placed where
  rule : Rule
  file : String
  row : Nat

namespace Placed

def report (p : Placed) (severity : Severity) (finding : RuleError) : Diagnostic where
  entry := p.rule.link.entry
  sourceType := p.rule.link.sourceType.id
  ruleId := p.rule.id
  file := p.file
  row := p.row
  severity
  finding

/-- Rules are the same when their links and numbers agree. -/
def key (p : Placed) : Link × RuleId := (p.rule.link, p.rule.id)

end Placed

/-- What a continuation row adds to the rule of its block. -/
inductive Addition where
  /-- The row continues another rule, or none. -/
  | orphan
  | rejected (fault : RuleError)
  | step (step : ActionStep)

namespace Block

def addition (b : Block) (p : PlacedRow) : Addition :=
  if p.row.key = b.head.row.key then
    match p.row.decodeContinuation with
    | .ok step => .step step
    | .error fault => .rejected fault
  else .orphan

def steps (b : Block) : List ActionStep :=
  b.followers.filterMap fun p =>
    match b.addition p with
    | .step step => some step
    | _ => none

/-- Whether a follower takes the rule down with it. -/
def isSpoiled (b : Block) : Bool :=
  b.followers.any fun p =>
    match b.addition p with
    | .rejected _ => true
    | _ => false

/-- Findings about a follower of a rule with this target. -/
def followerFindings (b : Block) (target : TargetDescriptor) (p : PlacedRow) : List Diagnostic :=
  match b.addition p with
  | .orphan => [p.report .error .orphanContinuation]
  | .rejected fault => [p.report .error fault]
  | .step step => ((step.untargeted? target).map (p.report .warning)).toList

/-- The rule of the block, unless its head or a follower is rejected. -/
def rule? (b : Block) : Option Placed :=
  match b.head.row.decodeRule with
  | .error _ => none
  | .ok rule =>
      if b.isSpoiled then none
      else some
        { rule := { rule with actions := rule.actions ++ b.steps }
          file := b.head.file
          row := b.head.index }

/-- Findings about the rows of the block. A rejected head answers for its continuations, so only
orphans are reported beside it. -/
def findings (b : Block) : List Diagnostic :=
  match b.head.row.decodeRule with
  | .error fault =>
      b.head.report .error fault ::
        (b.followers.filter (·.row.key ≠ b.head.row.key)).map (·.report .error .orphanContinuation)
  | .ok rule =>
      rule.warnings.map (b.head.report .warning) ++
        b.followers.flatMap (b.followerFindings rule.target)

end Block

namespace Table

def blocks (t : Table) : List Block := (splitBlocks t.placed).2

/-- The rules that the rows of the table make up on their own. -/
def rules (t : Table) : List Placed := t.blocks.filterMap Block.rule?

def findings (t : Table) : List Diagnostic :=
  (splitBlocks t.placed).1.map (·.report .error .orphanContinuation) ++
    t.blocks.flatMap Block.findings

end Table

/-- The first rule of every key, after the keys in `seen`. -/
def firstOfKeys (seen : List (Link × RuleId)) : List Placed → List Placed
  | [] => []
  | p :: ps =>
      if seen.contains p.key then firstOfKeys seen ps else p :: firstOfKeys (p.key :: seen) ps

def repeatsOfKeys (seen : List (Link × RuleId)) : List Placed → List Placed
  | [] => []
  | p :: ps =>
      if seen.contains p.key then p :: repeatsOfKeys seen ps else repeatsOfKeys (p.key :: seen) ps

def linkOf (rules : List Placed) (id : RuleId) : Option RuleId :=
  (rules.find? (·.rule.id == id)).bind (·.rule.linkTo)

/-- The rule whose link leads back to `start`, on the chain of links from `current`. -/
def loopsBack (next : RuleId → Option RuleId) (start : RuleId) : Nat → RuleId → Option RuleId
  | 0, _ => none
  | fuel + 1, current =>
      match next current with
      | none => none
      | some target => if target = start then some current else loopsBack next start fuel target

def danglingLink? (rules : List Placed) (p : Placed) : Option RuleId :=
  p.rule.linkTo.filter fun target => !rules.any (·.rule.id == target)

def dropDangling (rules : List Placed) : List Placed :=
  rules.map fun p =>
    if (danglingLink? rules p).isSome then { p with rule := { p.rule with linkTo := none } } else p

/-- Findings about the links of a set. A chain longer than the set repeats a rule, so the set's
size bounds the walk. -/
def linkFindings (rules : List Placed) : List Diagnostic :=
  let kept := dropDangling rules
  rules.filterMap (fun p =>
    (danglingLink? rules p).map fun target => p.report .warning (.missingLinkTarget target)) ++
  kept.filterMap fun p =>
    (loopsBack (linkOf kept) p.rule.id kept.length p.rule.id).map fun last =>
      p.report .warning (.linkCycle last)

def rulesOf (rules : List Placed) (link : Link) : List Placed :=
  rules.filter (·.rule.link == link)

/-- The links of the rules in the order of their first appearance. -/
def linksOf (rules : List Placed) : List Link := (rules.map (·.rule.link)).eraseDups

namespace Store

/-- The store of rules with distinct keys. -/
def ofRules (rules : List Placed) : Store :=
  (linksOf rules).foldl (fun store link =>
    store.insert link (.ofRules link ((dropDangling (rulesOf rules link)).map (·.rule)))) ∅

/-- The store of some tables, with everything found on the way. Of rules with the same key the
first declaration wins. -/
def build (tables : List Table) : Store × List Diagnostic :=
  let rules := tables.flatMap Table.rules
  let distinct := firstOfKeys [] rules
  (ofRules distinct,
    tables.flatMap Table.findings ++
      (repeatsOfKeys [] rules).map (·.report .error .duplicateRuleId) ++
      (linksOf distinct).flatMap fun link => linkFindings (rulesOf distinct link))

end Store

end TriggerScript
