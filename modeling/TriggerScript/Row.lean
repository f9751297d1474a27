import TriggerScript.Data
import TriggerScript.Position

/-!
# Rows of rule tables

Rule tables are flat: a row has numbered kinds with numbered parameters. A row with an event kind
is the head of a rule; a row without one continues the rule declared before it by a further action.
-/

namespace TriggerScript

/-- The phase column holds a mask or a keyword. -/
inductive PhaseColumn where
  | mask (bits : Int64)
  | keyword (word : String)
deriving DecidableEq

structure Row where
  entry : Int64
  sourceType : UInt32
  id : UInt32
  linkTo : Option UInt32 := none
  eventKind : Option UInt32 := none
  eventParams : Vector UInt32 4 := #v[0, 0, 0, 0]
  phase : Option PhaseColumn := none
  flags : Option UInt32 := none
  chance : Option UInt32 := none
  cooldownMin : Option UInt32 := none
  cooldownMax : Option UInt32 := none
  actionKind : UInt32 := 0
  actionParams : Vector UInt32 6 := #v[0, 0, 0, 0, 0, 0]
  targetKind : UInt32 := 0
  targetParams : Vector UInt32 4 := #v[0, 0, 0, 0]
  literal : Position := .origin
  comment : String := ""

/-- Rows of one table, with the name of the file they come from. -/
structure Table where
  file : String
  rows : List Row

namespace Row

def isContinuation (r : Row) : Bool := r.eventKind.isNone

/-- A continuation belongs to a head with the same key. -/
def key (r : Row) : Int64 × UInt32 × UInt32 := (r.entry, r.sourceType, r.id)

/-- The first column set in the row that only a head may set. -/
def firstEventColumn? (r : Row) : Option String :=
  if r.linkTo.any (· != 0) then some "link_to"
  else if r.phase.isSome then some "event_phase_mask"
  else if r.flags.isSome then some "event_flags"
  else if r.chance.isSome then some "event_chance"
  else if r.cooldownMin.isSome || r.cooldownMax.isSome then some "cooldown"
  else none

end Row

def PhaseColumn.ofData? : Data → Option PhaseColumn
  | .text word => some (.keyword word)
  | d => d.signedLong?.map .mask

namespace Row

def columnNames : List String :=
  ["entry", "source_type", "id", "link_to",
    "event_kind", "event_param1", "event_param2", "event_param3", "event_param4",
    "event_phase_mask", "event_flags", "event_chance", "cooldown_min", "cooldown_max",
    "action_kind", "action_param1", "action_param2", "action_param3", "action_param4",
    "action_param5", "action_param6",
    "target_kind", "target_param1", "target_param2", "target_param3", "target_param4",
    "target_x", "target_y", "target_z", "target_o", "comment"]

def ofData? (d : Data) : Option Row := do
  let cols ← d.columns? columnNames
  let word := fun name => cols.withDefault name 0 Data.word?
  let optional := fun name => cols.optional name Data.word?
  let single := fun name => cols.withDefault name 0.0 Data.single?
  some
    { entry := ← cols.required "entry" Data.signedLong?
      sourceType := ← word "source_type"
      id := ← cols.required "id" Data.word?
      linkTo := ← optional "link_to"
      eventKind := ← optional "event_kind"
      eventParams :=
        #v[← word "event_param1", ← word "event_param2", ← word "event_param3",
          ← word "event_param4"]
      phase := ← cols.optional "event_phase_mask" PhaseColumn.ofData?
      flags := ← optional "event_flags"
      chance := ← optional "event_chance"
      cooldownMin := ← optional "cooldown_min"
      cooldownMax := ← optional "cooldown_max"
      actionKind := ← word "action_kind"
      actionParams :=
        #v[← word "action_param1", ← word "action_param2", ← word "action_param3",
          ← word "action_param4", ← word "action_param5", ← word "action_param6"]
      targetKind := ← word "target_kind"
      targetParams :=
        #v[← word "target_param1", ← word "target_param2", ← word "target_param3",
          ← word "target_param4"]
      literal :=
        ⟨← single "target_x", ← single "target_y", ← single "target_z", ← single "target_o"⟩
      comment := ← cols.withDefault "comment" "" Data.text? }

/-- The rows of a document: its list `row`, empty when missing. -/
def listOfData? (d : Data) : Option (List Row) := do
  let cols ← d.columns? ["row"]
  cols.withDefault "row" [] fun rows => do (← rows.list?).mapM ofData?

end Row

end TriggerScript
