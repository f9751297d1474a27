import TriggerScript.Data
import TriggerScript.Event
import TriggerScript.Entity
import TriggerScript.Phase

/-!
# Reading values

Reads values of the vocabulary back from their written forms. A tagged value is a table with its
tag in the column `type`; optional fields may be missing.
-/

namespace TriggerScript

class Readable (α : Type) where
  read? : Data → Option α
  /-- What a missing field stands for. -/
  missing? : Option α

/-- A value out of a fixed set, read by its name. -/
def Data.named? {α : Type} (names : List (String × α)) (d : Data) : Option α :=
  d.text?.bind fun name => names.lookup name

instance : Readable UInt32 := ⟨Data.word?, none⟩
instance : Readable Int32 := ⟨Data.signedWord?, none⟩
instance : Readable Handle := ⟨Data.long?, none⟩
instance : Readable Bool := ⟨Data.flag?, none⟩
instance : Readable Float32 := ⟨Data.single?, none⟩

instance {α : Type} [Readable α] : Readable (Option α) where
  read? d := (Readable.read? d).map some
  missing? := some none

def Columns.field {α : Type} [Readable α] (cols : Columns) (name : String) : Option α :=
  match cols.lookup name with
  | some d => Readable.read? d
  | none => Readable.missing?

instance : Readable PhaseMask where
  read? d := (d.within? 0 0x10000).map fun n => ⟨.ofNat n.toNat⟩
  missing? := none

instance : Readable Position where
  read? d := do
    let cols ← d.columns? ["x", "y", "z", "o"]
    let axis := fun name => cols.required name Data.single?
    some ⟨← axis "x", ← axis "y", ← axis "z", ← cols.withDefault "o" 0 Data.single?⟩
  missing? := none

instance : Readable CombatGate where
  missing? := none
  read? := Data.named? [("any", .any), ("in_combat", .inCombat), ("out_of_combat", .outOfCombat)]

instance : Readable WaypointStage where
  missing? := none
  read? :=
    Data.named?
      [("started", .started), ("reached", .reached), ("paused", .paused), ("resumed", .resumed),
        ("stopped", .stopped), ("ended", .ended)]

instance : Readable QuestStage where
  missing? := none
  read? :=
    Data.named?
      [("accepted", .accepted), ("objective_completed", .objectiveCompleted),
        ("completed", .completed), ("rewarded", .rewarded), ("failed", .failed)]

instance : Readable SceneStage where
  missing? := none
  read? :=
    Data.named?
      [("started", .started), ("triggered", .triggered), ("cancelled", .cancelled),
        ("completed", .completed)]

instance : Readable SpellStage where
  missing? := none
  read? := Data.named? [("started", .started), ("cast", .cast), ("failed", .failed)]

instance : Readable EntityKind where
  missing? := none
  read? :=
    Data.named?
      [("creature", .creature), ("game_object", .gameObject), ("player", .player),
        ("area_trigger", .areaTrigger)]

def Data.tagged? {α : Type} (read : Columns → String → Option α) : Data → Option α
  | .table cols => do read cols (← Columns.required cols "type" Data.text?)
  | _ => none

end TriggerScript
