import TriggerScript.Entity
import TriggerScript.Event
import TriggerScript.Flags

/-!
# Written forms

A form is a value of the vocabulary taken apart into a tag and named fields, so that listings and
messages can be written from one description.
-/

namespace TriggerScript

inductive Form where
  | number (n : Int)
  | flag (b : Bool)
  | real (x : Float32)
  | handle (h : Handle)
  | option (value : Option Form)
  | list (items : List Form)
  | position (p : Position)
  /-- A name out of a fixed set. -/
  | choice (name : String)
  | record (fields : List (String × Form))
  | tagged (tag : String) (fields : List (String × Form))
  | nested (tag : String) (fields : List (String × Form))
deriving Inhabited

/-- Values with a written form. -/
class Described (α : Type) where
  form : α → Form

export Described (form)

instance : Described UInt8 := ⟨fun n => .number n.toNat⟩
instance : Described UInt32 := ⟨fun n => .number n.toNat⟩
instance : Described Int32 := ⟨fun n => .number n.toInt⟩
instance : Described Bool := ⟨.flag⟩
instance : Described Handle := ⟨.handle⟩
instance : Described Float32 := ⟨.real⟩
instance : Described Position := ⟨.position⟩
instance : Described PhaseMask := ⟨fun m => .number m.bits.toNat⟩
instance : Described EventFlags := ⟨fun f => .number f.bits.toNat⟩
instance : Described CastFlags := ⟨fun f => .number f.bits.toNat⟩

instance {α : Type} [Described α] : Described (Option α) := ⟨fun o => .option (o.map form)⟩
instance {α : Type} [Described α] : Described (List α) := ⟨fun xs => .list (xs.map form)⟩

instance : Described CombatGate := ⟨fun
  | .any => .choice "any"
  | .inCombat => .choice "in_combat"
  | .outOfCombat => .choice "out_of_combat"⟩

instance : Described LosHostility := ⟨fun
  | .hostile => .choice "hostile"
  | .notHostile => .choice "not_hostile"
  | .any => .choice "any"⟩

def WaypointStage.name : WaypointStage → String
  | started => "started"
  | reached => "reached"
  | paused => "paused"
  | resumed => "resumed"
  | stopped => "stopped"
  | ended => "ended"

def QuestStage.name : QuestStage → String
  | accepted => "accepted"
  | objectiveCompleted => "objective_completed"
  | completed => "completed"
  | rewarded => "rewarded"
  | failed => "failed"

def SceneStage.name : SceneStage → String
  | started => "started"
  | triggered => "triggered"
  | cancelled => "cancelled"
  | completed => "completed"

def SpellStage.name : SpellStage → String
  | started => "started"
  | cast => "cast"
  | failed => "failed"

instance : Described WaypointStage := ⟨fun s => .choice s.name⟩
instance : Described QuestStage := ⟨fun s => .choice s.name⟩
instance : Described SceneStage := ⟨fun s => .choice s.name⟩
instance : Described SpellStage := ⟨fun s => .choice s.name⟩

instance : Described PhaseGate := ⟨fun
  | .always => .choice "always"
  | .phases mask => .record [("phases", form mask)]⟩

instance : Described EntityKind := ⟨fun
  | .creature => .choice "creature"
  | .gameObject => .choice "game_object"
  | .player => .choice "player"
  | .areaTrigger => .choice "area_trigger"⟩

instance : Described SourceType := ⟨fun s => .choice s.name⟩

end TriggerScript
