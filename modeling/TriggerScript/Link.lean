import Std.Data.ExtTreeMap

/-!
# Rule ownership

A rule set belongs to a link: a script domain and an entry. A positive entry names a template
shared by all its spawns, a negative one a single spawn by its negated guid.
-/

namespace TriggerScript

/-- Script domain of a rule set, in the order that listings use. -/
inductive SourceType where
  | creature
  | gameObject
  | areaTrigger
  | quest
  | spell
  | transport
  | instanceZone
  | timedActionList
  | scene
deriving DecidableEq, Inhabited

namespace SourceType

def id : SourceType → UInt32
  | creature => 0
  | gameObject => 1
  | areaTrigger => 2
  | quest => 5
  | spell => 6
  | transport => 7
  | instanceZone => 8
  | timedActionList => 9
  | scene => 10

def all : List SourceType :=
  [creature, gameObject, areaTrigger, quest, spell, transport, instanceZone, timedActionList, scene]

def ofId? (id : UInt32) : Option SourceType := all.find? fun s => s.id == id

theorem ofId?_id (s : SourceType) : ofId? s.id = some s := by cases s <;> rfl

theorem id_of_ofId? {n : UInt32} {s : SourceType} (h : ofId? n = some s) : s.id = n := by
  simpa using List.find?_some h

def name : SourceType → String
  | creature => "creature"
  | gameObject => "game_object"
  | areaTrigger => "area_trigger"
  | quest => "quest"
  | spell => "spell"
  | transport => "transport"
  | instanceZone => "instance"
  | timedActionList => "timed_action_list"
  | scene => "scene"

def title : SourceType → String
  | creature => "Creature"
  | gameObject => "GameObject"
  | areaTrigger => "AreaTrigger"
  | quest => "Quest"
  | spell => "Spell"
  | transport => "Transport"
  | instanceZone => "Instance"
  | timedActionList => "TimedActionList"
  | scene => "Scene"

theorem id_injective {a b : SourceType} (h : a.id = b.id) : a = b := by
  have := congrArg ofId? h
  simpa [ofId?_id] using this

end SourceType

/-- Set of script domains, one bit per domain number. -/
structure SourceMask where
  bits : UInt16
deriving DecidableEq, Inhabited

namespace SourceMask

def none : SourceMask := ⟨0⟩

def of (s : SourceType) : SourceMask := ⟨1 <<< s.id.toUInt16⟩

def union (m other : SourceMask) : SourceMask := ⟨m.bits ||| other.bits⟩

def contains (m other : SourceMask) : Bool := m.bits &&& other.bits == other.bits

def worldObject : SourceMask := (of .creature).union (of .gameObject)

def all : SourceMask := ⟨0x7E7⟩

/-- The domains in the mask, in listing order. -/
def members (m : SourceMask) : List SourceType := SourceType.all.filter fun s => m.contains (of s)

end SourceMask

structure Link where
  entry : Int64
  sourceType : SourceType
deriving DecidableEq, Inhabited

namespace Link

def creature (entry : Int64) : Link := ⟨entry, .creature⟩

def timedList (id : UInt32) : Link := ⟨id.toUInt64.toInt64, .timedActionList⟩

def isSpawnSpecific (l : Link) : Bool := l.entry < 0

def text (l : Link) : String := l.sourceType.name ++ ":" ++ toString l.entry.toInt

instance : Ord Link :=
  ⟨compareLex (compareOn entry) (compareOn fun l => l.sourceType.id)⟩

instance : Std.TransOrd Link :=
  inferInstanceAs (Std.TransCmp (compareLex (compareOn entry) (compareOn fun l => l.sourceType.id)))

instance : Std.LawfulEqOrd Link where
  eq_of_compare {a b} h := by
    have h : (compare a.entry b.entry).then (compare a.sourceType.id b.sourceType.id) = .eq := h
    rw [Ordering.then_eq_eq] at h
    obtain ⟨h₁, h₂⟩ := h
    have h₁ := Std.LawfulEqOrd.eq_of_compare h₁
    have h₂ := SourceType.id_injective (Std.LawfulEqOrd.eq_of_compare h₂)
    cases a; cases b; simp_all

end Link

end TriggerScript
