import TriggerScript.Rule

/-!
# Rule sets and their store

A rule set holds the rules of one link in evaluation order. The store holds one set per link.
-/

namespace TriggerScript

structure RuleSet where
  link : Link
  rules : List Rule
  /-- Tells a set from others of the same link; those in stores have number 0. -/
  serial : Nat := 0
deriving Inhabited

namespace RuleSet

/-- Insert a rule before the first one with a greater number. -/
def insertById (rule : Rule) : List Rule → List Rule
  | [] => [rule]
  | r :: rs => if rule.id < r.id then rule :: r :: rs else r :: insertById rule rs

def sortById (rules : List Rule) : List Rule :=
  rules.foldl (fun sorted rule => insertById rule sorted) []

/-- The set of a link. Timed action lists are ordered by rule number, others keep the order of
declaration. -/
def ofRules (link : Link) (rules : List Rule) : RuleSet where
  link
  rules := if link.sourceType = .timedActionList then sortById rules else rules

/-- The set of an entity without rules, which no store has. -/
def empty (link : Link) : RuleSet := { link, rules := [], serial := 1 }

/-- The rule of a number; the last one if there are more. -/
def find? (s : RuleSet) (id : RuleId) : Option Rule := s.rules.reverse.find? (·.id == id)

def indexOf? (s : RuleSet) (id : RuleId) : Option Nat :=
  (s.rules.zipIdx.reverse.find? (·.1.id == id)).map (·.2)

theorem mem_of_find? {s : RuleSet} {id : RuleId} {r : Rule} (h : s.find? id = some r) :
    r ∈ s.rules :=
  List.mem_reverse.mp (List.mem_of_find?_eq_some h)

theorem id_of_find? {s : RuleSet} {id : RuleId} {r : Rule} (h : s.find? id = some r) :
    r.id = id := by
  simpa using List.find?_some h

theorem find?_eq_none_iff {s : RuleSet} {id : RuleId} :
    s.find? id = none ↔ ∀ r ∈ s.rules, r.id ≠ id := by
  simp [find?]

def size (s : RuleSet) : Nat := s.rules.length

def isEmpty (s : RuleSet) : Bool := s.rules.isEmpty

end RuleSet

abbrev Store := Std.ExtTreeMap Link RuleSet

namespace Store

def find? (s : Store) (link : Link) : Option RuleSet := s[link]?

/-- The set of a spawned entity: that of its own guid, whose entry is negated, before that of its
template. Guid 0 stands for no guid. -/
def forSpawn? (s : Store) (source : SourceType) (entry : UInt32) (guid : UInt64) :
    Option RuleSet :=
  let own := if guid = 0 then none else s.find? ⟨-guid.toInt64, source⟩
  own.or (s.find? ⟨entry.toUInt64.toInt64, source⟩)

def timedList? (s : Store) (id : UInt32) : Option RuleSet := s.find? (.timedList id)

/-- Links of all sets, by entry and then by domain. -/
def links (s : Store) : List Link := s.keys

def ruleCount (s : Store) : Nat := s.foldl (fun n _ set => n + set.size) 0

end Store

end TriggerScript
