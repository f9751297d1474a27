import Mathlib.Data.List.Forall2
import TriggerScript.Proofs.Building

/-!
# Declarations

A head row declares a rule together with the continuation rows attached to it: those with its key
among the continuations that follow it. The rules of a table are those of its declarations, in the
order of their heads.
-/

namespace TriggerScript

/-- A head row and the continuation rows attached to it, in row order. -/
structure Declaration where
  head : PlacedRow
  attached : List PlacedRow

/-- The declarations among rows of one table. A continuation row is attached to the nearest head
above it when their keys agree, and to no head otherwise. -/
def declarationsIn : List PlacedRow → List Declaration
  | [] => []
  | p :: ps =>
      if p.row.isContinuation then declarationsIn ps
      else
        ⟨p, (ps.takeWhile (·.row.isContinuation)).filter (·.row.key = p.row.key)⟩ ::
          declarationsIn ps

def Table.declarations (t : Table) : List Declaration := declarationsIn t.placed

theorem Table.map_row_placed (t : Table) : t.placed.map (·.row) = t.rows := by
  rw [placed, List.map_map]
  exact List.zipIdx_map_fst 0 t.rows

def declarations (tables : List Table) : List Declaration := tables.flatMap Table.declarations

/-- The rule of a head row and the rows attached to it: its actions are that of the head and then
those of the attached rows. -/
def ruleOfRows (head : Row) (attached : List Row) : Except RuleError Rule := do
  let rule ← head.decodeRule
  let action ← head.decodeAction
  let steps ← attached.mapM Row.decodeContinuation
  .ok { rule with actions := { action } :: steps }

namespace Declaration

def rule (d : Declaration) : Except RuleError Rule :=
  ruleOfRows d.head.row (d.attached.map (·.row))

def placed? (d : Declaration) : Option Placed :=
  match d.rule with
  | .ok rule => some ⟨rule, d.head.file, d.head.index⟩
  | .error _ => none

theorem placed?_eq_some {d : Declaration} {p : Placed} :
    d.placed? = some p ↔ ∃ rule, d.rule = .ok rule ∧ p = ⟨rule, d.head.file, d.head.index⟩ := by
  unfold placed?
  split
  · rename_i rule hrule
    simp [hrule, eq_comm]
  · rename_i fault hfault
    simp [hfault]

end Declaration

theorem Row.declares_of_decodeRule {r : Row} {rule : Rule} (h : r.decodeRule = .ok rule) :
    rule.link.entry = r.entry ∧ rule.link.sourceType.id = r.sourceType ∧ rule.id = r.id ∧
      ∃ action, r.decodeAction = .ok action ∧ rule.actions = [{ action }] := by
  unfold decodeRule at h
  dsimp only at h
  split at h
  · rename_i known hknown
    obtain ⟨source, hsource, h⟩ := bind_eq_ok.mp h
    obtain ⟨spec, -, h⟩ := bind_eq_ok.mp h
    obtain ⟨action, haction, h⟩ := bind_eq_ok.mp h
    obtain ⟨target, -, h⟩ := bind_eq_ok.mp h
    cases hsource
    cases h
    exact ⟨rfl, SourceType.id_of_ofId? hknown, rfl, action, haction, rfl⟩
  · cases h

namespace Block

def declaration (b : Block) : Declaration where
  head := b.head
  attached := b.followers.filter (·.row.key = b.head.row.key)

/-- The attached rows are decoded into the steps of the block, unless one of them spoils it. -/
theorem mapM_attached (b : Block) :
    (b.isSpoiled = false ∧
      (b.declaration.attached.map (·.row)).mapM Row.decodeContinuation = .ok b.steps) ∨
    (b.isSpoiled = true ∧
      ∃ fault, (b.declaration.attached.map (·.row)).mapM Row.decodeContinuation = .error fault) := by
  obtain ⟨head, followers⟩ := b
  induction followers with
  | nil => exact .inl ⟨rfl, rfl⟩
  | cons p ps ih =>
    have hp : addition ⟨head, p :: ps⟩ p = addition ⟨head, ps⟩ p := rfl
    simp only [declaration, isSpoiled, steps, List.filter_cons, List.any_cons,
      List.filterMap_cons] at ih ⊢
    by_cases hkey : p.row.key = head.row.key
    · rw [if_pos (decide_eq_true hkey), List.map_cons, List.mapM_cons, hp, addition, if_pos hkey]
      cases hstep : p.row.decodeContinuation with
      | error fault => exact .inr ⟨rfl, fault, rfl⟩
      | ok step =>
        rcases ih with ⟨hclean, hsteps⟩ | ⟨hspoiled, fault, hfault⟩
        · refine .inl ⟨hclean, ?_⟩
          rw [hsteps]
          rfl
        · refine .inr ⟨hspoiled, fault, ?_⟩
          rw [hfault]
          rfl
    · rw [if_neg (by simpa using hkey), hp, addition, if_neg hkey]
      exact ih

theorem rule?_eq (b : Block) : b.rule? = b.declaration.placed? := by
  unfold rule? Declaration.placed? Declaration.rule ruleOfRows
  have hhead : b.declaration.head = b.head := rfl
  rw [hhead]
  cases hrule : b.head.row.decodeRule with
  | error fault => rfl
  | ok rule =>
    obtain ⟨-, -, -, action, haction, hactions⟩ := Row.declares_of_decodeRule hrule
    rw [haction]
    rcases b.mapM_attached with ⟨hclean, hsteps⟩ | ⟨hspoiled, fault, hfault⟩
    · dsimp only [bind, Except.bind]
      rw [hsteps, hclean, hactions]
      rfl
    · dsimp only [bind, Except.bind]
      rw [hfault, hspoiled]
      rfl

end Block

theorem splitBlocks_fst (ps : List PlacedRow) :
    (splitBlocks ps).1 = ps.takeWhile (·.row.isContinuation) := by
  induction ps with
  | nil => rfl
  | cons p ps ih =>
    rw [splitBlocks, List.takeWhile_cons]
    dsimp only
    split
    · rw [ih]
    · rfl

theorem map_declaration_splitBlocks (ps : List PlacedRow) :
    (splitBlocks ps).2.map Block.declaration = declarationsIn ps := by
  induction ps with
  | nil => rfl
  | cons p ps ih =>
    rw [splitBlocks, declarationsIn]
    dsimp only
    split
    · exact ih
    · rw [List.map_cons, ih, splitBlocks_fst]
      rfl

theorem Table.rules_eq (t : Table) : t.rules = t.declarations.filterMap Declaration.placed? := by
  unfold rules declarations blocks
  rw [← map_declaration_splitBlocks, List.filterMap_map]
  exact List.filterMap_congr fun b _ => b.rule?_eq

theorem flatMap_rules (tables : List Table) :
    tables.flatMap Table.rules = (declarations tables).filterMap Declaration.placed? := by
  rw [declarations, List.filterMap_flatMap]
  congr 1
  funext t
  exact t.rules_eq

theorem firstOfKeys_sublist (seen : List (Link × RuleId)) (ps : List Placed) :
    (firstOfKeys seen ps).Sublist ps := by
  induction ps generalizing seen with
  | nil => exact .slnil
  | cons p ps ih =>
    unfold firstOfKeys
    split
    · exact (ih seen).cons p
    · exact (ih _).cons_cons p

/-- The rule without its link, if that leads to none of the rules. -/
def Rule.linkedAmong (rules : List Rule) (r : Rule) : Rule :=
  { r with linkTo := r.linkTo.filter fun next => rules.any (·.id == next) }

private theorem rule_dropDangling (rules : List Placed) (p : Placed) :
    (if (danglingLink? rules p).isSome then { p with rule := { p.rule with linkTo := none } }
      else p).rule = p.rule.linkedAmong (rules.map (·.rule)) := by
  obtain ⟨⟨link, id, spec, actions, target, linkTo, comment⟩, file, row⟩ := p
  cases linkTo with
  | none => rfl
  | some next =>
    rcases Bool.eq_false_or_eq_true (rules.any (·.rule.id == next)) with hany | hany <;>
      simp [-List.any_eq_true, -List.any_eq_false, danglingLink?, Rule.linkedAmong,
        Option.filter_some, Function.comp_def, hany]

/-- The rules of a link among some rules, linked among themselves. -/
def linkedRules (rules : List Rule) (l : Link) : List Rule :=
  (rules.filter (·.link == l)).map (·.linkedAmong (rules.filter (·.link == l)))

theorem cleaned_eq (ps : List Placed) (l : Link) :
    cleaned ps l = linkedRules (ps.map (·.rule)) l := by
  have hrules : (ps.map (·.rule)).filter (·.link == l) = (rulesOf ps l).map (·.rule) := by
    rw [List.filter_map]
    rfl
  unfold cleaned dropDangling linkedRules
  rw [hrules, List.map_map, List.map_map]
  apply List.map_congr_left
  intro p _
  exact rule_dropDangling (rulesOf ps l) p

end TriggerScript
