import TriggerScript.Proofs.Building
import TriggerScript.Proofs.FiringLaws

/-!
# Rules of built stores

The rules of a built store are those of the tables, up to links that lead nowhere. So the parameters
of their actions are within the bounds that decoding checks, and the steps of a timed action list
ascend in number.
-/

namespace TriggerScript

/-- What decoding guarantees for the parameters of an action on script state. -/
def Action.InBounds : Action → Prop
  | .setEventPhase phase => phase ≤ maxPhase
  | .incEventPhase inc dec => inc ≤ maxPhase ∧ dec ≤ maxPhase
  | .randomPhase phases => phases ≠ [] ∧ ∀ phase ∈ phases, phase ≤ maxPhase
  | .randomPhaseRange min max => min ≤ max ∧ max ≤ maxPhase
  | .createTimedEvent _ initialMin initialMax repeatMin repeatMax _ =>
      initialMin ≤ initialMax ∧ repeatMin ≤ repeatMax
  | _ => True

def Rule.InBounds (r : Rule) : Prop := ∀ step ∈ r.actions, step.action.InBounds

theorem Action.WellFormed.inBounds {a : Action} (h : a.WellFormed) : a.InBounds := by
  cases a
  case incEventPhase inc dec => exact h.2
  case randomPhase phases => exact ⟨h.1, fun phase hphase => (h.2 phase hphase).2⟩
  case createTimedEvent id initialMin initialMax repeatMin repeatMax chance =>
    exact ⟨h.1, h.2.1⟩
  all_goals first
  | exact h
  | trivial

theorem Rule.WellFormed.inBounds {r : Rule} (h : r.WellFormed) : r.InBounds :=
  fun step hstep => (h.actions step hstep).action.inBounds

theorem exists_of_mem_cleaned {ps : List Placed} {l : Link} {r : Rule} (h : r ∈ cleaned ps l) :
    ∃ p ∈ ps, ∃ linkTo, r = { p.rule with linkTo } := by
  obtain ⟨q, hq, rfl⟩ := List.mem_map.mp h
  obtain ⟨p, hp, rfl⟩ := List.mem_map.mp hq
  refine ⟨p, (List.mem_filter.mp hp).1, ?_⟩
  dsimp only
  split
  · exact ⟨none, rfl⟩
  · exact ⟨p.rule.linkTo, rfl⟩

namespace RuleSet

theorem ascending_insertById {rules : List Rule} (h : rules.Pairwise (·.id ≤ ·.id)) (rule : Rule) :
    (insertById rule rules).Pairwise (·.id ≤ ·.id) := by
  induction rules with
  | nil => exact List.pairwise_singleton _ rule
  | cons r rs ih =>
    obtain ⟨hfirst, hrest⟩ := List.pairwise_cons.mp h
    unfold insertById
    by_cases hlt : rule.id < r.id
    · rw [if_pos hlt]
      refine List.pairwise_cons.mpr ⟨?_, h⟩
      intro x hx
      rcases List.mem_cons.mp hx with rfl | hx
      · exact UInt32.le_of_lt hlt
      · exact UInt32.le_trans (UInt32.le_of_lt hlt) (hfirst x hx)
    · rw [if_neg hlt]
      refine List.pairwise_cons.mpr ⟨?_, ih hrest⟩
      intro x hx
      rcases List.mem_cons.mp ((perm_insertById rule rs).mem_iff.mp hx) with rfl | hx
      · exact UInt32.not_lt.mp hlt
      · exact hfirst x hx

theorem ascending_sortById (rules : List Rule) :
    (sortById rules).Pairwise (·.id ≤ ·.id) := by
  unfold sortById
  apply List.foldlRecOn (motive := fun sorted : List Rule => sorted.Pairwise (·.id ≤ ·.id))
  · exact .nil
  · intro sorted h rule _
    exact ascending_insertById h rule

structure Stepwise (set : RuleSet) : Prop where
  nonempty : set.rules ≠ []
  ascending : (set.rules.map (·.id)).Pairwise (· < ·)

end RuleSet

namespace Store

theorem rules_ne_nil_of_find? {tables : List Table} {link : Link} {set : RuleSet}
    (h : (build tables).1.find? link = some set) : set.rules ≠ [] := by
  obtain ⟨hlink, hset⟩ := eq_ofRules_of_find? h
  intro hnil
  rw [hset] at hnil
  generalize firstOfKeys [] (tables.flatMap Table.rules) = ps at hlink hnil
  have hperm := (perm_ofRules link (cleaned ps link)).symm
  rw [hnil, List.perm_nil] at hperm
  exact mem_linksOf_iff.mp hlink hperm

theorem ascending_of_find? {tables : List Table} {link : Link} {set : RuleSet}
    (h : (build tables).1.find? link = some set) (hlist : link.sourceType = .timedActionList) :
    (set.rules.map (·.id)).Pairwise (· < ·) := by
  have hset : set = .ofRules link (cleaned (firstOfKeys [] (tables.flatMap Table.rules)) link) :=
    (eq_ofRules_of_find? h).2
  have hsorted : set.rules.Pairwise (·.id ≤ ·.id) := by
    rw [hset, RuleSet.ofRules]
    dsimp only
    rw [if_pos hlist]
    exact RuleSet.ascending_sortById _
  have hdistinct := List.pairwise_map.mp (List.nodup_iff_pairwise_ne.mp (built_of_find? h).distinct)
  apply List.pairwise_map.mpr
  apply (hsorted.and hdistinct).imp
  intro a b h
  exact UInt32.lt_of_le_of_ne h.1 h.2

theorem stepwise_of_timedList? {tables : List Table} {id : UInt32} {set : RuleSet}
    (h : (build tables).1.timedList? id = some set) : set.Stepwise :=
  ⟨rules_ne_nil_of_find? h, ascending_of_find? h rfl⟩

/-- A rule of a built store has passed all checks, up to its link. -/
theorem exists_wellFormed_of_find? {tables : List Table} {link : Link} {set : RuleSet}
    (h : (build tables).1.find? link = some set) {r : Rule} (hr : r ∈ set.rules) :
    ∃ q : Rule, q.WellFormed ∧ ∃ linkTo, r = { q with linkTo } := by
  have hset : set = .ofRules link (cleaned (firstOfKeys [] (tables.flatMap Table.rules)) link) :=
    (eq_ofRules_of_find? h).2
  rw [hset] at hr
  obtain ⟨p, hp, hlink⟩ := exists_of_mem_cleaned ((perm_ofRules link _).mem_iff.mp hr)
  obtain ⟨t, -, ht⟩ := List.mem_flatMap.mp (mem_of_mem_firstOfKeys hp).1
  exact ⟨p.rule, wellFormed_of_mem_rules ht, hlink⟩

theorem inBounds_of_find? {tables : List Table} {link : Link} {set : RuleSet}
    (h : (build tables).1.find? link = some set) : ∀ r ∈ set.rules, r.InBounds := by
  intro r hr
  obtain ⟨q, hq, linkTo, rfl⟩ := exists_wellFormed_of_find? h hr
  exact hq.inBounds

end Store

namespace Script

/-- A script over the store of some tables, whose own rules are a set of the store, or none. -/
structure BuiltFrom (s : Script) (tables : List Table) : Prop where
  store : s.store = (Store.build tables).1
  rules : s.rules.rules = [] ∨ s.store.find? s.rules.link = some s.rules

theorem BuiltFrom.of_keeps {s t : Script} {tables : List Table} (h : s.BuiltFrom tables)
    (hk : s.Keeps t) : t.BuiltFrom tables where
  store := hk.store.trans h.store
  rules := by
    rw [hk.rules, hk.store]
    exact h.rules

theorem builtFrom_create {tables : List Table} {link : Link} (owner : Handle)
    (config : EngineConfig) :
    (create owner (((Store.build tables).1.find? link).getD default) (Store.build tables).1
      config).BuiltFrom tables := by
  unfold create fresh
  rw [initTimers_eq]
  refine ⟨rfl, ?_⟩
  cases hset : (Store.build tables).1.find? link with
  | none => exact .inl rfl
  | some set =>
    have hlink : set.link = link := (Store.built_of_find? hset).link
    right
    show (Store.build tables).1.find? set.link = some set
    rw [hlink, hset]

theorem BuiltFrom.inBounds {s : Script} {tables : List Table} (h : s.BuiltFrom tables)
    {set : RuleSet} (hset : s.Uses set) : ∀ r ∈ set.rules, r.InBounds := by
  rcases hset with rfl | ⟨id, hid⟩
  · rcases h.rules with hnil | hown
    · rw [hnil]
      simp
    · rw [h.store] at hown
      exact Store.inBounds_of_find? hown
  · rw [h.store] at hid
    exact Store.inBounds_of_find? hid

end Script

end TriggerScript
