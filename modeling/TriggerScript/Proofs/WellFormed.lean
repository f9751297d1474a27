import TriggerScript.Proofs.BuiltSets
import TriggerScript.Proofs.Declarations

/-!
# Well-formed rule sets

Only well-formed rules are stored: each has passed the checks of its columns, its set finds it by
its number, and its link leads to a rule of the same set. A timed action list ascends in number, any
other set keeps the order of declaration.
-/

namespace TriggerScript

/-- The rule of a declaration, perhaps with another link. -/
def Rule.DeclaredBy (r : Rule) (d : Declaration) : Prop :=
  ∃ rule linkTo, d.rule = .ok rule ∧ r = { rule with linkTo }

structure RuleSet.WellFormed (set : RuleSet) (tables : List Table) : Prop where
  owned : ∀ r ∈ set.rules, r.link = set.link
  distinct : (set.rules.map (·.id)).Nodup
  find : ∀ id r, set.find? id = some r ↔ r ∈ set.rules ∧ r.id = id
  index : ∀ id i, set.indexOf? id = some i ↔ ∃ r, set.rules[i]? = some r ∧ r.id = id
  rules : ∀ r ∈ set.rules, r.WellFormed
  links : ∀ r ∈ set.rules, ∀ next, r.linkTo = some next → next ≠ 0 ∧ ∃ q ∈ set.rules, q.id = next
  ascending : set.link.sourceType = .timedActionList → (set.rules.map (·.id)).Pairwise (· < ·)
  declared : set.link.sourceType ≠ .timedActionList →
    List.SublistForall₂ Rule.DeclaredBy set.rules (declarations tables)

/-- With distinct keys a lookup finds the one element that has the key, whatever the order. -/
theorem find?_key_eq_some_iff {α κ : Type} [BEq κ] [LawfulBEq κ] {key : α → κ} {xs : List α}
    (hdistinct : (xs.map key).Nodup) {k : κ} {x : α} :
    xs.find? (key · == k) = some x ↔ x ∈ xs ∧ key x = k := by
  constructor
  · intro h
    exact ⟨List.mem_of_find?_eq_some h, by simpa using List.find?_some h⟩
  · rintro ⟨hx, rfl⟩
    have hsome : (xs.find? (key · == key x)).isSome = true :=
      List.find?_isSome.mpr ⟨x, hx, beq_self_eq_true (key x)⟩
    obtain ⟨y, hy⟩ := Option.isSome_iff_exists.mp hsome
    have hkey : key y = key x := by simpa using List.find?_some hy
    rw [hy, List.inj_on_of_nodup_map hdistinct (List.mem_of_find?_eq_some hy) hx hkey]

namespace RuleSet

variable {set : RuleSet}

theorem find?_eq_some_iff (hdistinct : (set.rules.map (·.id)).Nodup) {id : RuleId} {r : Rule} :
    set.find? id = some r ↔ r ∈ set.rules ∧ r.id = id := by
  have hreversed : (set.rules.reverse.map (·.id)).Nodup := by
    rwa [List.map_reverse, List.nodup_reverse]
  unfold find?
  rw [find?_key_eq_some_iff hreversed, List.mem_reverse]

theorem indexOf?_eq_some_iff (hdistinct : (set.rules.map (·.id)).Nodup) {id : RuleId} {i : Nat} :
    set.indexOf? id = some i ↔ ∃ r, set.rules[i]? = some r ∧ r.id = id := by
  have hreversed : (set.rules.zipIdx.reverse.map (·.1.id)).Nodup := by
    have hids : set.rules.zipIdx.map (·.1.id) = set.rules.map (·.id) :=
      List.map_map.symm.trans (congrArg (List.map (·.id)) (List.zipIdx_map_fst 0 set.rules))
    rwa [List.map_reverse, List.nodup_reverse, hids]
  unfold indexOf?
  rw [Option.map_eq_some_iff]
  simp only [find?_key_eq_some_iff hreversed, List.mem_reverse, Prod.exists,
    List.mem_zipIdx_iff_getElem?]
  constructor
  · rintro ⟨r, j, ⟨hr, hid⟩, rfl⟩
    exact ⟨r, hr, hid⟩
  · rintro ⟨r, hr, hid⟩
    exact ⟨r, i, ⟨hr, hid⟩, rfl⟩

end RuleSet

theorem Rule.WellFormed.linkedAmong {r : Rule} (h : r.WellFormed) (rules : List Rule) :
    (r.linkedAmong rules).WellFormed := by
  refine ⟨h.spec, h.nonempty, h.actions, h.target, ?_⟩
  intro hzero
  exact h.linkTo (Option.filter_eq_some_iff.mp hzero).1

theorem mem_linkedRules {rules : List Rule} {l : Link} {r : Rule} (h : r ∈ linkedRules rules l) :
    ∃ q ∈ rules, q.link = l ∧ r = q.linkedAmong (rules.filter (·.link == l)) := by
  obtain ⟨q, hq, rfl⟩ := List.mem_map.mp h
  obtain ⟨hq, hlink⟩ := List.mem_filter.mp hq
  exact ⟨q, hq, by simpa using hlink, rfl⟩

theorem exists_next_of_mem_linkedRules {rules : List Rule} {l : Link} {r : Rule}
    (h : r ∈ linkedRules rules l) {next : RuleId} (hnext : r.linkTo = some next) :
    ∃ q ∈ linkedRules rules l, q.id = next := by
  obtain ⟨q, -, -, rfl⟩ := mem_linkedRules h
  obtain ⟨target, htarget, hid⟩ := List.any_eq_true.mp (Option.filter_eq_some_iff.mp hnext).2
  exact ⟨_, List.mem_map_of_mem htarget, eq_of_beq hid⟩

theorem sublistForall₂_of_sublist_filterMap {α β γ : Type} {R : γ → α → Prop} {f : α → Option β}
    {g : β → γ} (h : ∀ a b, f a = some b → R (g b) a) {bs : List β} {as : List α}
    (hsub : bs.Sublist (as.filterMap f)) : List.SublistForall₂ R (bs.map g) as := by
  induction as generalizing bs with
  | nil =>
    rw [List.filterMap_nil, List.sublist_nil] at hsub
    rw [hsub]
    exact .nil
  | cons a as ih =>
    cases hf : f a with
    | none =>
      rw [List.filterMap_cons_none hf] at hsub
      exact .cons_right (ih hsub)
    | some b =>
      rw [List.filterMap_cons_some hf] at hsub
      cases hsub with
      | cons _ hrest => exact .cons_right (ih hrest)
      | cons_cons _ hrest => exact .cons (h a b hf) (ih hrest)

namespace Store

/-- The set of a link in a built store belongs to the link, and its rules are well-formed. -/
theorem only_wellFormed_rules_are_stored {tables : List Table} {link : Link} {set : RuleSet}
    (h : (build tables).1.find? link = some set) : set.link = link ∧ set.WellFormed tables := by
  have hbuilt := built_of_find? h
  have hset := (eq_ofRules_of_find? h).2
  rw [cleaned_eq] at hset
  have hsub : (firstOfKeys [] (tables.flatMap Table.rules)).Sublist
      ((declarations tables).filterMap Declaration.placed?) := by
    rw [← flatMap_rules]
    exact firstOfKeys_sublist [] _
  have hwell : ∀ r ∈ (firstOfKeys [] (tables.flatMap Table.rules)).map (·.rule), r.WellFormed := by
    intro r hr
    obtain ⟨p, hp, rfl⟩ := List.mem_map.mp hr
    obtain ⟨t, -, ht⟩ := List.mem_flatMap.mp (mem_of_mem_firstOfKeys hp).1
    exact wellFormed_of_mem_rules ht
  -- From here on it does not matter which rules are the first of their keys.
  generalize firstOfKeys [] (tables.flatMap Table.rules) = ps at hset hsub hwell
  have hmem : ∀ r, r ∈ set.rules ↔ r ∈ linkedRules (ps.map (·.rule)) link := by
    intro r
    rw [hset]
    exact (perm_ofRules link _).mem_iff
  have hrules : ∀ r ∈ set.rules, r.WellFormed := by
    intro r hr
    obtain ⟨q, hq, -, rfl⟩ := mem_linkedRules ((hmem r).mp hr)
    exact (hwell q hq).linkedAmong _
  refine ⟨hbuilt.link, ?_⟩
  constructor
  · rw [hbuilt.link]
    exact hbuilt.owned
  · exact hbuilt.distinct
  · intro id r
    exact RuleSet.find?_eq_some_iff hbuilt.distinct
  · intro id i
    exact RuleSet.indexOf?_eq_some_iff hbuilt.distinct
  · exact hrules
  · intro r hr next hnext
    refine ⟨?_, ?_⟩
    · rintro rfl
      exact (hrules r hr).linkTo hnext
    · obtain ⟨q, hq, hid⟩ := exists_next_of_mem_linkedRules ((hmem r).mp hr) hnext
      exact ⟨q, (hmem q).mpr hq, hid⟩
  · intro hlist
    rw [hbuilt.link] at hlist
    exact ascending_of_find? h hlist
  · intro hlist
    rw [hbuilt.link] at hlist
    rw [hset, RuleSet.ofRules]
    dsimp only
    rw [if_neg hlist, linkedRules, List.filter_map, List.map_map]
    apply sublistForall₂_of_sublist_filterMap _ (List.filter_sublist.trans hsub)
    intro d p hp
    obtain ⟨rule, hrule, rfl⟩ := Declaration.placed?_eq_some.mp hp
    exact ⟨rule, _, hrule, rfl⟩

private def sentryRow (change : Row → Row) : List Row := (Table.single 100 0 4 change).rows

/-- Rule 2 has a second action and is linked to rule 1, whose own link leads nowhere. Rule 3 is
rejected for its chance. -/
private def sentryTables : List Table :=
  [⟨"sentry.toml",
    sentryRow (fun row => { row with id := 2, linkTo := some 1 }) ++
      sentryRow (fun row =>
        { row with
          id := 2, eventKind := none, actionKind := 22
          actionParams := row.actionParams.setIfInBounds 0 12 }) ++
      sentryRow (fun row => { row with id := 3, chance := some 101 }) ++
      sentryRow (fun row => { row with linkTo := some 9 })⟩]

theorem sentry_rules_wellFormed :
    ∃ set, (build sentryTables).1.find? (.creature 100) = some set ∧
      set.rules.map (fun r => (r.id, r.linkTo)) = [(2, some 1), (1, none)] ∧
      set.link = .creature 100 ∧ set.WellFormed sentryTables := by
  have hsome : ((build sentryTables).1.find? (.creature 100)).isSome = true := by decide +kernel
  obtain ⟨set, hset⟩ := Option.isSome_iff_exists.mp hsome
  have hrules : ((build sentryTables).1.find? (.creature 100)).map
      (fun set => set.rules.map fun r => (r.id, r.linkTo)) = some [(2, some 1), (1, none)] := by
    decide +kernel
  rw [hset] at hrules
  exact ⟨set, hset, Option.some.inj hrules, only_wellFormed_rules_are_stored hset⟩

end Store

end TriggerScript
