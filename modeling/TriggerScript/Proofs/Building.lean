import TriggerScript.Proofs.Decoding
import TriggerScript.Store.Build

/-!
# Built stores

Every set of a built store belongs to its link, tells its rules apart by their numbers, and has
cooldowns in order. The steps of timed action lists are timers.
-/

namespace TriggerScript

structure Rule.Decoded (r : Rule) : Prop where
  cooldown : r.spec.cooldownMin ≤ r.spec.cooldownMax
  listed : r.link.sourceType = .timedActionList → r.event.isUpdate = true

theorem Rule.WellFormed.decoded {r : Rule} (h : r.WellFormed) : r.Decoded :=
  ⟨h.spec.cooldown, h.spec.listed⟩

theorem Block.wellFormed_of_mem_steps {b : Block} {step : ActionStep} (h : step ∈ b.steps) :
    step.WellFormed := by
  obtain ⟨p, -, hp⟩ := List.mem_filterMap.mp h
  split at hp
  · rename_i hadded
    cases hp
    unfold addition at hadded
    split at hadded
    · split at hadded
      · rename_i hstep
        cases hadded
        exact Row.wellFormed_of_decodeContinuation hstep
      · cases hadded
    · cases hadded
  · cases hp

theorem wellFormed_of_mem_rules {t : Table} {p : Placed} (h : p ∈ t.rules) :
    p.rule.WellFormed := by
  obtain ⟨b, -, hb⟩ := List.mem_filterMap.mp h
  unfold Block.rule? at hb
  split at hb
  · cases hb
  · rename_i rule hrule
    split at hb
    · cases hb
    · cases hb
      have hhead := Row.wellFormed_of_decodeRule hrule
      refine ⟨hhead.spec, ?_, ?_, hhead.target, hhead.linkTo⟩
      · exact List.append_ne_nil_of_left_ne_nil hhead.nonempty _
      · intro step hstep
        rcases List.mem_append.mp hstep with hstep | hstep
        · exact hhead.actions step hstep
        · exact Block.wellFormed_of_mem_steps hstep

theorem mem_of_mem_firstOfKeys {seen : List (Link × RuleId)} {ps : List Placed} {p : Placed}
    (h : p ∈ firstOfKeys seen ps) : p ∈ ps ∧ p.key ∉ seen := by
  induction ps generalizing seen with
  | nil => cases h
  | cons q ps ih =>
    unfold firstOfKeys at h
    split at h
    · exact ⟨List.mem_cons_of_mem q (ih h).1, (ih h).2⟩
    · rename_i hq
      rcases List.mem_cons.mp h with rfl | h
      · exact ⟨List.mem_cons_self, by simpa using hq⟩
      · obtain ⟨hmem, hseen⟩ := ih h
        exact ⟨List.mem_cons_of_mem q hmem, fun hs => hseen (List.mem_cons_of_mem _ hs)⟩

theorem nodup_firstOfKeys (seen : List (Link × RuleId)) (ps : List Placed) :
    ((firstOfKeys seen ps).map Placed.key).Nodup := by
  induction ps generalizing seen with
  | nil => exact List.nodup_nil
  | cons q ps ih =>
    unfold firstOfKeys
    split
    · exact ih seen
    · rw [List.map_cons, List.nodup_cons]
      refine ⟨?_, ih _⟩
      intro hmem
      obtain ⟨p, hp, hkey⟩ := List.mem_map.mp hmem
      have hseen := (mem_of_mem_firstOfKeys hp).2
      rw [hkey] at hseen
      exact hseen List.mem_cons_self

theorem perm_insertById (rule : Rule) (rules : List Rule) :
    (RuleSet.insertById rule rules).Perm (rule :: rules) := by
  induction rules with
  | nil => exact .refl _
  | cons r rs ih =>
    unfold RuleSet.insertById
    split
    · exact .refl _
    · exact (ih.cons r).trans (.swap rule r rs)

private theorem perm_foldl_insertById (rules sorted : List Rule) :
    (rules.foldl (fun sorted rule => RuleSet.insertById rule sorted) sorted).Perm
      (sorted ++ rules) := by
  induction rules generalizing sorted with
  | nil => rw [List.append_nil]; exact .refl _
  | cons rule rules ih =>
    rw [List.foldl_cons]
    exact (ih _).trans
      (((perm_insertById rule sorted).append_right rules).trans List.perm_middle.symm)

theorem perm_sortById (rules : List Rule) : (RuleSet.sortById rules).Perm rules :=
  perm_foldl_insertById rules []

theorem perm_ofRules (link : Link) (rules : List Rule) :
    (RuleSet.ofRules link rules).rules.Perm rules := by
  unfold RuleSet.ofRules
  dsimp only
  split
  · exact perm_sortById rules
  · exact .refl rules

def cleaned (ps : List Placed) (l : Link) : List Rule :=
  (dropDangling (rulesOf ps l)).map (·.rule)

theorem ids_cleaned (ps : List Placed) (l : Link) :
    (cleaned ps l).map (·.id) = (rulesOf ps l).map (·.rule.id) := by
  simp only [cleaned, dropDangling, List.map_map]
  apply List.map_congr_left
  intro p _
  dsimp only [Function.comp]
  split <;> rfl

theorem mem_linksOf_iff {ps : List Placed} {l : Link} : l ∈ linksOf ps ↔ cleaned ps l ≠ [] := by
  have hnil : cleaned ps l = [] ↔ ∀ p ∈ ps, p.rule.link ≠ l := by
    unfold cleaned dropDangling rulesOf
    rw [List.map_eq_nil_iff, List.map_eq_nil_iff, List.filter_eq_nil_iff]
    simp
  rw [linksOf, List.mem_eraseDups, Ne, hnil]
  simp

theorem mem_cleaned {ps : List Placed} {l : Link} {r : Rule} (h : r ∈ cleaned ps l) :
    ∃ p ∈ ps, p.rule.link = l ∧ r.link = p.rule.link ∧ r.spec = p.rule.spec := by
  obtain ⟨q, hq, rfl⟩ := List.mem_map.mp h
  obtain ⟨p, hp, rfl⟩ := List.mem_map.mp hq
  obtain ⟨hp, hlink⟩ := List.mem_filter.mp hp
  refine ⟨p, hp, by simpa using hlink, ?_⟩
  dsimp only
  split <;> exact ⟨rfl, rfl⟩

theorem nodup_ids_rulesOf {ps : List Placed} (h : (ps.map Placed.key).Nodup) (l : Link) :
    ((rulesOf ps l).map (·.rule.id)).Nodup := by
  have hsub : ((rulesOf ps l).map Placed.key).Nodup :=
    h.sublist (List.filter_sublist.map Placed.key)
  rw [List.nodup_iff_pairwise_ne, List.pairwise_map] at hsub ⊢
  apply hsub.imp_of_mem
  intro p q hp hq hne hid
  have hpl : p.rule.link = l := by simpa using (List.mem_filter.mp hp).2
  have hql : q.rule.link = l := by simpa using (List.mem_filter.mp hq).2
  apply hne
  rw [Placed.key, Placed.key, hpl, hql, hid]

structure RuleSet.Built (set : RuleSet) (l : Link) : Prop where
  link : set.link = l
  owned : ∀ r ∈ set.rules, r.link = l
  distinct : (set.rules.map (·.id)).Nodup
  decoded : ∀ r ∈ set.rules, r.Decoded

theorem built_ofRules {ps : List Placed} (l : Link) (hkeys : (ps.map Placed.key).Nodup)
    (hdecoded : ∀ p ∈ ps, p.rule.Decoded) : (RuleSet.ofRules l (cleaned ps l)).Built l := by
  have hperm := perm_ofRules l (cleaned ps l)
  refine ⟨rfl, ?_, ?_, ?_⟩
  · intro r hr
    obtain ⟨p, -, hlink, heq, -⟩ := mem_cleaned (hperm.mem_iff.mp hr)
    rw [heq, hlink]
  · rw [(hperm.map _).nodup_iff, ids_cleaned]
    exact nodup_ids_rulesOf hkeys l
  · intro r hr
    obtain ⟨p, hp, -, hlink, hspec⟩ := mem_cleaned (hperm.mem_iff.mp hr)
    have h := hdecoded p hp
    refine ⟨?_, ?_⟩
    · rw [hspec]
      exact h.cooldown
    · rw [hlink, Rule.event, hspec]
      exact h.listed

namespace Store

private theorem find?_foldl_insert (f : Link → RuleSet) (ls : List Link) (store : Store)
    (link : Link) :
    (ls.foldl (fun store l => store.insert l (f l)) store).find? link =
      if link ∈ ls then some (f link) else store.find? link := by
  induction ls generalizing store with
  | nil => simp
  | cons l ls ih =>
    rw [List.foldl_cons, ih]
    by_cases hmem : link ∈ ls
    · rw [if_pos hmem, if_pos (List.mem_cons_of_mem l hmem)]
    · rw [if_neg hmem]
      unfold find?
      rw [Std.ExtTreeMap.getElem?_insert]
      by_cases hl : link = l
      · subst hl
        rw [if_pos Std.ReflCmp.compare_self, if_pos List.mem_cons_self]
      · rw [if_neg fun h => hl (Std.LawfulEqOrd.eq_of_compare h).symm,
          if_neg (by simp [hl, hmem])]

theorem find?_ofRules (ps : List Placed) (link : Link) :
    (ofRules ps).find? link =
      if link ∈ linksOf ps then some (.ofRules link (cleaned ps link)) else none :=
  find?_foldl_insert _ _ ∅ link

theorem eq_ofRules_of_find? {ps : List Placed} {link : Link} {set : RuleSet}
    (h : (ofRules ps).find? link = some set) :
    link ∈ linksOf ps ∧ set = .ofRules link (cleaned ps link) := by
  rw [find?_ofRules] at h
  split at h
  · rename_i hlink
    cases h
    exact ⟨hlink, rfl⟩
  · cases h

theorem built_of_find? {tables : List Table} {link : Link} {set : RuleSet}
    (h : (build tables).1.find? link = some set) : set.Built link := by
  have hset : set = .ofRules link (cleaned (firstOfKeys [] (tables.flatMap Table.rules)) link) :=
    (eq_ofRules_of_find? h).2
  rw [hset]
  apply built_ofRules link (nodup_firstOfKeys [] _)
  intro p hp
  obtain ⟨t, -, ht⟩ := List.mem_flatMap.mp (mem_of_mem_firstOfKeys hp).1
  exact (wellFormed_of_mem_rules ht).decoded

end Store

def Table.single (entry : Int64) (sourceType eventKind : UInt32) (change : Row → Row) : Table where
  file := "single.toml"
  rows := [change { entry, sourceType, id := 1, eventKind := some eventKind }]

end TriggerScript
