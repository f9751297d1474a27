import Mathlib.Algebra.BigOperators.Group.List.Lemmas
import TriggerScript.Proofs.Orphans
import TriggerScript.Proofs.RowFindings

/-!
# Accounting for rows

Every row of some tables ends up in the store or in the findings. A head becomes one rule, with the
steps of the rows attached to it, unless an error is about one of these rows; a continuation that is
attached to no head is reported; and of declarations with the same link and number the first one
stays.
-/

namespace TriggerScript

theorem mem_of_mem_repeatsOfKeys {seen : List (Link × RuleId)} {ps : List Placed} {p : Placed}
    (h : p ∈ repeatsOfKeys seen ps) : p ∈ ps := by
  induction ps generalizing seen with
  | nil => cases h
  | cons q ps ih =>
    unfold repeatsOfKeys at h
    split at h
    · rcases List.mem_cons.mp h with rfl | h
      · exact List.mem_cons_self
      · exact List.mem_cons_of_mem q (ih h)
    · exact List.mem_cons_of_mem q (ih h)

theorem firstOfKeys_eq_filter {seen : List (Link × RuleId)} {ps : List Placed}
    (hnodup : (ps.map Placed.place).Nodup) :
    firstOfKeys seen ps =
      ps.filter fun p => (repeatsOfKeys seen ps).all fun q => q.place ≠ p.place := by
  induction ps generalizing seen with
  | nil => rfl
  | cons p ps ih =>
    rw [List.map_cons, List.nodup_cons] at hnodup
    have hother : ∀ q ∈ ps, q.place ≠ p.place := by
      intro q hq heq
      apply hnodup.1
      rw [← heq]
      exact List.mem_map_of_mem hq
    unfold firstOfKeys repeatsOfKeys
    split
    · rw [ih hnodup.2, List.filter_cons_of_neg (by simp)]
      apply List.filter_congr
      intro q hq
      simp [(hother q hq).symm]
    · rw [ih hnodup.2, List.filter_cons_of_pos]
      simpa using fun q hq => hother q (mem_of_mem_repeatsOfKeys hq)

theorem repeatsOfKeys_filter {seen : List (Link × RuleId)} {before after : List Placed}
    {p : Placed} (hnodup : ((before ++ p :: after).map Placed.place).Nodup) :
    (repeatsOfKeys seen (before ++ p :: after)).filter (·.place = p.place) =
      if p.key ∈ seen ∨ ∃ q ∈ before, q.key = p.key then [p] else [] := by
  induction before generalizing seen with
  | nil =>
    rw [List.nil_append, List.map_cons, List.nodup_cons] at hnodup
    -- The places are distinct, so no later rule is found at this one.
    have hafter : ∀ keys, (repeatsOfKeys keys after).filter (·.place = p.place) = [] := by
      intro keys
      apply List.filter_eq_nil_iff.mpr
      intro q hq heq
      apply hnodup.1
      rw [← of_decide_eq_true heq]
      exact List.mem_map_of_mem (mem_of_mem_repeatsOfKeys hq)
    rw [List.nil_append, repeatsOfKeys]
    by_cases hseen : p.key ∈ seen
    · simp [hseen, hafter]
    · simp [hseen, hafter]
  | cons q before ih =>
    rw [List.cons_append, List.map_cons, List.nodup_cons] at hnodup
    have hne : q.place ≠ p.place := by
      intro heq
      apply hnodup.1
      rw [heq]
      exact List.mem_map_of_mem (List.mem_append_right before List.mem_cons_self)
    rw [List.cons_append, repeatsOfKeys]
    by_cases hseen : q.key ∈ seen
    · rw [if_pos (by simpa using hseen), List.filter_cons_of_neg (by simpa using hne),
        ih hnodup.2]
      congr 1
      apply propext
      grind
    · rw [if_neg (by simpa using hseen), ih hnodup.2]
      congr 1
      apply propext
      grind

theorem mapM_eq_ok_iff {ε α β : Type} {f : α → Except ε β} {xs : List α} :
    (∃ ys, xs.mapM f = .ok ys) ↔ ∀ x ∈ xs, ∃ y, f x = .ok y := by
  induction xs with
  | nil => simp [pure, Except.pure]
  | cons x xs ih =>
    rw [List.forall_mem_cons, ← ih, List.mapM_cons]
    constructor
    · rintro ⟨ys, h⟩
      obtain ⟨y, hy, h⟩ := bind_eq_ok.mp h
      obtain ⟨rest, hrest, -⟩ := bind_eq_ok.mp h
      exact ⟨⟨y, hy⟩, rest, hrest⟩
    · rintro ⟨⟨y, hy⟩, rest, hrest⟩
      exact ⟨y :: rest, bind_eq_ok.mpr ⟨y, hy, bind_eq_ok.mpr ⟨rest, hrest, rfl⟩⟩⟩

namespace Block

variable {b : Block}

theorem errors_headFindings :
    b.headFindings.filter (·.isError) = [] ↔ ∃ rule, b.head.row.decodeRule = .ok rule := by
  unfold headFindings
  cases hrule : b.head.row.decodeRule with
  | error fault => simp [Diagnostic.isError, PlacedRow.report]
  | ok rule => simp [Diagnostic.isError, PlacedRow.report]

theorem errors_findingsOn {rule : Rule} (hrule : b.head.row.decodeRule = .ok rule) {p : PlacedRow}
    (hp : p ∈ b.declaration.attached) :
    (b.findingsOn p).filter (·.isError) = [] ↔ ∃ step, p.row.decodeContinuation = .ok step := by
  have hkey : p.row.key = b.head.row.key := of_decide_eq_true (List.mem_filter.mp hp).2
  unfold findingsOn followerFindings addition
  rw [hrule]
  dsimp only
  rw [if_pos hkey]
  cases hstep : p.row.decodeContinuation with
  | error fault => simp [Diagnostic.isError, PlacedRow.report]
  | ok step => simp [Diagnostic.isError, PlacedRow.report]

/-- A declaration has a rule when no error of its table is about one of its rows. -/
theorem exists_rule_iff :
    (∃ rule, b.declaration.rule = .ok rule) ↔
      b.headFindings.filter (·.isError) = [] ∧
        ∀ p ∈ b.declaration.attached, (b.findingsOn p).filter (·.isError) = [] := by
  rw [errors_headFindings]
  unfold Declaration.rule ruleOfRows
  constructor
  · rintro ⟨_, h⟩
    obtain ⟨rule, hrule, h⟩ := bind_eq_ok.mp h
    obtain ⟨action, -, h⟩ := bind_eq_ok.mp h
    obtain ⟨steps, hsteps, -⟩ := bind_eq_ok.mp h
    refine ⟨⟨rule, hrule⟩, ?_⟩
    intro p hp
    exact (errors_findingsOn hrule hp).mpr
      (List.forall_mem_map.mp (mapM_eq_ok_iff.mp ⟨steps, hsteps⟩) p hp)
  · rintro ⟨⟨rule, hrule⟩, hattached⟩
    obtain ⟨-, -, -, action, haction, -⟩ := Row.declares_of_decodeRule hrule
    obtain ⟨steps, hsteps⟩ := mapM_eq_ok_iff.mpr (List.forall_mem_map.mpr fun p hp =>
      (errors_findingsOn hrule hp).mp (hattached p hp))
    exact ⟨{ rule with actions := { action } :: steps },
      bind_eq_ok.mpr ⟨rule, hrule, bind_eq_ok.mpr ⟨action, haction,
        bind_eq_ok.mpr ⟨steps, hsteps, rfl⟩⟩⟩⟩

end Block

theorem place_of_mem_linkFindings {rules : List Placed} {d : Diagnostic}
    (h : d ∈ linkFindings rules) : d.isError = false ∧ ∃ p ∈ rules, d.place = p.place := by
  rcases List.mem_append.mp h with h | h
  · obtain ⟨p, hp, h⟩ := List.mem_filterMap.mp h
    obtain ⟨target, -, rfl⟩ := Option.map_eq_some_iff.mp h
    exact ⟨rfl, p, hp, rfl⟩
  · obtain ⟨q, hq, h⟩ := List.mem_filterMap.mp h
    obtain ⟨last, -, rfl⟩ := Option.map_eq_some_iff.mp h
    obtain ⟨p, hp, rfl⟩ := List.mem_map.mp hq
    refine ⟨rfl, p, hp, ?_⟩
    rw [Placed.place_report]
    split <;> rfl

section

variable {tables : List Table}

/-- The findings about a row are those of its table, those about repeated keys and those about
links. -/
theorem findingsAbout_build (p : PlacedRow) :
    findingsAbout (Store.build tables).2 p =
      findingsAbout (tables.flatMap Table.findings) p ++
        ((repeatsOfKeys [] (tables.flatMap Table.rules)).filter (·.place = p.place)).map
          (·.report .error .duplicateRuleId) ++
        findingsAbout ((linksOf (firstOfKeys [] (tables.flatMap Table.rules))).flatMap fun link =>
          linkFindings (rulesOf (firstOfKeys [] (tables.flatMap Table.rules)) link)) p := by
  unfold Store.build
  dsimp only
  rw [findingsAbout_append, findingsAbout_append]
  congr 2
  rw [findingsAbout, List.filter_map]
  rfl

private theorem mem_links {d : Diagnostic}
    (h : d ∈ (linksOf (firstOfKeys [] (tables.flatMap Table.rules))).flatMap fun link =>
      linkFindings (rulesOf (firstOfKeys [] (tables.flatMap Table.rules)) link)) :
    d.isError = false ∧ ∃ p ∈ tables.flatMap Table.rules, d.place = p.place := by
  obtain ⟨link, -, hd⟩ := List.mem_flatMap.mp h
  obtain ⟨hwarning, p, hp, hplace⟩ := place_of_mem_linkFindings hd
  exact ⟨hwarning, p, (mem_of_mem_firstOfKeys (List.mem_filter.mp hp).1).1, hplace⟩

theorem errorsAbout_build (p : PlacedRow) :
    errorsAbout (Store.build tables).2 p =
      errorsAbout (tables.flatMap Table.findings) p ++
        ((repeatsOfKeys [] (tables.flatMap Table.rules)).filter (·.place = p.place)).map
          (·.report .error .duplicateRuleId) := by
  unfold errorsAbout
  rw [findingsAbout_build, List.filter_append, List.filter_append]
  have hrepeats : ∀ qs : List Placed,
      (qs.map (·.report .error .duplicateRuleId)).filter (·.isError) =
        qs.map (·.report .error .duplicateRuleId) := by
    intro qs
    apply List.filter_eq_self.mpr
    intro d hd
    obtain ⟨q, -, rfl⟩ := List.mem_map.mp hd
    rfl
  rw [hrepeats]
  apply List.append_right_eq_self.mpr
  apply List.filter_eq_nil_iff.mpr
  intro d hd herror
  rw [(mem_links (List.mem_filter.mp hd).1).1] at herror
  cases herror

theorem findingsAbout_build_of_isContinuation (hfiles : (tables.map (·.file)).Nodup)
    {p : PlacedRow} (hp : p ∈ tables.flatMap Table.placed) (hcont : p.row.isContinuation = true) :
    findingsAbout (Store.build tables).2 p = findingsAbout (tables.flatMap Table.findings) p := by
  have hplace : ∀ q ∈ tables.flatMap Table.rules, q.place ≠ p.place := by
    intro q hq
    obtain ⟨d, hd, rule, -, rfl⟩ := exists_of_mem_flatMap_rules hq
    exact place_ne_of_isContinuation hfiles hd hp hcont
  rw [findingsAbout_build, List.append_assoc]
  apply List.append_right_eq_self.mpr
  apply List.append_eq_nil_iff.mpr
  constructor
  · rw [List.map_eq_nil_iff, List.filter_eq_nil_iff]
    intro q hq heq
    exact hplace q (mem_of_mem_repeatsOfKeys hq) (of_decide_eq_true heq)
  · apply List.filter_eq_nil_iff.mpr
    intro d hd heq
    obtain ⟨-, q, hq, hdq⟩ := mem_links hd
    apply hplace q hq
    rw [← hdq]
    exact of_decide_eq_true heq

theorem errorsAbout_head (hfiles : (tables.map (·.file)).Nodup) {t : Table} (ht : t ∈ tables)
    {b : Block} (hb : b ∈ t.blocks) :
    errorsAbout (tables.flatMap Table.findings) b.head = b.headFindings.filter (·.isError) := by
  have hmem : (b.head, b.headFindings) ∈ t.accounts :=
    List.mem_append_right _ (List.mem_flatMap.mpr ⟨b, hb, List.mem_cons_self⟩)
  rw [errorsAbout, findingsAbout_findings hfiles ht hmem]

theorem findingsAbout_follower (hfiles : (tables.map (·.file)).Nodup) {t : Table} (ht : t ∈ tables)
    {b : Block} (hb : b ∈ t.blocks) {p : PlacedRow} (hp : p ∈ b.followers) :
    findingsAbout (Store.build tables).2 p = b.findingsOn p := by
  have hmem : (p, b.findingsOn p) ∈ t.accounts :=
    List.mem_append_right _ (List.mem_flatMap.mpr
      ⟨b, hb, List.mem_cons_of_mem _ (List.mem_map_of_mem hp)⟩)
  have hplaced : p ∈ t.placed := by
    rw [← splitBlocks_rows t.placed]
    exact List.mem_append_right _ (List.mem_flatMap.mpr ⟨b, hb, List.mem_cons_of_mem _ hp⟩)
  rw [findingsAbout_build_of_isContinuation hfiles (List.mem_flatMap.mpr ⟨t, ht, hplaced⟩)
    ((isContinuation_of_mem_splitBlocks.2 b hb).2 p hp)]
  exact findingsAbout_findings hfiles ht hmem

end

def Declaration.isClear (d : Declaration) (diagnostics : List Diagnostic) : Bool :=
  (d.head :: d.attached).all fun p => (errorsAbout diagnostics p).isEmpty

def clearRules (tables : List Table) (diagnostics : List Diagnostic) : List Rule :=
  ((declarations tables).filter (·.isClear diagnostics)).filterMap (·.rule.toOption)

def decodedDeclarations (tables : List Table) : List Declaration :=
  (declarations tables).filter (·.rule.isOk)

section

variable {tables : List Table}

theorem isClear_iff (hfiles : (tables.map (·.file)).Nodup) {d : Declaration}
    (hd : d ∈ declarations tables) :
    d.isClear (Store.build tables).2 = true ↔
      (∃ rule, d.rule = .ok rule) ∧
        ∀ q ∈ repeatsOfKeys [] (tables.flatMap Table.rules), q.place ≠ d.head.place := by
  obtain ⟨t, ht, b, hb, rfl⟩ := mem_declarations.mp hd
  have hhead : errorsAbout (Store.build tables).2 b.head = [] ↔
      b.headFindings.filter (·.isError) = [] ∧
        ∀ q ∈ repeatsOfKeys [] (tables.flatMap Table.rules), q.place ≠ b.head.place := by
    rw [errorsAbout_build, errorsAbout_head hfiles ht hb, List.append_eq_nil_iff,
      List.map_eq_nil_iff, List.filter_eq_nil_iff (p := fun q : Placed => q.place = b.head.place)]
    simp only [decide_eq_true_eq, ne_eq]
  have hattached : ∀ p ∈ b.declaration.attached,
      errorsAbout (Store.build tables).2 p = (b.findingsOn p).filter (·.isError) := by
    intro p hp
    rw [errorsAbout, findingsAbout_follower hfiles ht hb (List.mem_filter.mp hp).1]
  rw [Block.exists_rule_iff, Declaration.isClear, List.all_cons, Bool.and_eq_true,
    List.isEmpty_iff, List.all_eq_true]
  simp only [List.isEmpty_iff]
  rw [show b.declaration.head = b.head from rfl, hhead, and_right_comm]
  apply and_congr_left
  intro _
  apply and_congr_right
  intro _
  exact forall₂_congr fun p hp => by rw [hattached p hp]

theorem nodup_rules (hfiles : (tables.map (·.file)).Nodup) :
    ((tables.flatMap Table.rules).map Placed.place).Nodup := by
  have hheads := nodup_heads hfiles
  rw [List.nodup_iff_pairwise_ne, List.pairwise_map] at hheads ⊢
  rw [flatMap_rules, List.pairwise_filterMap]
  apply hheads.imp
  intro d e hne p hp q hq
  obtain ⟨_, -, rfl⟩ := Declaration.placed?_eq_some.mp hp
  obtain ⟨_, -, rfl⟩ := Declaration.placed?_eq_some.mp hq
  exact hne

theorem filterMap_isClear (hfiles : (tables.map (·.file)).Nodup) :
    ((declarations tables).filter (·.isClear (Store.build tables).2)).filterMap
        Declaration.placed? =
      firstOfKeys [] (tables.flatMap Table.rules) := by
  rw [firstOfKeys_eq_filter (nodup_rules hfiles)]
  have hclear := fun d hd => @isClear_iff tables hfiles d hd
  generalize repeatsOfKeys [] (tables.flatMap Table.rules) = repeats at hclear ⊢
  rw [flatMap_rules, List.filter_filterMap, List.filterMap_filter]
  apply List.filterMap_congr
  intro d hd
  unfold Declaration.placed?
  cases hrule : d.rule with
  | error fault => simp
  | ok rule =>
    have hsame : d.isClear (Store.build tables).2 =
        repeats.all fun q => q.place ≠ d.head.place := by
      rw [Bool.eq_iff_iff, hclear d hd, List.all_eq_true]
      simp [hrule]
    rw [hsame, Option.filter_some]
    rfl

theorem clearRules_build (hfiles : (tables.map (·.file)).Nodup) :
    clearRules tables (Store.build tables).2 =
      (firstOfKeys [] (tables.flatMap Table.rules)).map (·.rule) := by
  rw [← filterMap_isClear hfiles, List.map_filterMap]
  apply List.filterMap_congr
  intro d _
  unfold Declaration.placed?
  cases d.rule <;> rfl

theorem length_isClear (hfiles : (tables.map (·.file)).Nodup) :
    ((declarations tables).filter (·.isClear (Store.build tables).2)).length =
      (firstOfKeys [] (tables.flatMap Table.rules)).length := by
  rw [← filterMap_isClear hfiles, List.length_filterMap_eq_countP, eq_comm, List.countP_eq_length]
  intro d hd
  obtain ⟨hd, hclear⟩ := List.mem_filter.mp hd
  obtain ⟨rule, hrule⟩ := ((isClear_iff hfiles hd).mp hclear).1
  rw [Declaration.placed?, hrule]
  rfl

end

namespace RuleSet

theorem size_ofRules (link : Link) (rules : List Rule) :
    (ofRules link rules).size = rules.length :=
  (perm_ofRules link rules).length_eq

end RuleSet

namespace Store

theorem ruleCount_ofRules (ps : List Placed) : (ofRules ps).ruleCount = ps.length := by
  have hset : ∀ entry ∈ (ofRules ps).toList,
      entry.2.size = (ps.map (·.rule.link)).count entry.1 := by
    rintro ⟨link, set⟩ hentry
    have hfind : (ofRules ps).find? link = some set :=
      Std.ExtTreeMap.mem_toList_iff_getElem?_eq_some.mp hentry
    rw [(eq_ofRules_of_find? hfind).2, RuleSet.size_ofRules, ← List.length_map (·.id), ids_cleaned,
      List.length_map, rulesOf, List.count, List.countP_map, List.countP_eq_length_filter]
    rfl
  have hkeys : (ofRules ps).keys.Perm (ps.map (·.rule.link)).dedup := by
    rw [List.perm_ext_iff_of_nodup Std.ExtTreeMap.nodup_keys (List.nodup_dedup _)]
    intro link
    rw [Std.ExtTreeMap.mem_keys, Std.ExtTreeMap.mem_iff_isSome_getElem?, List.mem_dedup,
      ← List.mem_eraseDups]
    change ((ofRules ps).find? link).isSome = true ↔ link ∈ linksOf ps
    rw [find?_ofRules]
    split <;> simp [*]
  have hsum : (ofRules ps).ruleCount = ((ofRules ps).toList.map (·.2.size)).sum := by
    rw [ruleCount, Std.ExtTreeMap.foldl_eq_foldl_toList, List.sum_eq_foldl, List.foldl_map]
  rw [hsum, List.map_congr_left hset]
  have hfst : (ofRules ps).toList.map (fun entry => (ps.map (·.rule.link)).count entry.1) =
      (ofRules ps).keys.map fun link => (ps.map (·.rule.link)).count link := by
    rw [← Std.ExtTreeMap.map_fst_toList_eq_keys, List.map_map]
    rfl
  rw [hfst, (hkeys.map _).sum_eq, List.sum_map_count_dedup_eq_length, List.length_map]

end Store

def Rule.Repeats (r : Rule) (ds : List Declaration) : Prop :=
  ∃ d ∈ ds, ∃ earlier, d.rule = .ok earlier ∧ earlier.link = r.link ∧ earlier.id = r.id

/-- What becomes of the rows of some tables in a store and in the findings. -/
structure Accounts (tables : List Table) (store : Store) (diagnostics : List Diagnostic) :
    Prop where
  declared : ∀ d ∈ declarations tables, d.isClear diagnostics = true → ∃ rule, d.rule = .ok rule
  stored : ∀ link, store.find? link =
    if linkedRules (clearRules tables diagnostics) link = [] then none
    else some (.ofRules link (linkedRules (clearRules tables diagnostics) link))
  count : store.ruleCount = ((declarations tables).filter (·.isClear diagnostics)).length
  failed : ∀ d ∈ declarations tables, ∀ fault, d.head.row.decodeRule = .error fault →
    d.isClear diagnostics = false ∧ ∀ p ∈ d.attached, findingsAbout diagnostics p = []
  orphan : ∀ t ∈ tables, ∀ p ∈ t.placed, p.row.isContinuation = true →
    (∀ d ∈ t.declarations, p ∉ d.attached) →
      findingsAbout diagnostics p = [p.report .error .orphanContinuation]
  unchanged : (Store.build (tables.map Table.withoutOrphans)).1 = store
  first : ∀ before d after rule, decodedDeclarations tables = before ++ d :: after →
    d.rule = .ok rule → ¬rule.Repeats before → d.isClear diagnostics = true
  repeated : ∀ before d after rule, decodedDeclarations tables = before ++ d :: after →
    d.rule = .ok rule → rule.Repeats before →
      errorsAbout diagnostics d.head = [d.head.report .error .duplicateRuleId]

theorem Declaration.report_eq {d : Declaration} {rule : Rule} (h : d.rule = .ok rule)
    (severity : Severity) (finding : RuleError) :
    Placed.report ⟨rule, d.head.file, d.head.index⟩ severity finding =
      d.head.report severity finding := by
  obtain ⟨declared, hdeclared, h⟩ := bind_eq_ok.mp h
  obtain ⟨action, -, h⟩ := bind_eq_ok.mp h
  obtain ⟨steps, -, h⟩ := bind_eq_ok.mp h
  cases h
  obtain ⟨hentry, hsource, hid, -⟩ := Row.declares_of_decodeRule hdeclared
  simp only [Placed.report, PlacedRow.report, hentry, hsource, hid]

section

variable {tables : List Table}

theorem flatMap_rules_decoded :
    tables.flatMap Table.rules = (decodedDeclarations tables).filterMap Declaration.placed? := by
  rw [flatMap_rules, decodedDeclarations, List.filterMap_filter]
  apply List.filterMap_congr
  intro d _
  unfold Declaration.placed?
  cases d.rule <;> rfl

theorem repeats_iff {r : Rule} {ds : List Declaration} :
    r.Repeats ds ↔ ∃ q ∈ ds.filterMap Declaration.placed?, q.key = (r.link, r.id) := by
  constructor
  · rintro ⟨d, hd, earlier, hearlier, hlink, hid⟩
    refine ⟨⟨earlier, d.head.file, d.head.index⟩, ?_, Prod.ext hlink hid⟩
    exact List.mem_filterMap.mpr ⟨d, hd, Declaration.placed?_eq_some.mpr ⟨earlier, hearlier, rfl⟩⟩
  · rintro ⟨q, hq, hkey⟩
    obtain ⟨d, hd, hq⟩ := List.mem_filterMap.mp hq
    obtain ⟨earlier, hearlier, rfl⟩ := Declaration.placed?_eq_some.mp hq
    exact ⟨d, hd, earlier, hearlier, congrArg (·.1) hkey, congrArg (·.2) hkey⟩

theorem filter_repeats (hfiles : (tables.map (·.file)).Nodup) {before after : List Declaration}
    {d : Declaration} {rule : Rule} (hsplit : decodedDeclarations tables = before ++ d :: after)
    (hrule : d.rule = .ok rule) :
    (rule.Repeats before →
      (repeatsOfKeys [] (tables.flatMap Table.rules)).filter (·.place = d.head.place) =
        [⟨rule, d.head.file, d.head.index⟩]) ∧
    (¬rule.Repeats before →
      (repeatsOfKeys [] (tables.flatMap Table.rules)).filter (·.place = d.head.place) = []) := by
  have hplaced : d.placed? = some ⟨rule, d.head.file, d.head.index⟩ :=
    Declaration.placed?_eq_some.mpr ⟨rule, hrule, rfl⟩
  have hrules : tables.flatMap Table.rules = before.filterMap Declaration.placed? ++
      ⟨rule, d.head.file, d.head.index⟩ :: after.filterMap Declaration.placed? := by
    rw [flatMap_rules_decoded, hsplit, List.filterMap_append, List.filterMap_cons_some hplaced]
  have hnodup := nodup_rules hfiles
  rw [hrules] at hnodup ⊢
  have hfilter := @repeatsOfKeys_filter [] _ _ _ hnodup
  rw [repeats_iff]
  constructor
  · intro hrepeats
    rw [if_pos (.inr hrepeats)] at hfilter
    exact hfilter
  · intro hfirst
    have hnone : ¬((rule.link, rule.id) ∈ [] ∨
        ∃ q ∈ before.filterMap Declaration.placed?, q.key = (rule.link, rule.id)) := by
      simpa using hfirst
    exact hfilter.trans (if_neg hnone)

theorem mem_declarations_of_decoded {before after : List Declaration} {d : Declaration}
    (hsplit : decodedDeclarations tables = before ++ d :: after) : d ∈ declarations tables := by
  have hmem : d ∈ decodedDeclarations tables := by
    rw [hsplit]
    exact List.mem_append_right before List.mem_cons_self
  exact (List.mem_filter.mp hmem).1

/-- A rejected head answers for the rows attached to it. -/
theorem findingsAbout_attached_of_failed (hfiles : (tables.map (·.file)).Nodup) {d : Declaration}
    (hd : d ∈ declarations tables) {fault : RuleError}
    (hfault : d.head.row.decodeRule = .error fault) {p : PlacedRow} (hp : p ∈ d.attached) :
    findingsAbout (Store.build tables).2 p = [] := by
  obtain ⟨t, ht, b, hb, rfl⟩ := mem_declarations.mp hd
  obtain ⟨hp, hkey⟩ := List.mem_filter.mp hp
  have hhead : b.head.row.decodeRule = .error fault := hfault
  rw [findingsAbout_follower hfiles ht hb hp, Block.findingsOn, hhead]
  exact if_pos (of_decide_eq_true hkey)

/-- A continuation row that is attached to no head is reported as such. -/
theorem findingsAbout_orphan (hfiles : (tables.map (·.file)).Nodup) {t : Table} (ht : t ∈ tables)
    {p : PlacedRow} (hp : p ∈ t.placed) (hcont : p.row.isContinuation = true)
    (horphan : ∀ d ∈ t.declarations, p ∉ d.attached) :
    findingsAbout (Store.build tables).2 p = [p.report .error .orphanContinuation] := by
  have hrows := hp
  rw [← splitBlocks_rows t.placed] at hrows
  rcases List.mem_append.mp hrows with hleading | hblock
  · have hmem : (p, [p.report .error .orphanContinuation]) ∈ t.accounts :=
      List.mem_append_left _ (List.mem_map_of_mem hleading)
    rw [findingsAbout_build_of_isContinuation hfiles (List.mem_flatMap.mpr ⟨t, ht, hp⟩) hcont]
    exact findingsAbout_findings hfiles ht hmem
  · obtain ⟨b, hb, hrow⟩ := List.mem_flatMap.mp hblock
    rcases List.mem_cons.mp hrow with rfl | hfollower
    · rw [(isContinuation_of_mem_splitBlocks.2 b hb).1] at hcont
      cases hcont
    · have hdeclared : b.declaration ∈ t.declarations := by
        rw [Table.declarations, ← map_declaration_splitBlocks]
        exact List.mem_map_of_mem hb
      have hkey : p.row.key ≠ b.head.row.key := fun hkey =>
        horphan _ hdeclared (List.mem_filter.mpr ⟨hfollower, decide_eq_true hkey⟩)
      rw [findingsAbout_follower hfiles ht hb hfollower]
      unfold Block.findingsOn Block.followerFindings Block.addition
      rw [if_neg hkey, if_neg hkey]
      split <;> rfl

theorem find?_build (hfiles : (tables.map (·.file)).Nodup) (link : Link) :
    (Store.build tables).1.find? link =
      if linkedRules (clearRules tables (Store.build tables).2) link = [] then none
      else some (.ofRules link (linkedRules (clearRules tables (Store.build tables).2) link)) := by
  rw [clearRules_build hfiles, ← cleaned_eq]
  show (Store.ofRules (firstOfKeys [] (tables.flatMap Table.rules))).find? link = _
  rw [Store.find?_ofRules]
  generalize firstOfKeys [] (tables.flatMap Table.rules) = ps
  by_cases hnil : cleaned ps link = []
  · rw [if_neg fun h => mem_linksOf_iff.mp h hnil, if_pos hnil]
  · rw [if_pos (mem_linksOf_iff.mpr hnil), if_neg hnil]

/-- Building a store accounts for every row of tables with distinct file names. -/
theorem build_accounts_for_every_row (hfiles : (tables.map (·.file)).Nodup) :
    Accounts tables (Store.build tables).1 (Store.build tables).2 := by
  constructor
  · intro d hd hclear
    exact ((isClear_iff hfiles hd).mp hclear).1
  · exact find?_build hfiles
  · rw [length_isClear hfiles]
    exact Store.ruleCount_ofRules _
  · intro d hd fault hfault
    constructor
    · rw [Bool.eq_false_iff]
      intro hclear
      obtain ⟨rule, hrule⟩ := ((isClear_iff hfiles hd).mp hclear).1
      obtain ⟨declared, hdeclared, -⟩ := bind_eq_ok.mp hrule
      rw [hfault] at hdeclared
      cases hdeclared
    · exact fun p hp => findingsAbout_attached_of_failed hfiles hd hfault hp
  · intro t ht p hp hcont horphan
    exact findingsAbout_orphan hfiles ht hp hcont horphan
  · exact Store.build_withoutOrphans tables
  · intro before d after rule hsplit hrule hfirst
    refine (isClear_iff hfiles (mem_declarations_of_decoded hsplit)).mpr ⟨⟨rule, hrule⟩, ?_⟩
    intro q hq hplace
    have hnone := (filter_repeats hfiles hsplit hrule).2 hfirst
    exact List.filter_eq_nil_iff.mp hnone q hq (decide_eq_true hplace)
  · intro before d after rule hsplit hrule hrepeats
    obtain ⟨t, ht, b, hb, rfl⟩ := mem_declarations.mp (mem_declarations_of_decoded hsplit)
    rw [errorsAbout_build, (filter_repeats hfiles hsplit hrule).1 hrepeats]
    show errorsAbout _ b.head ++ _ = _
    rw [errorsAbout_head hfiles ht hb, (Block.exists_rule_iff.mp ⟨rule, hrule⟩).1]
    exact congrArg ([·]) (Declaration.report_eq hrule .error .duplicateRuleId)

end

private def watchHead (id : UInt32) (chance : Option UInt32) : List Row :=
  (Table.single 100 0 4 fun row => { row with id, chance }).rows

private def watchStep (id actionKind : UInt32) : List Row :=
  (Table.single 100 0 4 fun row => { row with id, actionKind, eventKind := none }).rows

private def watchTables : List Table :=
  [⟨"first.toml", watchStep 1 0 ++ watchHead 1 none ++ watchStep 3 0 ++ watchStep 1 22⟩,
    ⟨"second.toml", watchHead 2 (some 101) ++ watchStep 2 0 ++ watchHead 1 none⟩]

theorem watch_rows_accounted :
    (watchTables.map (·.file)).Nodup ∧
      Accounts watchTables (Store.build watchTables).1 (Store.build watchTables).2 ∧
      (clearRules watchTables (Store.build watchTables).2).map (fun r => (r.id, r.actions.length)) =
        [(1, 2)] ∧
      (Store.build watchTables).2.map (fun d => (d.file, d.row, d.finding)) =
        [("first.toml", 0, .orphanContinuation), ("first.toml", 2, .orphanContinuation),
          ("second.toml", 0, .chanceOutOfRange 101), ("second.toml", 2, .duplicateRuleId)] := by
  have hfiles : (watchTables.map (·.file)).Nodup := by decide
  exact ⟨hfiles, build_accounts_for_every_row hfiles, by decide +kernel, by decide +kernel⟩

end TriggerScript
