import TriggerScript.Proofs.Accounting
import TriggerScript.Proofs.LinkWalks
import TriggerScript.Proofs.Orders
import TriggerScript.Proofs.WellFormed

/-!
# Findings about links

A stored rule keeps its link when this leads to a rule that is stored beside it, and loses it with a
warning when not. Each rule on a cycle of links has one more warning, and no other rule has one.
-/

namespace TriggerScript

def RuleError.isAboutLinks : RuleError → Bool
  | .missingLinkTarget _ | .linkCycle _ => true
  | _ => false

def Diagnostic.isLinkWarning (x : Diagnostic) : Bool :=
  x.severity = .warning && x.finding.isAboutLinks

/-- The warnings about the link of a rule. -/
def linkWarnings (diagnostics : List Diagnostic) (link : Link) (id : RuleId) : List Diagnostic :=
  diagnostics.filter fun x =>
    x.isLinkWarning && (x.entry, x.sourceType, x.ruleId) = (link.entry, link.sourceType.id, id)

theorem linkWarnings_append (xs ys : List Diagnostic) (link : Link) (id : RuleId) :
    linkWarnings (xs ++ ys) link id = linkWarnings xs link id ++ linkWarnings ys link id :=
  List.filter_append xs ys

theorem linkWarnings_eq_nil {diagnostics : List Diagnostic}
    (h : ∀ x ∈ diagnostics, x.isLinkWarning = false) (link : Link) (id : RuleId) :
    linkWarnings diagnostics link id = [] :=
  List.filter_eq_nil_iff.mpr fun x hx => by simp [h x hx]

theorem isAboutLinks_of_untargeted? {step : ActionStep} {shared : TargetDescriptor} {f : RuleError}
    (h : step.untargeted? shared = some f) : f.isAboutLinks = false := by
  unfold ActionStep.untargeted? at h
  split at h
  · cases h
    rfl
  · cases h

theorem isAboutLinks_of_mem_warnings {rule : Rule} {f : RuleError} (h : f ∈ rule.warnings) :
    f.isAboutLinks = false := by
  rcases List.mem_append.mp h with h | h
  · split at h
    · cases List.mem_singleton.mp h
      rfl
    · cases h
  · obtain ⟨step, -, hstep⟩ := Option.bind_eq_some_iff.mp (Option.mem_toList.mp h)
    exact isAboutLinks_of_untargeted? hstep

theorem Block.isLinkWarning_of_mem_findings {b : Block} {x : Diagnostic} (h : x ∈ b.findings) :
    x.isLinkWarning = false := by
  unfold findings at h
  split at h
  · rcases List.mem_cons.mp h with rfl | h
    · rfl
    · obtain ⟨p, -, rfl⟩ := List.mem_map.mp h
      rfl
  · rcases List.mem_append.mp h with h | h
    · obtain ⟨f, hf, rfl⟩ := List.mem_map.mp h
      exact isAboutLinks_of_mem_warnings hf
    · obtain ⟨p, -, h⟩ := List.mem_flatMap.mp h
      unfold followerFindings at h
      split at h
      · cases List.mem_singleton.mp h
        rfl
      · cases List.mem_singleton.mp h
        rfl
      · obtain ⟨f, hf, rfl⟩ := Option.map_eq_some_iff.mp (Option.mem_toList.mp h)
        exact isAboutLinks_of_untargeted? hf

theorem Table.isLinkWarning_of_mem_findings {t : Table} {x : Diagnostic} (h : x ∈ t.findings) :
    x.isLinkWarning = false := by
  rcases List.mem_append.mp h with h | h
  · obtain ⟨p, -, rfl⟩ := List.mem_map.mp h
    rfl
  · obtain ⟨b, -, hx⟩ := List.mem_flatMap.mp h
    exact Block.isLinkWarning_of_mem_findings hx

def Placed.undangled (rules : List Placed) (p : Placed) : Placed :=
  if (danglingLink? rules p).isSome then { p with rule := { p.rule with linkTo := none } } else p

theorem dropDangling_eq (rules : List Placed) : dropDangling rules = rules.map (.undangled rules) :=
  rfl

@[simp] theorem Placed.id_undangled (rules : List Placed) (p : Placed) :
    (p.undangled rules).rule.id = p.rule.id := by
  unfold undangled
  split <;> rfl

@[simp] theorem Placed.report_undangled (rules : List Placed) (p : Placed) (severity : Severity)
    (finding : RuleError) : (p.undangled rules).report severity finding = p.report severity finding := by
  unfold undangled
  split <;> rfl

def Placed.linkWarnings (rules : List Placed) (p : Placed) : List Diagnostic :=
  ((danglingLink? rules p).map fun target => p.report .warning (.missingLinkTarget target)).toList ++
    ((loopsBack (linkOf (dropDangling rules)) p.rule.id rules.length p.rule.id).map fun last =>
      p.report .warning (.linkCycle last)).toList

theorem filter_filterMap_eq {α β κ : Type} [DecidableEq κ] {xs : List α} {key : α → κ}
    (hnodup : (xs.map key).Nodup) {x : α} (hx : x ∈ xs) {f : α → Option β} {p : β → Bool}
    (hp : ∀ y ∈ xs, ∀ b, f y = some b → p b = decide (key y = key x)) :
    (xs.filterMap f).filter p = (f x).toList := by
  induction xs with
  | nil => cases hx
  | cons y ys ih =>
    rw [List.map_cons, List.nodup_cons] at hnodup
    have hown : ∀ z ∈ ys, key z ≠ key y := fun z hz heq =>
      hnodup.1 (heq ▸ List.mem_map_of_mem hz)
    have hrest : ∀ z ∈ ys, ∀ b, f z = some b → p b = decide (key z = key x) :=
      fun z hz => hp z (List.mem_cons_of_mem y hz)
    rcases List.mem_cons.mp hx with rfl | hx
    · have hnone : (ys.filterMap f).filter p = [] := by
        apply List.filter_eq_nil_iff.mpr
        intro b hb
        obtain ⟨z, hz, hzb⟩ := List.mem_filterMap.mp hb
        rw [hrest z hz b hzb, decide_eq_false (hown z hz)]
        exact Bool.false_ne_true
      cases hf : f x with
      | none => rw [List.filterMap_cons_none hf, hnone]; rfl
      | some b =>
        rw [List.filterMap_cons_some hf, List.filter_cons, hnone, hp x List.mem_cons_self b hf,
          decide_eq_true rfl]
        rfl
    · have hne : key y ≠ key x := (hown x hx).symm
      rw [← ih hnodup.2 hx hrest]
      cases hf : f y with
      | none => rw [List.filterMap_cons_none hf]
      | some b =>
        rw [List.filterMap_cons_some hf, List.filter_cons, hp y List.mem_cons_self b hf,
          decide_eq_false hne]
        rfl

theorem linkFindings_eq (rules : List Placed) :
    linkFindings rules =
      rules.filterMap (fun p =>
        (danglingLink? rules p).map fun target => p.report .warning (.missingLinkTarget target)) ++
      rules.filterMap fun p =>
        (loopsBack (linkOf (dropDangling rules)) p.rule.id rules.length p.rule.id).map fun last =>
          p.report .warning (.linkCycle last) := by
  unfold linkFindings
  simp only [dropDangling_eq, List.filterMap_map, List.length_map, Function.comp_def,
    Placed.id_undangled, Placed.report_undangled]

theorem linkWarnings_linkFindings {rules : List Placed} {l : Link}
    (hlinks : ∀ p ∈ rules, p.rule.link = l) (hnodup : (rules.map (·.rule.id)).Nodup) {p : Placed}
    (hp : p ∈ rules) : linkWarnings (linkFindings rules) l p.rule.id = p.linkWarnings rules := by
  have hkey : ∀ q ∈ rules, ∀ finding : RuleError, finding.isAboutLinks = true →
      ((q.report .warning finding).isLinkWarning &&
        ((q.report .warning finding).entry, (q.report .warning finding).sourceType,
          (q.report .warning finding).ruleId) = (l.entry, l.sourceType.id, p.rule.id)) =
        decide (q.rule.id = p.rule.id) := by
    intro q hq finding hfinding
    simp [Diagnostic.isLinkWarning, Placed.report, hfinding, hlinks q hq]
  rw [linkFindings_eq, linkWarnings_append]
  congr 1
  · apply filter_filterMap_eq hnodup hp
    intro q hq x hx
    obtain ⟨target, -, rfl⟩ := Option.map_eq_some_iff.mp hx
    exact hkey q hq _ rfl
  · apply filter_filterMap_eq hnodup hp
    intro q hq x hx
    obtain ⟨last, -, rfl⟩ := Option.map_eq_some_iff.mp hx
    exact hkey q hq _ rfl

theorem exists_of_mem_linkFindings {rules : List Placed} {x : Diagnostic}
    (h : x ∈ linkFindings rules) :
    ∃ p ∈ rules, ∃ finding, finding.isAboutLinks = true ∧ x = p.report .warning finding := by
  rw [linkFindings_eq] at h
  rcases List.mem_append.mp h with h | h
  · obtain ⟨p, hp, h⟩ := List.mem_filterMap.mp h
    obtain ⟨target, -, rfl⟩ := Option.map_eq_some_iff.mp h
    exact ⟨p, hp, _, rfl, rfl⟩
  · obtain ⟨p, hp, h⟩ := List.mem_filterMap.mp h
    obtain ⟨last, -, rfl⟩ := Option.map_eq_some_iff.mp h
    exact ⟨p, hp, _, rfl, rfl⟩

theorem mem_rulesOf {ps : List Placed} {l : Link} {p : Placed} :
    p ∈ rulesOf ps l ↔ p ∈ ps ∧ p.rule.link = l := by
  simp [rulesOf]

theorem Link.eq_of_columns {a b : Link} (hentry : a.entry = b.entry)
    (hsource : a.sourceType.id = b.sourceType.id) : a = b := by
  cases a
  cases b
  exact congrArg₂ Link.mk hentry (SourceType.id_injective hsource)

theorem linkWarnings_of_ne {ps : List Placed} {l l' : Link} (hne : l' ≠ l) (id : RuleId) :
    linkWarnings (linkFindings (rulesOf ps l')) l id = [] := by
  apply List.filter_eq_nil_iff.mpr
  intro x hx heq
  obtain ⟨p, hp, finding, -, rfl⟩ := exists_of_mem_linkFindings hx
  obtain ⟨hentry, hsource, -⟩ : p.rule.link.entry = l.entry ∧
      p.rule.link.sourceType.id = l.sourceType.id ∧ p.rule.id = id := by
    simpa [Placed.report] using (Bool.and_eq_true_iff.mp heq).2
  apply hne
  rw [← (mem_rulesOf.mp hp).2]
  exact Link.eq_of_columns hentry hsource

/-- The warnings about a rule among some rules with distinct keys are those of its own set. -/
theorem linkWarnings_flatMap {ps : List Placed} (hkeys : (ps.map Placed.key).Nodup) {p : Placed}
    (hp : p ∈ ps) :
    linkWarnings ((linksOf ps).flatMap fun l => linkFindings (rulesOf ps l)) p.rule.link p.rule.id =
      p.linkWarnings (rulesOf ps p.rule.link) := by
  have hmem : p.rule.link ∈ linksOf ps := List.mem_eraseDups.mpr (List.mem_map_of_mem hp)
  obtain ⟨before, after, hsplit⟩ := List.append_of_mem hmem
  have hnodup : (linksOf ps).Nodup := nodup_eraseDups _
  rw [hsplit, List.nodup_append, List.nodup_cons] at hnodup
  have hsilent : ∀ ls : List Link, (∀ l ∈ ls, l ≠ p.rule.link) →
      linkWarnings (ls.flatMap fun l => linkFindings (rulesOf ps l)) p.rule.link p.rule.id = [] := by
    intro ls hls
    unfold linkWarnings
    rw [List.filter_flatMap, List.flatMap_eq_nil_iff]
    exact fun l hl => linkWarnings_of_ne (hls l hl) p.rule.id
  rw [hsplit, List.flatMap_append, List.flatMap_cons, linkWarnings_append, linkWarnings_append,
    hsilent before, hsilent after, List.nil_append, List.append_nil]
  · apply linkWarnings_linkFindings
    · exact fun q hq => (mem_rulesOf.mp hq).2
    · exact nodup_ids_rulesOf hkeys _
    · exact mem_rulesOf.mpr ⟨hp, rfl⟩
  · rintro l hl rfl
    exact hnodup.2.1.1 hl
  · rintro l hl rfl
    exact hnodup.2.2 _ hl _ List.mem_cons_self rfl

theorem linkWarnings_build (tables : List Table) (l : Link) (id : RuleId) :
    linkWarnings (Store.build tables).2 l id =
      linkWarnings ((linksOf (firstOfKeys [] (tables.flatMap Table.rules))).flatMap fun l' =>
        linkFindings (rulesOf (firstOfKeys [] (tables.flatMap Table.rules)) l')) l id := by
  unfold Store.build
  dsimp only
  rw [linkWarnings_append, linkWarnings_append, linkWarnings_eq_nil, linkWarnings_eq_nil]
  · rfl
  · intro x hx
    obtain ⟨p, -, rfl⟩ := List.mem_map.mp hx
    rfl
  · intro x hx
    obtain ⟨t, -, ht⟩ := List.mem_flatMap.mp hx
    exact t.isLinkWarning_of_mem_findings ht

/-- A warning about a link is about a rule that is the first of its key. -/
theorem exists_of_isLinkWarning {tables : List Table} {x : Diagnostic}
    (hx : x ∈ (Store.build tables).2) (hwarning : x.isLinkWarning = true) :
    ∃ p ∈ firstOfKeys [] (tables.flatMap Table.rules), ∃ finding, x = p.report .warning finding := by
  rcases List.mem_append.mp hx with hx | hx
  · rcases List.mem_append.mp hx with hx | hx
    · obtain ⟨t, -, ht⟩ := List.mem_flatMap.mp hx
      rw [t.isLinkWarning_of_mem_findings ht] at hwarning
      cases hwarning
    · obtain ⟨p, -, rfl⟩ := List.mem_map.mp hx
      cases hwarning
  · obtain ⟨l, -, hl⟩ := List.mem_flatMap.mp hx
    obtain ⟨p, hp, finding, -, rfl⟩ := exists_of_mem_linkFindings hl
    exact ⟨p, (mem_rulesOf.mp hp).1, finding, rfl⟩

theorem mem_firstOfKeys_iff {seen : List (Link × RuleId)} {ps : List Placed} {p : Placed} :
    p ∈ firstOfKeys seen ps ↔ ∃ before after, ps = before ++ p :: after ∧ p.key ∉ seen ∧
      ∀ q ∈ before, q.key ≠ p.key := by
  induction ps generalizing seen with
  | nil => simp [firstOfKeys]
  | cons q ps ih =>
    have hsplit : (∃ before after, q :: ps = before ++ p :: after ∧ p.key ∉ seen ∧
          ∀ r ∈ before, r.key ≠ p.key) ↔
        (q = p ∧ p.key ∉ seen) ∨ (q.key ≠ p.key ∧ ∃ before after, ps = before ++ p :: after ∧
          p.key ∉ seen ∧ ∀ r ∈ before, r.key ≠ p.key) := by
      constructor
      · rintro ⟨before, after, heq, hseen, hbefore⟩
        cases before with
        | nil =>
          cases heq
          exact .inl ⟨rfl, hseen⟩
        | cons r before =>
          cases heq
          exact .inr ⟨hbefore q List.mem_cons_self, before, after, rfl, hseen,
            fun r hr => hbefore r (List.mem_cons_of_mem q hr)⟩
      · rintro (⟨rfl, hseen⟩ | ⟨hne, before, after, rfl, hseen, hbefore⟩)
        · exact ⟨[], ps, rfl, hseen, fun _ hr => nomatch hr⟩
        · exact ⟨q :: before, after, rfl, hseen, List.forall_mem_cons.mpr ⟨hne, hbefore⟩⟩
    rw [hsplit]
    unfold firstOfKeys
    split
    · rename_i hq
      rw [ih]
      grind
    · rename_i hq
      rw [List.mem_cons, ih]
      grind

/-- A declaration of a rule whose key no earlier one has. -/
def FirstDeclared (tables : List Table) (d : Declaration) (rule : Rule) : Prop :=
  ∃ before after, decodedDeclarations tables = before ++ d :: after ∧ d.rule = .ok rule ∧
    ¬rule.Repeats before

theorem mem_firstOfKeys_iff_firstDeclared {tables : List Table} {p : Placed} :
    p ∈ firstOfKeys [] (tables.flatMap Table.rules) ↔
      ∃ d rule, FirstDeclared tables d rule ∧ p = ⟨rule, d.head.file, d.head.index⟩ := by
  rw [mem_firstOfKeys_iff, flatMap_rules_decoded]
  constructor
  · rintro ⟨before, after, heq, -, hbefore⟩
    obtain ⟨ds, es, hdecoded, rfl, hes⟩ := List.filterMap_eq_append_iff.mp heq
    obtain ⟨fs, d, gs, rfl, hnone, hd, rfl⟩ := List.filterMap_eq_cons_iff.mp hes
    obtain ⟨rule, hrule, rfl⟩ := Declaration.placed?_eq_some.mp hd
    refine ⟨d, rule, ⟨ds ++ fs, gs, by rw [hdecoded, List.append_assoc], hrule, ?_⟩, rfl⟩
    rw [repeats_iff, List.filterMap_append, List.filterMap_eq_nil_iff.mpr hnone, List.append_nil]
    rintro ⟨q, hq, hkey⟩
    exact hbefore q hq hkey
  · rintro ⟨d, rule, ⟨before, after, hdecoded, hrule, hfirst⟩, rfl⟩
    refine ⟨before.filterMap Declaration.placed?, after.filterMap Declaration.placed?, ?_,
      List.not_mem_nil, fun q hq hkey => hfirst (repeats_iff.mpr ⟨q, hq, hkey⟩)⟩
    rw [hdecoded, List.filterMap_append,
      List.filterMap_cons_some (Declaration.placed?_eq_some.mpr ⟨rule, hrule, rfl⟩)]

theorem Row.linkTo_of_decodeRule {r : Row} {rule : Rule} (h : r.decodeRule = .ok rule) :
    rule.linkTo = r.linkTo.filter (· != 0) := by
  unfold decodeRule at h
  dsimp only at h
  split at h
  · obtain ⟨source, -, h⟩ := bind_eq_ok.mp h
    obtain ⟨spec, -, h⟩ := bind_eq_ok.mp h
    obtain ⟨action, -, h⟩ := bind_eq_ok.mp h
    obtain ⟨target, -, h⟩ := bind_eq_ok.mp h
    cases h
    rfl
  · cases h

theorem Declaration.linkTo_of_rule {d : Declaration} {rule : Rule} (h : d.rule = .ok rule) :
    rule.linkTo = d.head.row.linkTo.filter (· != 0) := by
  obtain ⟨declared, hdeclared, h⟩ := bind_eq_ok.mp h
  obtain ⟨action, -, h⟩ := bind_eq_ok.mp h
  obtain ⟨steps, -, h⟩ := bind_eq_ok.mp h
  cases h
  have hlink := Row.linkTo_of_decodeRule hdeclared
  exact hlink

def RuleSet.linkOf (set : RuleSet) (id : RuleId) : Option RuleId := (set.find? id).bind (·.linkTo)

section

variable {ps : List Placed} (hkeys : (ps.map Placed.key).Nodup) (l : Link)
include hkeys

theorem nodup_ids_ofRules : ((RuleSet.ofRules l (cleaned ps l)).rules.map (·.id)).Nodup := by
  rw [((perm_ofRules l (cleaned ps l)).map _).nodup_iff, ids_cleaned]
  exact nodup_ids_rulesOf hkeys l

theorem linkOf_ofRules :
    linkOf (dropDangling (rulesOf ps l)) = (RuleSet.ofRules l (cleaned ps l)).linkOf := by
  have hids : (cleaned ps l |>.map (·.id)).Nodup := by
    rw [ids_cleaned]
    exact nodup_ids_rulesOf hkeys l
  have hfind : ∀ id, (cleaned ps l).find? (·.id == id) =
      (RuleSet.ofRules l (cleaned ps l)).find? id := by
    intro id
    ext r
    rw [find?_key_eq_some_iff hids, RuleSet.find?_eq_some_iff (nodup_ids_ofRules hkeys l),
      (perm_ofRules l (cleaned ps l)).mem_iff]
  funext id
  rw [RuleSet.linkOf, ← hfind]
  unfold linkOf cleaned
  rw [List.find?_map, Option.bind_map]
  rfl

omit hkeys in
theorem exists_id_ofRules {id : RuleId} :
    (∃ q ∈ (RuleSet.ofRules l (cleaned ps l)).rules, q.id = id) ↔
      (rulesOf ps l).any (·.rule.id == id) = true := by
  have hmem : id ∈ (RuleSet.ofRules l (cleaned ps l)).rules.map (·.id) ↔
      id ∈ (rulesOf ps l).map (·.rule.id) := by
    rw [((perm_ofRules l (cleaned ps l)).map _).mem_iff, ids_cleaned]
  simpa using hmem

/-- Walks among the rules of a set end within as many steps as there are rules. -/
theorem walk_ofRules {p : Placed} (hp : p ∈ rulesOf ps l) :
    Walk (RuleSet.ofRules l (cleaned ps l)).linkOf p.rule.id [p.rule.id] p.rule.id
      (loopsBack (linkOf (dropDangling (rulesOf ps l))) p.rule.id (rulesOf ps l).length
        p.rule.id) := by
  have hclosed : ∀ a b, linkOf (dropDangling (rulesOf ps l)) a = some b →
      b ∈ (rulesOf ps l).map (·.rule.id) := by
    intro a b hnext
    rw [linkOf_ofRules hkeys l] at hnext
    obtain ⟨r, hr, hlink⟩ := Option.bind_eq_some_iff.mp hnext
    have hr := (perm_ofRules l _).mem_iff.mp (RuleSet.mem_of_find? hr)
    rw [cleaned_eq] at hr
    obtain ⟨q, hq, hid⟩ := exists_next_of_mem_linkedRules hr hlink
    rw [← ids_cleaned, cleaned_eq, ← hid]
    exact List.mem_map_of_mem hq
  have hstart : [p.rule.id] ⊆ (rulesOf ps l).map (·.rule.id) :=
    List.cons_subset.mpr ⟨List.mem_map_of_mem hp, List.nil_subset _⟩
  have hfuel : ((rulesOf ps l).map (·.rule.id)).length < (rulesOf ps l).length + 1 := by
    rw [List.length_map]
    exact Nat.lt_succ_self _
  rw [← linkOf_ofRules hkeys l]
  exact walk_loopsBack hclosed (List.pairwise_singleton _ _) hstart hfuel trail_start

theorem exists_of_mem_ofRules {r : Rule} (hr : r ∈ (RuleSet.ofRules l (cleaned ps l)).rules) :
    ∃ p ∈ rulesOf ps l, r.id = p.rule.id ∧ r = { p.rule with linkTo := r.linkTo } ∧
      (∀ t, r.linkTo = some t ↔
        p.rule.linkTo = some t ∧ (rulesOf ps l).any (·.rule.id == t) = true) ∧
      (RuleSet.ofRules l (cleaned ps l)).linkOf r.id = r.linkTo := by
  have hfind := (RuleSet.find?_eq_some_iff (nodup_ids_ofRules hkeys l)).mpr ⟨hr, rfl⟩
  have hr := (perm_ofRules l _).mem_iff.mp hr
  rw [cleaned_eq] at hr
  obtain ⟨rule, hrule, hlink, hr⟩ := mem_linkedRules hr
  obtain ⟨p, hp, rfl⟩ := List.mem_map.mp hrule
  refine ⟨p, mem_rulesOf.mpr ⟨hp, hlink⟩, (congrArg Rule.id hr :), ?_, fun t => ?_, ?_⟩
  · rw [hr]
    rfl
  · rw [hr]
    simp [Rule.linkedAmong, Option.filter_eq_some_iff, rulesOf]
  · rw [RuleSet.linkOf, hfind]
    rfl

end

open Relation in
structure LinkChecked (set : RuleSet) (head : PlacedRow) (r : Rule) (warnings : List Diagnostic) :
    Prop where
  kept : ∀ t, r.linkTo = some t ↔
    head.row.linkTo = some t ∧ t ≠ 0 ∧ ∃ q ∈ set.rules, q.id = t
  dangling : ∀ t, head.row.linkTo = some t → t ≠ 0 → (∀ q ∈ set.rules, q.id ≠ t) →
    warnings = [head.report .warning (.missingLinkTarget t)]
  cyclic : TransGen (LinksTo set.linkOf) r.id r.id →
    ∃ last, ReflTransGen (LinksTo set.linkOf) r.id last ∧ LinksTo set.linkOf last r.id ∧
      warnings = [head.report .warning (.linkCycle last)]
  quiet : (∀ t, head.row.linkTo = some t → t ≠ 0 → ∃ q ∈ set.rules, q.id = t) →
    ¬TransGen (LinksTo set.linkOf) r.id r.id → warnings = []
  walked : ∃ result, Walk set.linkOf r.id [r.id] r.id result ∧
    ∀ last, result = some last ↔ head.report .warning (.linkCycle last) ∈ warnings

theorem linkChecked_ofRules {ps : List Placed} (hkeys : (ps.map Placed.key).Nodup) {l : Link}
    {p : Placed} (hp : p ∈ rulesOf ps l) {head : PlacedRow}
    (hlink : p.rule.linkTo = head.row.linkTo.filter (· != 0))
    (hreport : ∀ finding, p.report .warning finding = head.report .warning finding) {r : Rule}
    (hid : r.id = p.rule.id)
    (hkept : ∀ t, r.linkTo = some t ↔
      p.rule.linkTo = some t ∧ (rulesOf ps l).any (·.rule.id == t) = true)
    (hlinkOf : (RuleSet.ofRules l (cleaned ps l)).linkOf r.id = r.linkTo) :
    LinkChecked (.ofRules l (cleaned ps l)) head r (p.linkWarnings (rulesOf ps l)) := by
  have hwalk := walk_ofRules hkeys l hp
  have hcolumn : ∀ t, p.rule.linkTo = some t ↔ head.row.linkTo = some t ∧ t ≠ 0 := by
    intro t
    rw [hlink, Option.filter_eq_some_iff]
    simp
  unfold Placed.linkWarnings
  rw [← hid] at hwalk ⊢
  generalize loopsBack _ r.id _ r.id = result at hwalk ⊢
  simp only [hreport]
  refine ⟨fun t => ?_, fun t ht hne hgone => ?_, fun hcycle => ?_, fun hthere hacyclic => ?_,
    result, hwalk, fun last => ?_⟩
  · rw [hkept, hcolumn, exists_id_ofRules, and_assoc]
  · have hnone : (rulesOf ps l).any (·.rule.id == t) = false := by
      rw [Bool.eq_false_iff, Ne, ← exists_id_ofRules]
      rintro ⟨q, hq, hqt⟩
      exact hgone q hq hqt
    have hdangling : danglingLink? (rulesOf ps l) p = some t :=
      Option.filter_eq_some_iff.mpr ⟨(hcolumn t).mpr ⟨ht, hne⟩, by simp [hnone]⟩
    -- A link that dangles is dropped, so the walk stops where it starts.
    have hstop : (RuleSet.ofRules l (cleaned ps l)).linkOf r.id = none := by
      rw [hlinkOf, Option.eq_none_iff_forall_ne_some]
      intro u hu
      obtain ⟨hpu, hany⟩ := (hkept u).mp hu
      rw [(hcolumn t).mpr ⟨ht, hne⟩] at hpu
      cases hpu
      rw [hnone] at hany
      cases hany
    rw [hdangling, hwalk.unique (.stop hstop)]
    rfl
  · obtain ⟨last, rfl⟩ := Option.isSome_iff_exists.mp (hwalk.isSome_iff.mpr hcycle)
    -- A rule on a cycle still has its link, so that does not dangle.
    obtain ⟨b, hb, -⟩ := Relation.TransGen.head'_iff.mp hcycle
    rw [LinksTo, hlinkOf] at hb
    obtain ⟨hpb, hany⟩ := (hkept b).mp hb
    have hdangling : danglingLink? (rulesOf ps l) p = none := by
      rw [danglingLink?, hpb, Option.filter_some, hany]
      rfl
    obtain ⟨hpath, hlast⟩ := hwalk.leads_back
    exact ⟨last, hpath, hlast, by rw [hdangling]; rfl⟩
  · have hdangling : danglingLink? (rulesOf ps l) p = none := by
      rw [danglingLink?, Option.filter_eq_none_iff]
      intro t ht
      obtain ⟨hhead, hne⟩ := (hcolumn t).mp ht
      simp [(exists_id_ofRules l).mp (hthere t hhead hne)]
    have hnone : result = none := by
      rw [← Option.not_isSome_iff_eq_none, hwalk.isSome_iff]
      exact hacyclic
    rw [hdangling, hnone]
    rfl
  · simp [PlacedRow.report]

/-- What building a store from some tables does about links. -/
structure LinksChecked (tables : List Table) (store : Store) (diagnostics : List Diagnostic) :
    Prop where
  stored : ∀ l set, store.find? l = some set → ∀ r ∈ set.rules, ∃ d rule,
    FirstDeclared tables d rule ∧ rule.link = l ∧ r = { rule with linkTo := r.linkTo } ∧
      LinkChecked set d.head r (linkWarnings diagnostics l r.id)
  declared : ∀ d rule, FirstDeclared tables d rule →
    ∃ set, store.find? rule.link = some set ∧ ∃ r ∈ set.rules, r.id = rule.id
  nothingElse : ∀ x ∈ diagnostics, x.isLinkWarning = true →
    ∃ l set, store.find? l = some set ∧ ∃ r ∈ set.rules, x ∈ linkWarnings diagnostics l r.id

/-- The links of stored rules are checked, and however links are laid out, each walk along them
ends. -/
theorem build_checks_links (tables : List Table) :
    LinksChecked tables (Store.build tables).1 (Store.build tables).2 ∧
      ∀ next start, ∃! result, Walk next start [start] start result := by
  refine ⟨⟨?stored, ?declared, ?nothingElse⟩, existsUnique_walk⟩
  case stored =>
    intro l set hset r hr
    rw [(Store.eq_ofRules_of_find? hset).2] at hr ⊢
    have hkeys := nodup_firstOfKeys [] (tables.flatMap Table.rules)
    obtain ⟨p, hp, hid, hrule, hkept, hlinkOf⟩ := exists_of_mem_ofRules hkeys l hr
    obtain ⟨hmem, rfl⟩ := mem_rulesOf.mp hp
    obtain ⟨d, rule, hfirst, rfl⟩ := mem_firstOfKeys_iff_firstDeclared.mp hmem
    obtain ⟨-, -, -, hdeclared, -⟩ := id hfirst
    refine ⟨d, rule, hfirst, rfl, hrule, ?_⟩
    rw [linkWarnings_build, hid, linkWarnings_flatMap hkeys hmem]
    exact linkChecked_ofRules hkeys hp (d.linkTo_of_rule hdeclared)
      (Declaration.report_eq hdeclared .warning) hid hkept hlinkOf
  case declared =>
    intro d rule hfirst
    have hmem := mem_firstOfKeys_iff_firstDeclared.mpr ⟨d, rule, hfirst, rfl⟩
    have hlink : rule.link ∈ linksOf (firstOfKeys [] (tables.flatMap Table.rules)) :=
      List.mem_eraseDups.mpr (List.mem_map.mpr ⟨_, hmem, rfl⟩)
    refine ⟨_, (Store.find?_ofRules _ _).trans (if_pos hlink), (exists_id_ofRules _).mpr ?_⟩
    exact List.any_eq_true.mpr ⟨_, mem_rulesOf.mpr ⟨hmem, rfl⟩, beq_self_eq_true _⟩
  case nothingElse =>
    intro x hx hwarning
    obtain ⟨p, hp, finding, rfl⟩ := exists_of_isLinkWarning hx hwarning
    have hlink : p.rule.link ∈ linksOf (firstOfKeys [] (tables.flatMap Table.rules)) :=
      List.mem_eraseDups.mpr (List.mem_map_of_mem hp)
    obtain ⟨r, hr, hid⟩ := (exists_id_ofRules p.rule.link).mpr
      (List.any_eq_true.mpr ⟨p, mem_rulesOf.mpr ⟨hp, rfl⟩, beq_self_eq_true _⟩)
    refine ⟨_, _, (Store.find?_ofRules _ _).trans (if_pos hlink), r, hr, ?_⟩
    have hsubject : (p.rule.link.entry, p.rule.link.sourceType.id, p.rule.id) =
        (p.rule.link.entry, p.rule.link.sourceType.id, r.id) := by rw [hid]
    exact List.mem_filter.mpr ⟨hx, Bool.and_eq_true_iff.mpr ⟨hwarning, decide_eq_true hsubject⟩⟩

private def linkedRow (id next : UInt32) : List Row :=
  (Table.single 100 0 4 fun row => { row with id, linkTo := some next }).rows

example : (Store.build [⟨"links.toml", linkedRow 1 2 ++ linkedRow 2 3 ++ linkedRow 3 2 ++
      linkedRow 4 9⟩]).2.map (fun x => (x.ruleId, x.finding)) =
    [(4, .missingLinkTarget 9), (2, .linkCycle 3), (3, .linkCycle 2)] := by
  decide +kernel

end TriggerScript
