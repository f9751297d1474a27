import TriggerScript.Proofs.Building
import TriggerScript.Proofs.RowFindings

/-!
# Tables about different links

The rows of a table are about an entry in a domain. Tables that are about nothing in common are
loaded as if the others were not there: every link gets the rules of its own tables, the findings
add up, and the order of the tables makes no difference to the store.
-/

namespace TriggerScript

/-- What a row is about, whether it names a domain or not. -/
def Row.subject (r : Row) : Int64 × UInt32 := (r.entry, r.sourceType)

def Link.subject (l : Link) : Int64 × UInt32 := (l.entry, l.sourceType.id)

def subjects (tables : List Table) : List (Int64 × UInt32) :=
  tables.flatMap fun t => t.rows.map Row.subject

theorem subject_mem_subjects {tables : List Table} {p : Placed}
    (h : p ∈ tables.flatMap Table.rules) : p.rule.link.subject ∈ subjects tables := by
  obtain ⟨d, hd, rule, hrule, rfl⟩ := exists_of_mem_flatMap_rules h
  obtain ⟨declared, hdeclared, hrule⟩ := bind_eq_ok.mp hrule
  obtain ⟨action, -, hrule⟩ := bind_eq_ok.mp hrule
  obtain ⟨steps, -, hrule⟩ := bind_eq_ok.mp hrule
  cases hrule
  obtain ⟨hentry, hsource, -, -⟩ := Row.declares_of_decodeRule hdeclared
  obtain ⟨t, ht, hhead⟩ := List.mem_flatMap.mp (head_mem_placed hd).1
  have hrow : d.head.row ∈ t.rows := by
    rw [← t.map_row_placed]
    exact List.mem_map_of_mem hhead
  refine List.mem_flatMap.mpr ⟨t, ht, List.mem_map.mpr ⟨d.head.row, hrow, ?_⟩⟩
  simp [Row.subject, Link.subject, hentry, hsource]

/-- No rule of one list has the link of a rule of the other. -/
def LinkedApart (ps qs : List Placed) : Prop := ∀ p ∈ ps, ∀ q ∈ qs, p.rule.link ≠ q.rule.link

variable {ps qs : List Placed}

theorem linkedApart_of_subjects {A B : List Table} (h : ∀ x ∈ subjects A, x ∉ subjects B) :
    LinkedApart (A.flatMap Table.rules) (B.flatMap Table.rules) := by
  intro p hp q hq hlink
  have hq := subject_mem_subjects hq
  rw [← hlink] at hq
  exact h _ (subject_mem_subjects hp) hq

theorem firstOfKeys_congr {seen seen' : List (Link × RuleId)}
    (h : ∀ p ∈ ps, p.key ∈ seen ↔ p.key ∈ seen') :
    firstOfKeys seen ps = firstOfKeys seen' ps ∧
      repeatsOfKeys seen ps = repeatsOfKeys seen' ps := by
  induction ps generalizing seen seen' with
  | nil => exact ⟨rfl, rfl⟩
  | cons p ps ih =>
    have hp : p.key ∈ seen ↔ p.key ∈ seen' := h p List.mem_cons_self
    have hrest : ∀ q ∈ ps, q.key ∈ seen ↔ q.key ∈ seen' :=
      fun q hq => h q (List.mem_cons_of_mem p hq)
    have hmore : ∀ q ∈ ps, q.key ∈ p.key :: seen ↔ q.key ∈ p.key :: seen' :=
      fun q hq => by simp [hrest q hq]
    by_cases hseen : p.key ∈ seen'
    · simp [firstOfKeys, repeatsOfKeys, hp, hseen, ih hrest]
    · simp [firstOfKeys, repeatsOfKeys, hp, hseen, ih hmore]

/-- No rule repeats one with another link. -/
theorem firstOfKeys_append {seen : List (Link × RuleId)} (h : LinkedApart ps qs) :
    firstOfKeys seen (ps ++ qs) = firstOfKeys seen ps ++ firstOfKeys seen qs ∧
      repeatsOfKeys seen (ps ++ qs) = repeatsOfKeys seen ps ++ repeatsOfKeys seen qs := by
  induction ps generalizing seen with
  | nil => exact ⟨rfl, rfl⟩
  | cons p ps ih =>
    have hrest : LinkedApart ps qs := fun q hq => h q (List.mem_cons_of_mem p hq)
    by_cases hseen : p.key ∈ seen
    · simp [firstOfKeys, repeatsOfKeys, hseen, ih hrest]
    · have hother : ∀ q ∈ qs, q.key ∈ p.key :: seen ↔ q.key ∈ seen := by
        intro q hq
        have hne : q.key ≠ p.key := fun hkey =>
          h p List.mem_cons_self q hq (congrArg Prod.fst hkey).symm
        simp [hne]
      simp [firstOfKeys, repeatsOfKeys, hseen, ih hrest, firstOfKeys_congr hother]

theorem LinkedApart.firstOfKeys (h : LinkedApart ps qs) :
    LinkedApart (firstOfKeys [] ps) (firstOfKeys [] qs) :=
  fun p hp q hq => h p (mem_of_mem_firstOfKeys hp).1 q (mem_of_mem_firstOfKeys hq).1

theorem mem_linksOf {l : Link} : l ∈ linksOf ps ↔ ∃ p ∈ ps, p.rule.link = l := by
  simp [linksOf]

theorem linksOf_append (h : LinkedApart ps qs) : linksOf (ps ++ qs) = linksOf ps ++ linksOf qs := by
  have hall : (qs.map (·.rule.link)).removeAll (ps.map (·.rule.link)) = qs.map (·.rule.link) := by
    apply List.filter_eq_self.mpr
    intro l hl
    obtain ⟨q, hq, rfl⟩ := List.mem_map.mp hl
    simpa using fun p hp => h p hp q hq
  rw [linksOf, List.map_append, List.eraseDups_append, hall]
  rfl

theorem rulesOf_eq_nil {l : Link} (h : l ∉ linksOf ps) : rulesOf ps l = [] := by
  rw [mem_linksOf] at h
  simpa [rulesOf] using h

theorem LinkedApart.not_mem_right (h : LinkedApart ps qs) {l : Link} (hl : l ∈ linksOf ps) :
    l ∉ linksOf qs := by
  obtain ⟨p, hp, rfl⟩ := mem_linksOf.mp hl
  intro hq
  obtain ⟨q, hq, hlink⟩ := mem_linksOf.mp hq
  exact h p hp q hq hlink.symm

theorem LinkedApart.not_mem_left (h : LinkedApart ps qs) {l : Link} (hl : l ∈ linksOf qs) :
    l ∉ linksOf ps :=
  fun hp => h.not_mem_right hp hl

theorem rulesOf_append_left (h : LinkedApart ps qs) {l : Link} (hl : l ∈ linksOf ps) :
    rulesOf (ps ++ qs) l = rulesOf ps l := by
  have hqs : rulesOf qs l = [] := rulesOf_eq_nil (h.not_mem_right hl)
  rw [rulesOf, List.filter_append]
  change rulesOf ps l ++ rulesOf qs l = _
  rw [hqs, List.append_nil]

theorem rulesOf_append_right (h : LinkedApart ps qs) {l : Link} (hl : l ∈ linksOf qs) :
    rulesOf (ps ++ qs) l = rulesOf qs l := by
  have hps : rulesOf ps l = [] := rulesOf_eq_nil (h.not_mem_left hl)
  rw [rulesOf, List.filter_append]
  change rulesOf ps l ++ rulesOf qs l = _
  rw [hps, List.nil_append]

namespace Store

theorem find?_ofRules_append (h : LinkedApart ps qs) (link : Link) :
    (ofRules (ps ++ qs)).find? link = ((ofRules ps).find? link).or ((ofRules qs).find? link) := by
  simp only [find?_ofRules, linksOf_append h, List.mem_append, cleaned]
  by_cases hps : link ∈ linksOf ps
  · simp [hps, rulesOf_append_left h hps]
  · by_cases hqs : link ∈ linksOf qs
    · simp [hps, hqs, rulesOf_append_right h hqs]
    · simp [hps, hqs]

variable {A B : List Table}

theorem find?_build_eq_none {link : Link} (h : link.subject ∉ subjects A) :
    (build A).1.find? link = none := by
  rw [show (build A).1.find? link = _ from find?_ofRules _ link, if_neg]
  intro hlink
  obtain ⟨p, hp, rfl⟩ := mem_linksOf.mp hlink
  exact h (subject_mem_subjects (mem_of_mem_firstOfKeys hp).1)

theorem find?_build_append (h : ∀ x ∈ subjects A, x ∉ subjects B) (link : Link) :
    (build (A ++ B)).1.find? link =
      ((build A).1.find? link).or ((build B).1.find? link) := by
  have hrules := linkedApart_of_subjects h
  change (ofRules (firstOfKeys [] ((A ++ B).flatMap Table.rules))).find? link = _
  rw [List.flatMap_append, (firstOfKeys_append hrules).1, find?_ofRules_append hrules.firstOfKeys]
  rfl

/-- The findings about the links of a store are those about each of its parts. -/
theorem flatMap_linkFindings_append (h : LinkedApart ps qs) :
    (linksOf (ps ++ qs)).flatMap (fun link => linkFindings (rulesOf (ps ++ qs) link)) =
      (linksOf ps).flatMap (fun link => linkFindings (rulesOf ps link)) ++
        (linksOf qs).flatMap (fun link => linkFindings (rulesOf qs link)) := by
  rw [linksOf_append h, List.flatMap_append]
  congr 1
  · exact List.flatMap_congr fun link hlink => by rw [rulesOf_append_left h hlink]
  · exact List.flatMap_congr fun link hlink => by rw [rulesOf_append_right h hlink]

theorem perm_findings_append (h : ∀ x ∈ subjects A, x ∉ subjects B) :
    (build (A ++ B)).2.Perm ((build A).2 ++ (build B).2) := by
  have hrules := linkedApart_of_subjects h
  have hfirst := (@firstOfKeys_append _ _ [] hrules).1
  have hrepeats := (@firstOfKeys_append _ _ [] hrules).2
  simp only [build, List.flatMap_append, hfirst, hrepeats, List.map_append,
    flatMap_linkFindings_append hrules.firstOfKeys]
  rw [List.perm_iff_count]
  intro d
  simp only [List.count_append]
  omega

/-- What loading two lists of tables together comes to. -/
structure LoadsApart (A B : List Table) : Prop where
  sets : ∀ link, (build (A ++ B)).1.find? link =
    if link.subject ∈ subjects A then (build A).1.find? link
    else if link.subject ∈ subjects B then (build B).1.find? link
    else none
  findings : (build (A ++ B)).2.Perm ((build A).2 ++ (build B).2)
  swapped : (build (B ++ A)).1 = (build (A ++ B)).1

/-- Tables about different links do not influence each other. -/
theorem separate_tables_load_apart (h : ∀ x ∈ subjects A, x ∉ subjects B) : LoadsApart A B := by
  have hsymm : ∀ x ∈ subjects B, x ∉ subjects A := fun x hB hA => h x hA hB
  have hcases : ∀ link : Link,
      (build A).1.find? link = none ∨ (build B).1.find? link = none := by
    intro link
    by_cases hA : link.subject ∈ subjects A
    · exact .inr (find?_build_eq_none (h _ hA))
    · exact .inl (find?_build_eq_none hA)
  constructor
  · intro link
    rw [find?_build_append h]
    by_cases hA : link.subject ∈ subjects A
    · simp [hA, find?_build_eq_none (h _ hA)]
    · by_cases hB : link.subject ∈ subjects B
      · simp [hA, hB, find?_build_eq_none hA]
      · simp [hA, hB, find?_build_eq_none]
  · exact perm_findings_append h
  · apply Std.ExtTreeMap.ext_getElem?
    intro link
    change (build (B ++ A)).1.find? link = (build (A ++ B)).1.find? link
    rw [find?_build_append h, find?_build_append hsymm]
    rcases hcases link with hnone | hnone <;> simp [hnone]

private def guardTables : List Table := [Table.single 100 0 4 id, Table.single 100 0 4 id]

private def stepTables : List Table := [Table.single 100 9 60 fun row => { row with linkTo := some 7 }]

private theorem guard_apart_steps : ∀ x ∈ subjects guardTables, x ∉ subjects stepTables := by
  have hguard : subjects guardTables = [(100, 0), (100, 0)] := rfl
  have hsteps : subjects stepTables = [(100, 9)] := rfl
  simp [hguard, hsteps]

theorem guard_and_steps_load_apart :
    (∀ x ∈ subjects guardTables, x ∉ subjects stepTables) ∧ LoadsApart guardTables stepTables ∧
      (build guardTables).2.length = 1 ∧ (build stepTables).2.length = 1 ∧
      (build (guardTables ++ stepTables)).2.length = 2 :=
  ⟨guard_apart_steps, separate_tables_load_apart guard_apart_steps, by decide +kernel,
    by decide +kernel, by decide +kernel⟩

end Store

end TriggerScript
