import TriggerScript.Proofs.Declarations

/-!
# Orphans

A continuation row that is attached to no head takes no part in any rule: without such rows some
tables make up the same store.
-/

namespace TriggerScript

def headsWithAttached : List Row → List (Row × List Row)
  | [] => []
  | r :: rs =>
      if r.isContinuation then headsWithAttached rs
      else (r, (rs.takeWhile (·.isContinuation)).filter (·.key = r.key)) :: headsWithAttached rs

def Table.withoutOrphans (t : Table) : Table :=
  { t with rows := (headsWithAttached t.rows).flatMap fun h => h.1 :: h.2 }

theorem headsWithAttached_append {rs : List Row} (h : ∀ r ∈ rs, r.isContinuation = true)
    (more : List Row) : headsWithAttached (rs ++ more) = headsWithAttached more := by
  induction rs with
  | nil => rfl
  | cons r rs ih =>
    obtain ⟨hr, hrs⟩ := List.forall_mem_cons.mp h
    rw [List.cons_append, headsWithAttached, if_pos hr, ih hrs]

theorem takeWhile_flatMap_headsWithAttached (rs : List Row) :
    ((headsWithAttached rs).flatMap fun h => h.1 :: h.2).takeWhile (·.isContinuation) = [] := by
  induction rs with
  | nil => rfl
  | cons r rs ih =>
    rw [headsWithAttached]
    split
    · exact ih
    · rename_i hr
      rw [List.flatMap_cons, List.cons_append, List.takeWhile_cons_of_neg hr]

/-- Leaving out the orphans keeps the heads and the rows attached to them. -/
theorem headsWithAttached_flatMap (rs : List Row) :
    headsWithAttached ((headsWithAttached rs).flatMap fun h => h.1 :: h.2) =
      headsWithAttached rs := by
  induction rs with
  | nil => rfl
  | cons r rs ih =>
    rw [headsWithAttached]
    split
    · exact ih
    · rename_i hr
      have hattached : ∀ q ∈ (rs.takeWhile (·.isContinuation)).filter (·.key = r.key),
          q.isContinuation = true ∧ q.key = r.key := by
        intro q hq
        obtain ⟨hq, hkey⟩ := List.mem_filter.mp hq
        exact ⟨List.all_eq_true.mp List.all_takeWhile q hq, of_decide_eq_true hkey⟩
      generalize (rs.takeWhile (·.isContinuation)).filter (·.key = r.key) = attached at hattached ⊢
      have hcont : ∀ q ∈ attached, q.isContinuation = true := fun q hq => (hattached q hq).1
      have hkeys : attached.filter (·.key = r.key) = attached :=
        List.filter_eq_self.mpr fun q hq => decide_eq_true (hattached q hq).2
      rw [List.flatMap_cons, List.cons_append, headsWithAttached, if_neg hr,
        headsWithAttached_append hcont, ih, List.takeWhile_append_of_pos hcont,
        takeWhile_flatMap_headsWithAttached, List.append_nil, hkeys]

theorem map_rows_declarationsIn (ps : List PlacedRow) :
    (declarationsIn ps).map (fun d => (d.head.row, d.attached.map (·.row))) =
      headsWithAttached (ps.map (·.row)) := by
  induction ps with
  | nil => rfl
  | cons p ps ih =>
    rw [List.map_cons, declarationsIn, headsWithAttached]
    split
    · exact ih
    · rw [List.map_cons, ih, List.takeWhile_map, List.filter_map]
      rfl

theorem map_rule_rules (t : Table) :
    t.rules.map (·.rule) =
      (headsWithAttached t.rows).filterMap fun h => (ruleOfRows h.1 h.2).toOption := by
  rw [t.rules_eq, Table.declarations, ← t.map_row_placed, ← map_rows_declarationsIn,
    List.map_filterMap, List.filterMap_map]
  apply List.filterMap_congr
  intro d _
  unfold Declaration.placed?
  rw [Function.comp_apply, Declaration.rule]
  cases ruleOfRows d.head.row (d.attached.map (·.row)) <;> rfl

theorem map_rule_firstOfKeys {seen : List (Link × RuleId)} {ps qs : List Placed}
    (h : ps.map (·.rule) = qs.map (·.rule)) :
    (firstOfKeys seen ps).map (·.rule) = (firstOfKeys seen qs).map (·.rule) := by
  induction ps generalizing seen qs with
  | nil =>
    rw [List.map_eq_nil_iff.mp h.symm]
  | cons p ps ih =>
    cases qs with
    | nil => cases h
    | cons q qs =>
      obtain ⟨hrule, hrest⟩ : p.rule = q.rule ∧ ps.map (·.rule) = qs.map (·.rule) :=
        List.cons.inj h
      have hkey : p.key = q.key := by rw [Placed.key, Placed.key, hrule]
      unfold firstOfKeys
      rw [hkey]
      split
      · exact ih hrest
      · rw [List.map_cons, List.map_cons, hrule, ih hrest]

theorem Store.ofRules_eq_of_rules {ps qs : List Placed} (h : ps.map (·.rule) = qs.map (·.rule)) :
    ofRules ps = ofRules qs := by
  have hlinks : linksOf ps = linksOf qs := by
    have hmap := congrArg (List.map (·.link)) h
    rw [List.map_map, List.map_map] at hmap
    exact congrArg List.eraseDups hmap
  have hsets : ∀ link, cleaned ps link = cleaned qs link := by
    intro link
    rw [cleaned_eq, cleaned_eq, h]
  unfold ofRules
  rw [hlinks]
  congr 1
  funext store link
  exact congrArg (fun rules => store.insert link (.ofRules link rules)) (hsets link)

/-- Rows that are attached to no head change no rule. -/
theorem Store.build_withoutOrphans (tables : List Table) :
    (build (tables.map Table.withoutOrphans)).1 = (build tables).1 := by
  apply ofRules_eq_of_rules
  apply map_rule_firstOfKeys
  rw [List.flatMap_map, List.map_flatMap, List.map_flatMap]
  congr 1
  funext t
  rw [map_rule_rules, map_rule_rules, Table.withoutOrphans, headsWithAttached_flatMap]

end TriggerScript
