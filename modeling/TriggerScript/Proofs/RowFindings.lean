import Mathlib.Data.List.Nodup
import TriggerScript.Proofs.Declarations

/-!
# Findings about rows

Every finding of a table is about one of its rows. Files with distinct names tell the rows of
several tables apart, so the findings about a row are those of its block.
-/

namespace TriggerScript

def PlacedRow.place (p : PlacedRow) : String × Nat := (p.file, p.index)

def Placed.place (p : Placed) : String × Nat := (p.file, p.row)

def Diagnostic.place (d : Diagnostic) : String × Nat := (d.file, d.row)

@[simp] theorem Placed.place_report (p : Placed) (severity : Severity) (finding : RuleError) :
    (p.report severity finding).place = p.place := rfl

def findingsAbout (diagnostics : List Diagnostic) (p : PlacedRow) : List Diagnostic :=
  diagnostics.filter (·.place = p.place)

def errorsAbout (diagnostics : List Diagnostic) (p : PlacedRow) : List Diagnostic :=
  (findingsAbout diagnostics p).filter (·.isError)

@[simp] theorem findingsAbout_append (ds es : List Diagnostic) (p : PlacedRow) :
    findingsAbout (ds ++ es) p = findingsAbout ds p ++ findingsAbout es p :=
  List.filter_append ds es

namespace Block

def rows (b : Block) : List PlacedRow := b.head :: b.followers

def headFindings (b : Block) : List Diagnostic :=
  match b.head.row.decodeRule with
  | .error fault => [b.head.report .error fault]
  | .ok rule => rule.warnings.map (b.head.report .warning)

/-- Findings about a follower, whether or not the head is a rule. -/
def findingsOn (b : Block) (p : PlacedRow) : List Diagnostic :=
  match b.head.row.decodeRule with
  | .error _ =>
      if p.row.key = b.head.row.key then [] else [p.report .error .orphanContinuation]
  | .ok rule => b.followerFindings rule.target p

def accounts (b : Block) : List (PlacedRow × List Diagnostic) :=
  (b.head, b.headFindings) :: b.followers.map fun p => (p, b.findingsOn p)

theorem map_fst_accounts (b : Block) : b.accounts.map (·.1) = b.rows := by
  simp [accounts, rows, Function.comp_def]

theorem flatMap_snd_accounts (b : Block) : b.accounts.flatMap (·.2) = b.findings := by
  simp only [accounts, List.flatMap_cons, List.flatMap_map, headFindings, findings]
  cases hrule : b.head.row.decodeRule with
  | error fault =>
    have hon : b.findingsOn = fun p =>
        if p.row.key = b.head.row.key then [] else [p.report .error .orphanContinuation] := by
      funext p
      rw [findingsOn, hrule]
    rw [hon]
    simp only [List.singleton_append, List.cons.injEq, true_and]
    induction b.followers with
    | nil => rfl
    | cons p ps ih =>
      rw [List.flatMap_cons, ih, List.filter_cons]
      by_cases hkey : p.row.key = b.head.row.key <;> simp [hkey]
  | ok rule =>
    have hon : b.findingsOn = b.followerFindings rule.target := by
      funext p
      rw [findingsOn, hrule]
    rw [hon]

theorem place_of_mem_headFindings {b : Block} {d : Diagnostic} (h : d ∈ b.headFindings) :
    d.place = b.head.place := by
  unfold headFindings at h
  split at h
  · rw [List.mem_singleton.mp h]
    rfl
  · obtain ⟨fault, -, rfl⟩ := List.mem_map.mp h
    rfl

theorem place_of_mem_findingsOn {b : Block} {p : PlacedRow} {d : Diagnostic}
    (h : d ∈ b.findingsOn p) : d.place = p.place := by
  unfold findingsOn followerFindings at h
  split at h
  · split at h
    · cases h
    · rw [List.mem_singleton.mp h]
      rfl
  · split at h
    · rw [List.mem_singleton.mp h]
      rfl
    · rw [List.mem_singleton.mp h]
      rfl
    · obtain ⟨warning, -, rfl⟩ := Option.map_eq_some_iff.mp (Option.mem_toList.mp h)
      rfl

theorem place_of_mem_accounts {b : Block} {a : PlacedRow × List Diagnostic} (ha : a ∈ b.accounts)
    {d : Diagnostic} (hd : d ∈ a.2) : d.place = a.1.place := by
  rcases List.mem_cons.mp ha with rfl | ha
  · exact place_of_mem_headFindings hd
  · obtain ⟨p, -, rfl⟩ := List.mem_map.mp ha
    exact place_of_mem_findingsOn hd

end Block

theorem splitBlocks_rows (ps : List PlacedRow) :
    (splitBlocks ps).1 ++ (splitBlocks ps).2.flatMap Block.rows = ps := by
  induction ps with
  | nil => rfl
  | cons p ps ih =>
    rw [splitBlocks]
    dsimp only
    split
    · rw [List.cons_append, ih]
    · rw [List.nil_append, List.flatMap_cons, Block.rows, List.cons_append, ih]

theorem isContinuation_of_mem_splitBlocks {ps : List PlacedRow} :
    (∀ p ∈ (splitBlocks ps).1, p.row.isContinuation = true) ∧
      ∀ b ∈ (splitBlocks ps).2, b.head.row.isContinuation = false ∧
        ∀ p ∈ b.followers, p.row.isContinuation = true := by
  induction ps with
  | nil => simp [splitBlocks]
  | cons p ps ih =>
    rw [splitBlocks]
    dsimp only
    split
    · rename_i hp
      simpa [hp] using ih
    · rename_i hp
      simpa [hp] using ih

namespace Table

def accounts (t : Table) : List (PlacedRow × List Diagnostic) :=
  (splitBlocks t.placed).1.map (fun p => (p, [p.report .error .orphanContinuation])) ++
    t.blocks.flatMap Block.accounts

theorem map_fst_accounts (t : Table) : t.accounts.map (·.1) = t.placed := by
  have hblocks : (t.blocks.flatMap Block.accounts).map (·.1) = t.blocks.flatMap Block.rows := by
    rw [List.map_flatMap]
    congr 1
    funext b
    exact b.map_fst_accounts
  rw [accounts, List.map_append, hblocks, List.map_map]
  simpa [Function.comp_def, blocks] using splitBlocks_rows t.placed

theorem flatMap_snd_accounts (t : Table) : t.accounts.flatMap (·.2) = t.findings := by
  have hblocks :
      (t.blocks.flatMap Block.accounts).flatMap (·.2) = t.blocks.flatMap Block.findings := by
    rw [List.flatMap_assoc]
    congr 1
    funext b
    exact b.flatMap_snd_accounts
  rw [accounts, List.flatMap_append, hblocks, List.flatMap_map, findings, List.map_eq_flatMap]

theorem place_of_mem_accounts {t : Table} {a : PlacedRow × List Diagnostic} (ha : a ∈ t.accounts)
    {d : Diagnostic} (hd : d ∈ a.2) : d.place = a.1.place := by
  rcases List.mem_append.mp ha with ha | ha
  · obtain ⟨p, -, rfl⟩ := List.mem_map.mp ha
    rw [List.mem_singleton.mp hd]
    rfl
  · obtain ⟨b, -, ha⟩ := List.mem_flatMap.mp ha
    exact Block.place_of_mem_accounts ha hd

theorem nodup_places (t : Table) : (t.placed.map PlacedRow.place).Nodup := by
  have hplaces : t.placed.map PlacedRow.place =
      (List.range' 0 t.rows.length).map fun index => (t.file, index) := by
    rw [← List.zipIdx_map_snd, placed, List.map_map, List.map_map]
    rfl
  rw [hplaces]
  apply List.Nodup.map _ (List.nodup_range' 1)
  intro i j h
  exact (Prod.mk.inj h).2

end Table

theorem nodup_places {tables : List Table} (hfiles : (tables.map (·.file)).Nodup) :
    ((tables.flatMap Table.placed).map PlacedRow.place).Nodup := by
  rw [List.map_flatMap, List.nodup_flatMap]
  refine ⟨fun t _ => t.nodup_places, ?_⟩
  rw [List.nodup_iff_pairwise_ne, List.pairwise_map] at hfiles
  apply hfiles.imp
  intro t u hne place ht hu
  obtain ⟨p, hp, rfl⟩ := List.mem_map.mp ht
  obtain ⟨q, hq, heq⟩ := List.mem_map.mp hu
  obtain ⟨x, -, rfl⟩ := List.mem_map.mp hp
  obtain ⟨y, -, rfl⟩ := List.mem_map.mp hq
  exact hne (Prod.mk.inj heq).1.symm

/-- Where no two rows share a place, the findings about a row are those that stand with it. -/
theorem findingsAbout_flatMap {as : List (PlacedRow × List Diagnostic)}
    (hnodup : (as.map (·.1.place)).Nodup) (hplace : ∀ a ∈ as, ∀ d ∈ a.2, d.place = a.1.place)
    {a : PlacedRow × List Diagnostic} (ha : a ∈ as) :
    findingsAbout (as.flatMap (·.2)) a.1 = a.2 := by
  induction as with
  | nil => cases ha
  | cons b as ih =>
    obtain ⟨hfirst, hrest⟩ := List.forall_mem_cons.mp hplace
    rw [List.map_cons, List.nodup_cons] at hnodup
    rw [List.flatMap_cons, findingsAbout_append]
    rcases List.mem_cons.mp ha with rfl | ha
    · have hothers : findingsAbout (as.flatMap (·.2)) a.1 = [] := by
        apply List.filter_eq_nil_iff.mpr
        intro d hd hsame
        obtain ⟨c, hc, hd⟩ := List.mem_flatMap.mp hd
        apply hnodup.1
        rw [← of_decide_eq_true hsame, hrest c hc d hd]
        exact List.mem_map_of_mem hc
      have hown : findingsAbout a.2 a.1 = a.2 :=
        List.filter_eq_self.mpr fun d hd => decide_eq_true (hfirst d hd)
      rw [hothers, hown, List.append_nil]
    · have hothers : findingsAbout b.2 a.1 = [] := by
        apply List.filter_eq_nil_iff.mpr
        intro d hd hsame
        apply hnodup.1
        rw [← hfirst d hd, of_decide_eq_true hsame]
        exact List.mem_map_of_mem ha
      rw [hothers, List.nil_append, ih hnodup.2 hrest ha]

section

variable {tables : List Table}

theorem findingsAbout_findings (hfiles : (tables.map (·.file)).Nodup) {t : Table}
    (ht : t ∈ tables) {a : PlacedRow × List Diagnostic} (ha : a ∈ t.accounts) :
    findingsAbout (tables.flatMap Table.findings) a.1 = a.2 := by
  have hfindings :
      tables.flatMap Table.findings = (tables.flatMap Table.accounts).flatMap (·.2) := by
    rw [List.flatMap_assoc]
    congr 1
    funext t
    exact t.flatMap_snd_accounts.symm
  have hrows : (tables.flatMap Table.accounts).map (·.1.place) =
      (tables.flatMap Table.placed).map PlacedRow.place := by
    rw [List.map_flatMap, List.map_flatMap]
    congr 1
    funext t
    rw [← t.map_fst_accounts, List.map_map]
    rfl
  rw [hfindings]
  apply findingsAbout_flatMap
  · rw [hrows]
    exact nodup_places hfiles
  · intro b hb d hd
    obtain ⟨u, -, hu⟩ := List.mem_flatMap.mp hb
    exact Table.place_of_mem_accounts hu hd
  · exact List.mem_flatMap.mpr ⟨t, ht, ha⟩

theorem mem_declarations {d : Declaration} :
    d ∈ declarations tables ↔ ∃ t ∈ tables, ∃ b ∈ t.blocks, b.declaration = d := by
  simp only [declarations, List.mem_flatMap, Table.declarations, ← map_declaration_splitBlocks,
    List.mem_map]
  rfl

theorem head_mem_placed {d : Declaration} (hd : d ∈ declarations tables) :
    d.head ∈ tables.flatMap Table.placed ∧ d.head.row.isContinuation = false := by
  obtain ⟨t, ht, b, hb, rfl⟩ := mem_declarations.mp hd
  refine ⟨List.mem_flatMap.mpr ⟨t, ht, ?_⟩, (isContinuation_of_mem_splitBlocks.2 b hb).1⟩
  rw [← splitBlocks_rows t.placed]
  exact List.mem_append_right _ (List.mem_flatMap.mpr ⟨b, hb, List.mem_cons_self⟩)

theorem place_ne_of_isContinuation (hfiles : (tables.map (·.file)).Nodup) {d : Declaration}
    (hd : d ∈ declarations tables) {p : PlacedRow} (hp : p ∈ tables.flatMap Table.placed)
    (hcont : p.row.isContinuation = true) : d.head.place ≠ p.place := by
  obtain ⟨hhead, hnot⟩ := head_mem_placed hd
  intro hplace
  rw [List.inj_on_of_nodup_map (nodup_places hfiles) hhead hp hplace, hcont] at hnot
  cases hnot

theorem heads_sublist (ps : List PlacedRow) : ((declarationsIn ps).map (·.head)).Sublist ps := by
  induction ps with
  | nil => exact .slnil
  | cons p ps ih =>
    rw [declarationsIn]
    split
    · exact ih.cons p
    · exact ih.cons_cons p

theorem nodup_heads (hfiles : (tables.map (·.file)).Nodup) :
    ((declarations tables).map (·.head.place)).Nodup := by
  have hsub : ((declarations tables).map (·.head)).Sublist (tables.flatMap Table.placed) := by
    unfold declarations
    clear hfiles
    induction tables with
    | nil => exact .slnil
    | cons t tables ih =>
      rw [List.flatMap_cons, List.flatMap_cons, List.map_append]
      exact (heads_sublist t.placed).append ih
  have hplaces := (nodup_places hfiles).sublist (hsub.map PlacedRow.place)
  rwa [List.map_map] at hplaces

theorem exists_of_mem_flatMap_rules {q : Placed} (hq : q ∈ tables.flatMap Table.rules) :
    ∃ d ∈ declarations tables, ∃ rule, d.rule = .ok rule ∧
      q = ⟨rule, d.head.file, d.head.index⟩ := by
  rw [flatMap_rules] at hq
  obtain ⟨d, hd, hq⟩ := List.mem_filterMap.mp hq
  exact ⟨d, hd, Declaration.placed?_eq_some.mp hq⟩

end

end TriggerScript
