import Mathlib.Data.List.Perm.Subperm
import Mathlib.Logic.Relation
import TriggerScript.Store.Build

/-!
# Walks along links

Every rule links to one other rule at most. A walk that starts at a rule and follows the links ends
where no link leads on, at a link back to its start, or at a rule that it has met before; so it comes
back to its start exactly when the start lies on a cycle.
-/

namespace TriggerScript

/-- A walk begun at `start` that has met the rules `visited` and stands at one of them. It results
in the rule whose link leads back to the start, if it comes to one. -/
inductive Walk (next : RuleId → Option RuleId) (start : RuleId) :
    List RuleId → RuleId → Option RuleId → Prop
  | stop {visited current} (hnext : next current = none) : Walk next start visited current none
  | back {visited current} (hnext : next current = some start) :
      Walk next start visited current (some current)
  | again {visited current target} (hnext : next current = some target) (hne : target ≠ start)
      (hmem : target ∈ visited) : Walk next start visited current none
  | go {visited current target result} (hnext : next current = some target) (hne : target ≠ start)
      (hnew : target ∉ visited) (hrest : Walk next start (target :: visited) target result) :
      Walk next start visited current result

def LinksTo (next : RuleId → Option RuleId) (a b : RuleId) : Prop := next a = some b

variable {next : RuleId → Option RuleId} {start current : RuleId} {visited : List RuleId}

theorem Walk.unique {r r' : Option RuleId} (h : Walk next start visited current r)
    (h' : Walk next start visited current r') : r = r' := by
  induction h with
  | stop hnext => cases h' <;> simp_all
  | back hnext => cases h' <;> simp_all
  | again hnext hne hmem => cases h' <;> simp_all
  | go hnext hne hnew _ ih =>
    cases h' with
    | go hnext' _ _ hrest' =>
      rw [hnext] at hnext'
      cases hnext'
      exact ih hrest'
    | stop | back | again => simp_all

/-- Each rule that was met links to another one that was met, and not to the start. -/
def Confined (next : RuleId → Option RuleId) (start : RuleId) (visited : List RuleId) : Prop :=
  ∀ v ∈ visited, ∃ u ∈ visited, next v = some u ∧ u ≠ start

/-- So does each rule that a walk met but the one at which it stands. -/
def Trail (next : RuleId → Option RuleId) (start : RuleId) (visited : List RuleId)
    (current : RuleId) : Prop :=
  ∀ v ∈ visited, v ≠ current → ∃ u ∈ visited, next v = some u ∧ u ≠ start

theorem trail_start : Trail next start [start] start := fun _ hv hne =>
  absurd (List.mem_singleton.mp hv) hne

theorem Trail.go {target : RuleId} (h : Trail next start visited current)
    (hnext : next current = some target) (hne : target ≠ start) :
    Trail next start (target :: visited) target := by
  intro v hv hvt
  have hv := (List.mem_cons.mp hv).resolve_left hvt
  by_cases hcurrent : v = current
  · exact ⟨target, List.mem_cons_self, hcurrent ▸ hnext, hne⟩
  · obtain ⟨u, hu, hlink⟩ := h v hv hcurrent
    exact ⟨u, List.mem_cons_of_mem target hu, hlink⟩

theorem Trail.confined {target : RuleId} (h : Trail next start visited current)
    (hnext : next current = some target) (hne : target ≠ start) (hmem : target ∈ visited) :
    Confined next start visited := by
  intro v hv
  by_cases hcurrent : v = current
  · exact ⟨target, hmem, hcurrent ▸ hnext, hne⟩
  · exact h v hv hcurrent

theorem Confined.loopsBack {v : RuleId} (h : Confined next start visited) (hv : v ∈ visited)
    (fuel : Nat) : loopsBack next start fuel v = none := by
  induction fuel generalizing v with
  | zero => rfl
  | succ fuel ih =>
    obtain ⟨u, hu, hlink, hne⟩ := h v hv
    unfold TriggerScript.loopsBack
    rw [hlink]
    exact (if_neg hne).trans (ih hu)

theorem Confined.not_transGen {v : RuleId} (h : Confined next start visited) (hv : v ∈ visited) :
    ¬Relation.TransGen (LinksTo next) v start := by
  intro hpath
  induction hpath using Relation.TransGen.head_induction_on with
  | single hlink =>
    obtain ⟨u, -, hu, hne⟩ := h _ hv
    exact hne (Option.some.inj (hu.symm.trans hlink))
  | head hlink _ ih =>
    obtain ⟨u, hmem, hu, -⟩ := h _ hv
    exact ih (Option.some.inj (hu.symm.trans hlink) ▸ hmem)

/-- Among rules that only link to one another, as many steps as there are rules bring a walk to its
end. -/
theorem walk_loopsBack {ids : List RuleId} (hclosed : ∀ a b, next a = some b → b ∈ ids) {fuel : Nat}
    (hnodup : visited.Nodup) (hsub : visited ⊆ ids) (hfuel : ids.length < fuel + visited.length)
    (htrail : Trail next start visited current) :
    Walk next start visited current (loopsBack next start fuel current) := by
  induction fuel generalizing visited current with
  | zero =>
    have hle := (List.subperm_of_subset hnodup hsub).length_le
    omega
  | succ fuel ih =>
    unfold loopsBack
    cases hnext : next current with
    | none => exact .stop hnext
    | some target =>
      dsimp only
      by_cases hne : target = start
      · rw [if_pos hne]
        exact .back (hne ▸ hnext)
      · rw [if_neg hne]
        by_cases hmem : target ∈ visited
        · rw [(htrail.confined hnext hne hmem).loopsBack hmem fuel]
          exact .again hnext hne hmem
        · apply Walk.go hnext hne hmem
          apply ih (List.nodup_cons.mpr ⟨hmem, hnodup⟩)
          · exact List.cons_subset.mpr ⟨hclosed _ _ hnext, hsub⟩
          · rw [List.length_cons]
            omega
          · exact htrail.go hnext hne

private theorem exists_list_of_ids : ∃ ids : List RuleId, ∀ id, id ∈ ids := by
  have hmem : ∀ (n : Nat) (id : RuleId), id.toNat < n → id ∈ (List.range n).map UInt32.ofNat :=
    fun n id hlt => List.mem_map.mpr ⟨id.toNat, List.mem_range.mpr hlt, UInt32.ofNat_toNat⟩
  exact ⟨_, fun id => hmem _ id id.toNat_lt⟩

/-- Whatever links to whatever, every walk comes to one end. -/
theorem existsUnique_walk (next : RuleId → Option RuleId) (start : RuleId) :
    ∃! result, Walk next start [start] start result := by
  obtain ⟨ids, hids⟩ := exists_list_of_ids
  have hwalk : Walk next start [start] start (loopsBack next start ids.length start) :=
    walk_loopsBack (fun _ b _ => hids b) (List.pairwise_singleton _ start) (fun id _ => hids id)
      (Nat.lt_succ_self ids.length) trail_start
  exact ⟨_, hwalk, fun _ h => h.unique hwalk⟩

theorem Walk.leads_back {last : RuleId} (h : Walk next start visited current (some last)) :
    Relation.ReflTransGen (LinksTo next) current last ∧ LinksTo next last start := by
  generalize hresult : some last = result at h
  induction h with
  | stop | again => cases hresult
  | back hnext =>
    cases hresult
    exact ⟨.refl, hnext⟩
  | go hnext _ _ _ ih =>
    obtain ⟨hpath, hlast⟩ := ih hresult
    exact ⟨.head hnext hpath, hlast⟩

theorem Walk.not_transGen (h : Walk next start visited current none)
    (htrail : Trail next start visited current) :
    ¬Relation.TransGen (LinksTo next) current start := by
  generalize hresult : none = result at h
  induction h with
  | stop hnext =>
    intro hpath
    obtain ⟨b, hlink, -⟩ := Relation.TransGen.head'_iff.mp hpath
    rw [LinksTo, hnext] at hlink
    cases hlink
  | back => cases hresult
  | again hnext hne hmem =>
    intro hpath
    obtain ⟨b, hlink, hrest⟩ := Relation.TransGen.head'_iff.mp hpath
    rw [LinksTo, hnext] at hlink
    cases hlink
    rcases Relation.reflTransGen_iff_eq_or_transGen.mp hrest with heq | hrest
    · exact hne heq.symm
    · exact (htrail.confined hnext hne hmem).not_transGen hmem hrest
  | go hnext hne _ _ ih =>
    intro hpath
    obtain ⟨b, hlink, hrest⟩ := Relation.TransGen.head'_iff.mp hpath
    rw [LinksTo, hnext] at hlink
    cases hlink
    rcases Relation.reflTransGen_iff_eq_or_transGen.mp hrest with heq | hrest
    · exact hne heq.symm
    · exact ih (htrail.go hnext hne) hresult hrest

/-- A walk comes back to its start exactly when links lead from the start to itself. -/
theorem Walk.isSome_iff {result : Option RuleId} (h : Walk next start [start] start result) :
    result.isSome = true ↔ Relation.TransGen (LinksTo next) start start := by
  cases result with
  | none => simpa using h.not_transGen trail_start
  | some last =>
    obtain ⟨hpath, hlast⟩ := h.leads_back
    simpa using Relation.TransGen.tail' hpath hlast

end TriggerScript
