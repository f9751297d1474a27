import TriggerScript.Proofs.Draws
import TriggerScript.Proofs.Least
import TriggerScript.Proofs.Resolving

/-!
# Readings of a threat list

An entity is on a threat list once at most. As long as all threat on the list is a number, the
victim is the top of the sorted list, and the targets that are taken from the list name its places:
the first, the second, the last, or one at random.
-/

namespace TriggerScript

theorem map_handle_raiseThreat (target : Handle) (amount : Float32) (ts : List ThreatEntry) :
    (raiseThreat target amount ts).map (·.handle) =
      if target ∈ ts.map (·.handle) then ts.map (·.handle)
      else ts.map (·.handle) ++ [target] := by
  induction ts with
  | nil => rfl
  | cons t ts ih =>
    unfold raiseThreat
    by_cases ht : t.handle = target
    · simp [ht]
    · have ht' : target ≠ t.handle := Ne.symm ht
      rw [if_neg ht, List.map_cons, ih, List.map_cons]
      by_cases hmem : target ∈ ts.map (·.handle) <;> simp [hmem, ht']

theorem nodup_raiseThreat {target : Handle} {amount : Float32} {ts : List ThreatEntry}
    (h : (ts.map (·.handle)).Nodup) : ((raiseThreat target amount ts).map (·.handle)).Nodup := by
  rw [map_handle_raiseThreat]
  split
  · exact h
  · rename_i hnew
    exact List.nodup_append.mpr ⟨h, by simp, by grind⟩

namespace World

variable {w v : World} {h : Handle}

theorem threatList_eq (w : World) (h : Handle) : w.threatList h = (w.shown (·.threat) h).getD [] := by
  unfold threatList shown
  cases w.find? h <;> rfl

theorem threatList_eq_of_shown (hsame : v.shown (·.threat) h = w.shown (·.threat) h) :
    v.threatList h = w.threatList h := by
  rw [threatList_eq, threatList_eq, hsame]

theorem threatList_perform (w : World) (c : Command) (h : Handle) :
    (w.perform c).2.threatList h = w.threatList h ∨ (w.perform c).2.threatList h = [] := by
  have hthreat : OffCommands (·.threat) := fun _ _ _ _ _ _ _ => rfl
  rcases w.perform_cases c with hfailed | ⟨v, hv, hdone⟩
  · rw [hfailed]
    exact .inl rfl
  · rw [hdone]
    change v.threatList h = _ ∨ v.threatList h = []
    rcases hthreat.shown_apply hv h with hsame | hgone | ⟨-, entry, position, hnew⟩
    · exact .inl (threatList_eq_of_shown hsame)
    · exact .inr (by rw [threatList_eq, hgone]; rfl)
    · exact .inr (by rw [threatList_eq, hnew]; rfl)

theorem threat_apply (e : Entity) (setting : Setting) :
    (setting.apply e).threat = e.threat ∨ (setting.apply e).threat = [] ∨
      ∃ target amount, (setting.apply e).threat = raiseThreat target amount e.threat := by
  cases setting with
  | threat target amount => exact .inr (.inr ⟨target, amount, rfl⟩)
  | inCombat fighting =>
    cases fighting
    · exact .inr (.inl rfl)
    · exact .inl rfl
  | _ => exact .inl rfl

theorem threatList_edit (w : World) (e : Edit) (h : Handle) :
    (w.edit e).threatList h = w.threatList h ∨ (w.edit e).threatList h = [] ∨
      ∃ target amount, (w.edit e).threatList h = raiseThreat target amount (w.threatList h) := by
  cases e with
  | spawn kind entry position =>
    have hspawned := shown_spawn (·.threat) w kind entry position h
    split at hspawned
    · exact .inr (.inl (by rw [threatList_eq, edit, hspawned]; rfl))
    · exact .inl (threatList_eq_of_shown hspawned)
  | remove gone =>
    have hremoved := shown_remove (·.threat) w gone h
    split at hremoved
    · exact .inr (.inl (by rw [threatList_eq, edit, hremoved]; rfl))
    · exact .inl (threatList_eq_of_shown hremoved)
  | set k setting =>
    have hset : (w.edit (.set k setting)).find? h =
        if h = k then (w.find? h).map setting.apply else w.find? h :=
      find?_modify w k setting.apply h
    unfold threatList
    rw [hset]
    split
    · cases w.find? h with
      | none => exact .inl rfl
      | some e => exact threat_apply e setting
    · exact .inl rfl
  | perform c => exact (threatList_perform w c h).imp_right .inl
  | _ => exact .inl rfl

def ThreatenedOnce (w : World) : Prop := ∀ h, ((w.threatList h).map (·.handle)).Nodup

theorem threatenedOnce_empty : empty.ThreatenedOnce := fun h => by
  simp [threatList, find?, empty]

theorem ThreatenedOnce.edit (hw : w.ThreatenedOnce) (e : Edit) : (w.edit e).ThreatenedOnce := by
  intro h
  rcases threatList_edit w e h with hsame | hnone | ⟨target, amount, hraised⟩
  · rw [hsame]
    exact hw h
  · rw [hnone]
    exact .nil
  · rw [hraised]
    exact nodup_raiseThreat (hw h)

theorem ThreatenedOnce.edited (hw : w.ThreatenedOnce) (es : List Edit) :
    (w.edited es).ThreatenedOnce := by
  induction es generalizing w with
  | nil => exact hw
  | cons e es ih => exact ih (hw.edit e)

theorem weakOrder_threat {ts : List ThreatEntry} (hreal : ∀ t ∈ ts, t.threat.isNaN = false) :
    WeakOrder (fun a b : ThreatEntry => a.threat > b.threat) ts :=
  (weakOrder_lt hreal).flip

theorem ThreatenedOnce.nodup_byThreat (hw : w.ThreatenedOnce) (owner : Handle) :
    (w.byThreat owner).Nodup :=
  ((perm_sortStable _ _).map _).nodup_iff.mpr (hw owner)

theorem topThreat_concat (ts : List ThreatEntry) (t : ThreatEntry) :
    topThreat (ts ++ [t]) =
      some ((topThreat ts).elim t fun best => if t.threat > best.threat then t else best) := by
  unfold topThreat
  rw [List.foldl_append, List.foldl_cons, List.foldl_nil]
  split
  · rename_i hnone
    rw [hnone]
    rfl
  · rename_i best hbest
    rw [hbest, Option.elim_some, apply_ite some]

theorem topThreat_eq_leastBy (ts : List ThreatEntry) :
    topThreat ts = leastBy (fun a b => a.threat > b.threat) ts := by
  induction ts using List.reverseRecOn with
  | nil => rfl
  | append_singleton ts t ih => simp only [topThreat_concat, leastBy_concat, ih, decide_eq_true_iff]

theorem victim?_eq_head? {owner : Handle}
    (hreal : ∀ t ∈ w.threatList owner, t.threat.isNaN = false) :
    w.victim? owner = (w.byThreat owner).head? := by
  rw [victim?, topThreat_eq_leastBy, ← head?_sortStable (weakOrder_threat hreal), byThreat,
    List.head?_map]

theorem head?_filteredByThreat {owner : Handle}
    (hreal : ∀ t ∈ w.threatList owner, t.threat.isNaN = false) {f : ThreatFilter}
    (hvictim : w.victim? owner = some h) (hpasses : w.passesFilter owner f h = true) :
    (w.filteredByThreat owner f).head? = some h := by
  rw [victim?_eq_head? hreal] at hvictim
  obtain ⟨rest, hrest⟩ := List.head?_eq_some_iff.mp hvictim
  rw [filteredByThreat, hrest, List.filter_cons_of_pos hpasses]
  rfl

theorem not_mem_tail_filteredByThreat {owner : Handle} (hw : w.ThreatenedOnce)
    (hreal : ∀ t ∈ w.threatList owner, t.threat.isNaN = false) (f : ThreatFilter)
    (hvictim : w.victim? owner = some h) : h ∉ (w.filteredByThreat owner f).tail := by
  rw [victim?_eq_head? hreal] at hvictim
  obtain ⟨rest, hrest⟩ := List.head?_eq_some_iff.mp hvictim
  have hnew : h ∉ rest := (List.nodup_cons.mp (hrest ▸ hw.nodup_byThreat owner)).1
  rw [filteredByThreat, hrest, List.filter_cons]
  split
  · exact fun hmem => hnew (List.mem_filter.mp hmem).1
  · exact fun hmem => hnew (List.mem_filter.mp (List.mem_of_mem_tail hmem)).1

end World

/-- How the targets agree that are taken from the threat list of `owner` with one filter. -/
structure ThreatReadings (w : World) (owner : Handle) (f : ThreatFilter) (listed : List Handle)
    (picks : Target → Rng → List Handle) : Prop where
  top : ∃ ts, World.InThreatOrder (w.threatList owner) ts ∧
    (ts.Pairwise fun a b => ¬b.threat > a.threat) ∧ w.victim? owner = ts.head?.map (·.handle)
  whole : ∀ g, picks (.threatList f) g = listed
  victim : ∀ g, picks (.victim f) g = [] ∨
    ∃ v, picks (.victim f) g = [v] ∧ listed.head? = some v
  given : ∀ g v, v ∈ picks (.victim f) g ↔ w.victim? owner = some v ∧ v ∈ listed
  second : ∀ g, picks (.hostileSecondAggro f) g = listed[1]?.toList
  last : ∀ g, picks (.hostileLastAggro f) g = listed.getLast?.toList
  random : ∀ g, ∃ pick : Option Handle, picks (.hostileRandom f) g = pick.toList ∧
    (∀ h ∈ pick, h ∈ listed) ∧ (pick = none ↔ listed = [])
  notTop : ∀ g, ∃ pick : Option Handle, picks (.hostileRandomNotTop f) g = pick.toList ∧
    (∀ h ∈ pick, h ∈ listed) ∧ (pick = none ↔ listed.length < 2)
  spared : ∀ g v, w.victim? owner = some v →
    v ∉ picks (.hostileSecondAggro f) g ∧ v ∉ picks (.hostileRandomNotTop f) g

/-- In a world that is built by edits, the readings of a threat list of numbers agree. -/
theorem threatReadings_edited (es : List Edit) (o : Occasion) (literal : Position)
    (stored : Std.ExtTreeMap UInt32 (List Handle)) (f : ThreatFilter)
    (hreal : ∀ t ∈ (World.empty.edited es).threatList o.owner, t.threat.isNaN = false) :
    ThreatReadings (World.empty.edited es) o.owner f
      ((World.empty.edited es).filteredByThreat o.owner f) fun target g =>
        ((TargetDescriptor.mk target literal).resolve o (World.empty.edited es) stored g).1.entities := by
  have hw := World.threatenedOnce_empty.edited es
  generalize World.empty.edited es = w at hw hreal ⊢
  have hnodup : (w.filteredByThreat o.owner f).Nodup := (hw.nodup_byThreat o.owner).filter _
  refine ⟨?top, ?whole, ?victim, ?given, ?second, ?last, ?random, ?notTop, ?spared⟩
  case top =>
    obtain ⟨ts, hts, hbyThreat⟩ := w.exists_byThreat o.owner
    refine ⟨ts, hts, hts.descending (World.weakOrder_threat hreal), ?_⟩
    rw [World.victim?_eq_head? hreal, hbyThreat, List.head?_map]
  case whole => exact fun _ => Targets.entities_ofList_of_nodup hnodup
  case victim =>
    intro g
    cases hvictim : (w.victim? o.owner).filter (w.passesFilter o.owner f) with
    | none => exact .inl ((Targets.entities_ofOption _).trans (congrArg Option.toList hvictim))
    | some v =>
      obtain ⟨hv, hpasses⟩ := Option.filter_eq_some_iff.mp hvictim
      exact .inr ⟨v, (Targets.entities_ofOption _).trans (congrArg Option.toList hvictim),
        World.head?_filteredByThreat hreal hv hpasses⟩
  case given =>
    intro g v
    refine Targets.mem_ofOption.trans ?_
    rw [Option.filter_eq_some_iff]
    exact ⟨fun ⟨hv, hpasses⟩ => ⟨hv, World.mem_filteredByThreat_of_victim? hv hpasses⟩,
      fun ⟨hv, hlisted⟩ => ⟨hv, (List.mem_filter.mp hlisted).2⟩⟩
  case second => exact fun _ => Targets.entities_ofOption _
  case last => exact fun _ => Targets.entities_ofOption _
  case random =>
    exact fun g => ⟨_, Targets.entities_ofOption _, fun _ => mem_of_choose, Rng.choose_eq_none_iff⟩
  case notTop =>
    refine fun g => ⟨_, Targets.entities_ofOption _,
      fun _ hpick => List.mem_of_mem_tail (mem_of_choose hpick), Rng.choose_eq_none_iff.trans ?_⟩
    rw [← List.length_eq_zero_iff, List.length_tail]
    omega
  case spared =>
    intro g v hv
    have hnew := World.not_mem_tail_filteredByThreat hw hreal f hv
    refine ⟨fun hmem => hnew ?_, fun hmem => hnew ?_⟩
    · have hsecond : (w.filteredByThreat o.owner f)[1]? = some v := Targets.mem_ofOption.mp hmem
      exact List.mem_of_getElem? (by rwa [List.getElem?_tail])
    · exact mem_of_choose (Targets.mem_ofOption.mp hmem)

private def pulled : List Edit :=
  [.spawn .creature 100 .origin, .spawn .player 0 ⟨5.0, 0.0, 0.0, 0.0⟩,
    .spawn .player 0 ⟨50.0, 0.0, 0.0, 0.0⟩, .spawn .player 0 ⟨3.0, 0.0, 0.0, 0.0⟩,
    .set 1 (.threat 2 10.0), .set 1 (.threat 3 50.0), .set 1 (.threat 4 10.0)]

/-- The victim is out of reach of the filter, and the two that are left are tied. -/
theorem threatReadings_pulled :
    ThreatReadings (World.empty.edited pulled) 1 ⟨10, false⟩ [2, 4] (fun target g =>
        ((TargetDescriptor.mk target .origin).resolve { owner := 1 } (World.empty.edited pulled) ∅
          g).1.entities) ∧
      (World.empty.edited pulled).victim? 1 = some 3 := by
  have hlisted : (World.empty.edited pulled).filteredByThreat 1 ⟨10, false⟩ = [2, 4] := by
    decide +kernel
  have hreadings := threatReadings_edited pulled { owner := 1 } .origin ∅ ⟨10, false⟩
    (by decide +kernel)
  rw [hlisted] at hreadings
  exact ⟨hreadings, by decide +kernel⟩

end TriggerScript
