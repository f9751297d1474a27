import TriggerScript.Proofs.Nearness
import TriggerScript.Proofs.Orders
import TriggerScript.Targeting

/-!
# What targets resolve to

The entities of a target are distinct and there, unless the target is the owner, which nobody looks
up. Parties, threat lists and stored lists keep their order.
-/

namespace TriggerScript

theorem mem_of_choose {xs : List Handle} {g : Rng} {h : Handle} (hpick : (g.choose xs).1 = some h) :
    h ∈ xs := by
  unfold Rng.choose at hpick
  split at hpick
  · cases hpick
  · exact List.mem_of_getElem? hpick

theorem mem_of_mem_trim {found : List Handle} {maxSize : UInt32} {g : Rng} {h : Handle}
    (hmem : h ∈ (trim found maxSize g).1) : h ∈ found := by
  unfold trim at hmem
  split at hmem
  · exact hmem
  · obtain ⟨i, -, hi⟩ := List.mem_filterMap.mp hmem
    exact List.mem_of_getElem? hi

namespace Targets

@[simp] theorem mem_ofList {hs : List Handle} {h : Handle} : h ∈ (ofList hs).entities ↔ h ∈ hs :=
  List.mem_eraseDups

@[simp] theorem mem_ofOption {a : Option Handle} {h : Handle} :
    h ∈ (ofOption a).entities ↔ a = some h := by
  rw [ofOption, mem_ofList, Option.mem_toList]

theorem nodup_ofList (hs : List Handle) : (ofList hs).entities.Nodup := nodup_eraseDups hs

theorem entities_ofList_of_nodup {hs : List Handle} (h : hs.Nodup) : (ofList hs).entities = hs :=
  eraseDups_of_nodup h

@[simp] theorem entities_ofOption (a : Option Handle) : (ofOption a).entities = a.toList :=
  entities_ofList_of_nodup (by cases a <;> simp)

end Targets

namespace World

variable {w : World} {owner h : Handle}

theorem exists?_eq_info? (w : World) (h : Handle) : w.exists? h = (w.info? h).isSome := by
  simp [exists?, info?]

/-- What a filter asks of an entity on the threat list of `owner`. -/
def Eligible (w : World) (owner : Handle) (f : ThreatFilter) (h : Handle) : Prop :=
  ∃ e, w.info? h = some e ∧ e.alive = true ∧ (f.playersOnly = true → e.isPlayer = true) ∧
    (f.maxDist ≠ 0 → ∃ o, w.info? owner = some o ∧
      o.position.distance e.position ≤ f.maxDist.toFloat32)

theorem passesFilter_iff {f : ThreatFilter} :
    w.passesFilter owner f h = true ↔ w.Eligible owner f h := by
  unfold passesFilter Eligible
  cases w.info? h with
  | none => simp
  | some e => cases w.info? owner <;> simp [and_assoc, imp_iff_not_or]

theorem Eligible.there {f : ThreatFilter} (heligible : w.Eligible owner f h) : w.exists? h = true := by
  obtain ⟨e, he, -⟩ := heligible
  rw [exists?_eq_info?, he]
  rfl

theorem mem_of_topThreat {ts : List ThreatEntry} {t : ThreatEntry} (htop : topThreat ts = some t) :
    t ∈ ts := by
  unfold topThreat at htop
  rw [← List.foldr_reverse] at htop
  rw [← List.mem_reverse]
  generalize ts.reverse = rs at htop ⊢
  induction rs generalizing t with
  | nil => cases htop
  | cons r rs ih =>
    simp only [List.foldr_cons] at htop
    split at htop
    · cases htop
      exact List.mem_cons_self
    · rename_i b hb
      split at htop
      · cases htop
        exact List.mem_cons_self
      · cases htop
        exact List.mem_cons_of_mem r (ih hb)

theorem mem_filteredByThreat_of_victim? {f : ThreatFilter} (hvictim : w.victim? owner = some h)
    (hpasses : w.passesFilter owner f h = true) : h ∈ w.filteredByThreat owner f := by
  obtain ⟨t, ht, rfl⟩ := Option.map_eq_some_iff.mp hvictim
  have hmem := (perm_sortStable (fun a b => a.threat > b.threat) (w.threatList owner)).mem_iff.mpr
    (mem_of_topThreat ht)
  exact List.mem_filter.mpr ⟨List.mem_map_of_mem hmem, hpasses⟩

theorem eligible_of_mem_filteredByThreat {f : ThreatFilter} (hmem : h ∈ w.filteredByThreat owner f) :
    w.Eligible owner f h :=
  passesFilter_iff.mp (List.mem_filter.mp hmem).2

structure InThreatOrder (arrived ts : List ThreatEntry) : Prop where
  perm : ts.Perm arrived
  descending : WeakOrder (fun a b : ThreatEntry => a.threat > b.threat) arrived →
    ts.Pairwise fun a b => ¬b.threat > a.threat
  stable : ∀ p : ThreatEntry → Bool,
    (∀ a ∈ arrived, ∀ b ∈ arrived, p a = true → p b = true → ¬a.threat > b.threat) →
      ts.filter p = arrived.filter p

theorem exists_byThreat (w : World) (owner : Handle) :
    ∃ ts, InThreatOrder (w.threatList owner) ts ∧ w.byThreat owner = ts.map (·.handle) := by
  refine ⟨_, ⟨perm_sortStable _ _, fun horder => ?_, fun p hp => ?_⟩, rfl⟩
  · exact (pairwise_sortStable horder).imp fun hless => of_decide_eq_false hless
  · exact filter_sortStable fun a ha b hb hpa hpb => decide_eq_false (hp a ha b hb hpa hpb)

variable (hw : w.Keyed)
include hw

theorem exists?_of_mem_near {center : Position} {radius : Float32} {e : EntityInfo}
    (hmem : e ∈ w.near center radius) : w.exists? e.handle = true := by
  rw [exists?_eq_info?, ((mem_near_iff hw).mp hmem).1]
  rfl

theorem exists?_of_mem_around {min max : UInt32} {keep : EntityInfo → Bool}
    (hmem : h ∈ w.around owner min max keep) : w.exists? h = true := by
  unfold around at hmem
  split at hmem
  · cases hmem
  · obtain ⟨m, hm, rfl⟩ := List.mem_map.mp hmem
    rw [(perm_sortStable _ _).mem_iff, List.mem_filter, List.mem_map] at hm
    obtain ⟨⟨e, he, rfl⟩, -⟩ := hm
    exact exists?_of_mem_near hw (List.mem_filter.mp he).1

theorem exists?_of_mem_byGuid {guid entry : UInt32} {kind : EntityKind}
    (hmem : h ∈ (w.byGuid guid entry kind).entities) : w.exists? h = true := by
  simp only [byGuid, Targets.mem_ofOption, Option.map_eq_some_iff, Option.filter_eq_some_iff] at hmem
  obtain ⟨e, ⟨he, -⟩, rfl⟩ := hmem
  rw [hw.handle_eq he, exists?_eq_info?, he]
  rfl

/-- The party of an entity; without one, it is its own company. -/
def company (w : World) (h : Handle) : List Handle :=
  if (w.partyOf h).isEmpty then [h] else w.partyOf h

end World

def Target.threatFilter? : Target → Option ThreatFilter
  | .victim f | .hostileSecondAggro f | .hostileLastAggro f | .hostileRandom f
  | .hostileRandomNotTop f | .threatList f => some f
  | _ => .none

namespace TargetDescriptor

variable {d : TargetDescriptor} {o : Occasion} {w : World}
  {stored : Std.ExtTreeMap UInt32 (List Handle)} {g : Rng}

theorem resolve_of_position (hd : d.target = .position) :
    (d.resolve o w stored g).1 = .ofPosition (o.position.getD d.literal) := by
  unfold resolve
  rw [hd]

theorem exists_resolve_eq_ofList (hd : d.target ≠ .position) :
    ∃ hs, (d.resolve o w stored g).1 = .ofList hs := by
  unfold resolve
  split
  case h_27 htarget => exact absurd htarget hd
  case h_1 => exact ⟨[], rfl⟩
  case h_5 =>
    split
    · exact ⟨[], rfl⟩
    · exact ⟨_, rfl⟩
  all_goals exact ⟨_, rfl⟩

theorem nodup_resolve : (d.resolve o w stored g).1.entities.Nodup := by
  by_cases hd : d.target = .position
  · rw [resolve_of_position hd]
    exact .nil
  · obtain ⟨hs, heq⟩ : ∃ hs, (d.resolve o w stored g).1 = .ofList hs :=
      exists_resolve_eq_ofList hd
    rw [heq]
    exact Targets.nodup_ofList hs

theorem mem_filteredByThreat_of_mem_resolve {f : ThreatFilter}
    (hf : d.target.threatFilter? = some f) {h : Handle}
    (hmem : h ∈ (d.resolve o w stored g).1.entities) : h ∈ w.filteredByThreat o.owner f := by
  unfold resolve at hmem
  cases htarget : d.target with
  | victim =>
    simp only [htarget, Targets.mem_ofOption, Option.filter_eq_some_iff] at hf hmem
    cases hf
    exact World.mem_filteredByThreat_of_victim? hmem.1 hmem.2
  | hostileSecondAggro =>
    simp only [htarget, Targets.mem_ofOption] at hf hmem
    cases hf
    exact List.mem_of_getElem? hmem
  | hostileLastAggro =>
    simp only [htarget, Targets.mem_ofOption] at hf hmem
    cases hf
    exact List.mem_of_getLast? hmem
  | hostileRandom =>
    simp only [htarget, Targets.mem_ofOption] at hf hmem
    cases hf
    exact mem_of_choose hmem
  | hostileRandomNotTop =>
    simp only [htarget, Targets.mem_ofOption] at hf hmem
    cases hf
    exact List.mem_of_mem_tail (mem_of_choose hmem)
  | threatList =>
    simp only [htarget, Targets.mem_ofList] at hf hmem
    cases hf
    exact hmem
  | _ =>
    rw [htarget] at hf
    cases hf

theorem exists?_of_mem_resolve (hw : w.Keyed) (hd : d.target ≠ .owner) {h : Handle}
    (hmem : h ∈ (d.resolve o w stored g).1.entities) : w.exists? h = true := by
  cases hf : d.target.threatFilter? with
  | some f =>
    have hlisted := mem_filteredByThreat_of_mem_resolve hf hmem
    exact (World.eligible_of_mem_filteredByThreat hlisted).there
  | none =>
    unfold resolve at hmem
    cases htarget : d.target with
    | none | position =>
      rw [htarget] at hmem
      cases hmem
    | owner => exact absurd htarget hd
    | actionInvoker | actionInvokerVehicle | ownerOrSummoner =>
      simp only [htarget, Targets.mem_ofOption, Option.filter_eq_some_iff] at hmem
      exact hmem.2
    | invokerParty =>
      simp only [htarget] at hmem
      split at hmem
      · cases hmem
      · rw [Targets.mem_ofList] at hmem
        exact (List.mem_filter.mp hmem).2
    | creatureRange | creatureDistance | gameObjectRange | gameObjectDistance | playerRange =>
      simp only [htarget, Targets.mem_ofList] at hmem
      exact World.exists?_of_mem_around hw (mem_of_mem_trim hmem)
    | playerDistance =>
      simp only [htarget, Targets.mem_ofList] at hmem
      exact World.exists?_of_mem_around hw hmem
    | closestCreature | closestGameObject | closestPlayer | closestEnemy | closestFriendly =>
      simp only [htarget, Targets.mem_ofOption] at hmem
      exact World.exists?_of_mem_around hw (List.mem_of_mem_head? hmem)
    | farthest =>
      simp only [htarget, Targets.mem_ofOption] at hmem
      exact World.exists?_of_mem_around hw (List.mem_of_getLast? hmem)
    | creatureGuid | gameObjectGuid =>
      simp only [htarget] at hmem
      exact World.exists?_of_mem_byGuid hw hmem
    | stored =>
      simp only [htarget, Targets.mem_ofList] at hmem
      exact (List.mem_filter.mp hmem).2
    | _ =>
      rw [htarget] at hf
      cases hf

end TargetDescriptor

/-- What a target resolves to. Threat of floating-point numbers is only in order as far as the
numbers are. -/
structure Resolution (d : TargetDescriptor) (o : Occasion) (w : World)
    (stored : Std.ExtTreeMap UInt32 (List Handle)) (t : Targets) : Prop where
  distinct : t.entities.Nodup
  there : w.Keyed → d.target ≠ .owner → ∀ h ∈ t.entities, w.exists? h = true
  owner : d.target = .owner → t.entities = [o.owner]
  eligible : ∀ f, d.target.threatFilter? = some f → ∀ h ∈ t.entities, w.Eligible o.owner f h
  position : t.position = if d.target = .position then some (o.position.getD d.literal) else none
  place : t.position.isSome = true → t.entities = []
  party : d.target = .invokerParty → ∀ i, o.invoker = some i → w.exists? i = true →
    FirstOccurrences (w.exists? · = true) (w.company i) t.entities
  partyless : d.target = .invokerParty → (∀ i, o.invoker = some i → w.exists? i = false) →
    t.entities = []
  threat : ∀ f, d.target = .threatList f →
    FirstOccurrences (w.Eligible o.owner f) (w.byThreat o.owner) t.entities
  byThreat : ∃ ts, World.InThreatOrder (w.threatList o.owner) ts ∧
    w.byThreat o.owner = ts.map (·.handle)
  stored : ∀ v, d.target = .stored v →
    FirstOccurrences (w.exists? · = true) (stored.getD v []) t.entities

/-- A target resolves to distinct entities that are there, or to a position; and a world that is
built by edits files every entity under its own handle. -/
theorem resolution_resolve (d : TargetDescriptor) (o : Occasion) (w : World)
    (stored : Std.ExtTreeMap UInt32 (List Handle)) (g : Rng) :
    Resolution d o w stored (d.resolve o w stored g).1 ∧
      ∀ es, w = World.empty.edited es → w.Keyed := by
  refine ⟨⟨?distinct, ?there, ?owner, ?eligible, ?position, ?place, ?party, ?partyless, ?threat,
    w.exists_byThreat o.owner, ?stored⟩, ?keyed⟩
  case distinct => exact d.nodup_resolve
  case there => exact fun hw hd h hmem => d.exists?_of_mem_resolve hw hd hmem
  case owner =>
    intro hd
    unfold TargetDescriptor.resolve
    rw [hd]
    rfl
  case eligible =>
    intro f hf h hmem
    exact World.eligible_of_mem_filteredByThreat (d.mem_filteredByThreat_of_mem_resolve hf hmem)
  case position =>
    split
    · rename_i hd
      rw [d.resolve_of_position hd]
      rfl
    · rename_i hd
      obtain ⟨hs, heq⟩ := d.exists_resolve_eq_ofList hd
      rw [heq]
      rfl
  case place =>
    intro hplace
    by_cases hd : d.target = .position
    · rw [d.resolve_of_position hd]
      rfl
    · obtain ⟨hs, heq⟩ := d.exists_resolve_eq_ofList hd
      rw [heq] at hplace
      cases hplace
  case party =>
    intro hd i hi hexists
    unfold TargetDescriptor.resolve
    rw [hd, hi]
    simp only [Option.filter_some, hexists, if_true]
    exact firstOccurrences_filter _ _
  case partyless =>
    intro hd hgone
    have hnone : o.invoker.filter w.exists? = none := by
      rw [Option.filter_eq_none_iff]
      exact fun i hi => by simp [hgone i hi]
    unfold TargetDescriptor.resolve
    rw [hd]
    simp only [hnone]
  case threat =>
    intro f hd
    have heligible : w.Eligible o.owner f = (w.passesFilter o.owner f · = true) :=
      funext fun h => propext World.passesFilter_iff.symm
    unfold TargetDescriptor.resolve
    rw [hd, heligible]
    exact firstOccurrences_filter _ _
  case stored =>
    intro v hd
    unfold TargetDescriptor.resolve
    rw [hd]
    exact firstOccurrences_filter _ _
  case keyed =>
    rintro es rfl
    exact World.keyed_edited World.keyed_empty es

private def partyWithoutInvoker : World :=
  World.empty.edited [.spawn .creature 100 .origin, .spawn .player 0 .origin,
    .spawn .player 0 .origin, .addParty [2, 3], .remove 2]

/-- Once the invoker is gone, the target of its party resolves to nothing, whoever else is left. -/
theorem party_of_missing_invoker :
    ¬∀ (w : World) (o : Occasion) (i : Handle) (g : Rng), o.invoker = some i →
      FirstOccurrences (w.exists? · = true) (w.company i)
        (TargetDescriptor.resolve { target := .invokerParty } o w ∅ g).1.entities := by
  intro hall
  have hmem := (hall partyWithoutInvoker { owner := 1, invoker := some 2 } 2 (.ofSeed 1) rfl).mem 3
  have hleft : 3 ∈ partyWithoutInvoker.company 2 ∧ partyWithoutInvoker.exists? 3 = true := by
    decide +kernel
  have hnone : (TargetDescriptor.resolve { target := .invokerParty } { owner := 1, invoker := some 2 }
      partyWithoutInvoker ∅ (.ofSeed 1)).1.entities = [] := by
    decide +kernel
  rw [hnone] at hmem
  cases hmem.mpr hleft

end TriggerScript
