import TriggerScript.Proofs.Resolving
import TriggerScript.Proofs.Simulations

/-!
# Weak handles

A handle that a world gave out stands for one entity for good: it is never given out again, and what
keeps it without looking, a list or a slot, finds that entity later or none.
-/

namespace TriggerScript

namespace World

section

variable {es fs : List Edit} (hroom : empty.spawnsIn (es ++ fs) + 1 < UInt64.size)
include hroom

private theorem numbered_edited : Numbered (empty.spawnsIn es) empty (empty.edited es) ∧
    Numbered ((empty.edited es).spawnsIn fs) (empty.edited es) (empty.edited (es ++ fs)) := by
  rw [spawnsIn_append] at hroom
  have hstart : empty.nextHandle.toNat = 1 := rfl
  have hfirst := (follows_edited empty es).numbered (by omega)
  have hbound := hfirst.bound
  rw [edited_append]
  exact ⟨hfirst, (follows_edited (empty.edited es) fs).numbered (by omega)⟩

theorem issued_of_exists? {h : Handle} (hexists : (empty.edited es).exists? h = true) :
    h ≠ 0 ∧ h < (empty.edited es).nextHandle := by
  have hnumbered := (numbered_edited hroom).1
  constructor
  · rintro rfl
    have hempty : empty.identity? 0 = none := by simp [identity?, shown, find?, empty]
    rw [exists?_eq_identity?] at hexists
    rcases hnumbered.old 0 (by decide) with hsame | hnone
    · rw [hsame, hempty] at hexists
      cases hexists
    · rw [hnone] at hexists
      cases hexists
  · rcases hnumbered.new h hexists with hempty | hlt
    · simp [exists?, find?, empty] at hempty
    · exact hlt

theorem identity?_of_exists? {h : Handle} (hexists : (empty.edited es).exists? h = true) :
    (empty.edited (es ++ fs)).identity? h = (empty.edited es).identity? h ∨
      (empty.edited (es ++ fs)).identity? h = none :=
  (numbered_edited hroom).2.old h (issued_of_exists? hroom hexists).2

end

theorem exists?_of_gone {before after fs : List Edit} {h : Handle}
    (hroom : empty.spawnsIn (before ++ after ++ fs) + 1 < UInt64.size)
    (hexists : (empty.edited before).exists? h = true)
    (hgone : (empty.edited (before ++ after)).exists? h = false) :
    (empty.edited (before ++ after ++ fs)).exists? h = false := by
  have hearly : empty.spawnsIn (before ++ after) + 1 < UInt64.size := by
    rw [spawnsIn_append] at hroom
    omega
  have hissued := (issued_of_exists? hearly hexists).2
  have hle := (numbered_edited hearly).2.le
  have hstill : h < (empty.edited (before ++ after)).nextHandle := by
    rw [UInt64.lt_iff_toNat_lt] at hissued ⊢
    omega
  rw [exists?_eq_identity?, Option.isSome_eq_false_iff, Option.isNone_iff_eq_none] at hgone ⊢
  rcases (numbered_edited hroom).2.old h hstill with hsame | hnone
  · rw [hsame, hgone]
  · exact hnone

theorem mem_threatList_of_mem_filteredByThreat {w : World} {owner h : Handle} {f : ThreatFilter}
    (hmem : h ∈ w.filteredByThreat owner f) : h ∈ (w.threatList owner).map (·.handle) := by
  obtain ⟨t, ht, rfl⟩ := List.mem_map.mp (List.mem_filter.mp hmem).1
  exact List.mem_map_of_mem ((perm_sortStable _ _).mem_iff.mp ht)

end World

/-- The handles that a target takes from where they are kept: an occasion, a vehicle, a party, an
owner, a threat list or a stored list. The other targets look around. -/
def TargetDescriptor.kept? (d : TargetDescriptor) (o : Occasion) (w : World)
    (stored : Std.ExtTreeMap UInt32 (List Handle)) : Option (List Handle) :=
  match d.target with
  | .actionInvoker => some o.invoker.toList
  | .actionInvokerVehicle => some (o.invoker.bind w.vehicleOf?).toList
  | .invokerParty => some (o.invoker.elim [] w.company)
  | .ownerOrSummoner => some (w.ownerOf? o.owner).toList
  | .victim _ | .hostileSecondAggro _ | .hostileLastAggro _ | .hostileRandom _
  | .hostileRandomNotTop _ | .threatList _ => some ((w.threatList o.owner).map (·.handle))
  | .stored varId => some (stored.getD varId [])
  | _ => none

theorem TargetDescriptor.mem_kept_of_mem_resolve {d : TargetDescriptor} {o : Occasion} {w : World}
    {stored : Std.ExtTreeMap UInt32 (List Handle)} {g : Rng} {hs : List Handle} {h : Handle}
    (hkept : d.kept? o w stored = some hs) (hmem : h ∈ (d.resolve o w stored g).1.entities) :
    h ∈ hs := by
  cases hf : d.target.threatFilter? with
  | some f =>
    have hthreat : d.kept? o w stored = some ((w.threatList o.owner).map (·.handle)) := by
      unfold kept?
      cases htarget : d.target with
      | victim | hostileSecondAggro | hostileLastAggro | hostileRandom | hostileRandomNotTop
        | threatList => rfl
      | _ =>
        rw [htarget] at hf
        cases hf
    rw [← Option.some.inj (hthreat.symm.trans hkept)]
    exact World.mem_threatList_of_mem_filteredByThreat
      (d.mem_filteredByThreat_of_mem_resolve hf hmem)
  | none =>
    unfold resolve at hmem
    unfold kept? at hkept
    cases htarget : d.target with
    | actionInvoker | actionInvokerVehicle | ownerOrSummoner =>
      simp only [htarget, Targets.mem_ofOption, Option.filter_eq_some_iff, Option.some.injEq]
        at hkept hmem
      rw [← hkept, Option.mem_toList]
      exact hmem.1
    | invokerParty =>
      simp only [htarget, Option.some.injEq] at hkept hmem
      split at hmem
      · cases hmem
      · rename_i i hi
        rw [← hkept, (Option.filter_eq_some_iff.mp hi).1]
        exact (List.mem_filter.mp (Targets.mem_ofList.mp hmem)).1
    | stored =>
      simp only [htarget, Targets.mem_ofList, Option.some.injEq] at hkept hmem
      rw [← hkept]
      exact (List.mem_filter.mp hmem).1
    | victim | hostileSecondAggro | hostileLastAggro | hostileRandom | hostileRandomNotTop
      | threatList =>
      rw [htarget] at hf
      cases hf
    | _ =>
      rw [htarget] at hkept
      cases hkept

/-- What handles stand for in a world after some edits, and in a later one. -/
structure HandlesLast (es : List Edit) (early late : World) : Prop where
  issued : ∀ h i, early.identity? h = some i → i.handle = h ∧ h ≠ 0 ∧ h < early.nextHandle
  same : ∀ h i j, early.identity? h = some i → late.identity? h = some j → j = i
  gone : ∀ before after h, es = before ++ after → (World.empty.edited before).exists? h = true →
    early.exists? h = false → late.exists? h = false
  kept : ∀ (d : TargetDescriptor) o stored hs g, d.kept? o late stored = some hs →
    ∀ h ∈ (d.resolve o late stored g).1.entities, h ∈ hs
  resolved : ∀ (d : TargetDescriptor) o stored g h i, d.target ≠ .owner →
    early.identity? h = some i → h ∈ (d.resolve o late stored g).1.entities →
    late.identity? h = some i
  scripts : ∀ s : Script, s.Reachable → ∀ op, ∃ cs : List Command,
    (s.operate early op).world = early.edited (cs.map .perform)

/-- As long as there are handles left, a handle stands for one entity and for no other one later,
also where it is kept; and scripts do to a world no more than edits do. -/
theorem handlesLast_edited (es fs : List Edit)
    (hroom : World.empty.spawnsIn (es ++ fs) + 1 < UInt64.size) :
    HandlesLast es (World.empty.edited es) (World.empty.edited (es ++ fs)) := by
  have hsame : ∀ h i j, (World.empty.edited es).identity? h = some i →
      (World.empty.edited (es ++ fs)).identity? h = some j → j = i := by
    intro h i j hi hj
    have hexists : (World.empty.edited es).exists? h = true := by
      rw [World.exists?_eq_identity?, hi]
      rfl
    rcases World.identity?_of_exists? hroom hexists with hsame | hnone
    · rw [hj, hi] at hsame
      exact Option.some.inj hsame
    · rw [hnone] at hj
      cases hj
  refine ⟨fun h i hi => ⟨?_, ?_⟩, hsame, ?_, fun d o stored hs g hkept h hmem => ?_, ?_, ?_⟩
  · exact World.keyed_edited World.keyed_empty es h i hi
  · apply World.issued_of_exists? hroom
    rw [World.exists?_eq_identity?, hi]
    rfl
  · rintro before after h rfl hexists hgone
    exact World.exists?_of_gone hroom hexists hgone
  · exact d.mem_kept_of_mem_resolve hkept hmem
  · intro d o stored g h i hd hi hmem
    have hthere := d.exists?_of_mem_resolve (World.keyed_edited World.keyed_empty _) hd hmem
    rw [World.exists?_eq_identity?, Option.isSome_iff_exists] at hthere
    obtain ⟨j, hj⟩ := hthere
    rw [hj, hsame h i j hi hj]
  · intro s hs op
    obtain ⟨cs, hcs⟩ := Script.becomes_operate hs (World.empty.edited es) op
    exact ⟨cs, by rw [hcs, World.edited_perform]⟩

private def summoning : List Edit :=
  [.spawn .creature 100 .origin, .perform (.summonCreature 1 200 .origin 0 0 none),
    .set 1 (.owner (some 2)), .perform (.despawn 2 0)]

/-- A summoned creature is gone for good, though another one is summoned after it. -/
theorem handlesLast_summoning :
    HandlesLast summoning (World.empty.edited summoning)
        (World.empty.edited (summoning ++ [.perform (.summonCreature 1 200 .origin 0 0 none)])) ∧
      (World.empty.edited (summoning.take 2)).exists? 2 = true ∧
      (World.empty.edited summoning).exists? 2 = false :=
  ⟨handlesLast_edited _ _ (by decide +kernel), by decide +kernel, by decide +kernel⟩

end TriggerScript
