import TriggerScript.Proofs.Casts
import TriggerScript.Sensing

/-!
# Auras

An aura that an entity does not have counts 0 stacks, and one that it has counts more. A stack that
is added makes the count larger, unless it is the greatest that fits into a word: there is no count
for a stack too many, and the program stops.
-/

namespace TriggerScript

theorem toNat_addSat_one {count : UInt32} (hroom : count ≠ fullCount) :
    (addSat count 1).toNat = count.toNat + 1 := by
  have hbound := count.toNat_lt
  have hne : count.toNat ≠ 4294967295 := fun heq => hroom (UInt32.toNat_inj.mp heq)
  rw [toNat_addSat, UInt32.toNat_one]
  simp only [UInt32.size]
  omega

theorem addSat_one_ne_zero (count : UInt32) : addSat count 1 ≠ 0 := by
  rw [Ne, ← UInt32.toNat_inj, toNat_addSat, UInt32.toNat_one, UInt32.toNat_zero]
  simp only [UInt32.size]
  omega

theorem lt_addSat_one_iff {count : UInt32} : count < addSat count 1 ↔ count ≠ fullCount := by
  rw [UInt32.lt_iff_toNat_lt]
  constructor
  · rintro hlt rfl
    exact absurd hlt (by decide)
  · intro hroom
    rw [toNat_addSat_one hroom]
    exact Nat.lt_succ_self _

namespace Entity

def Counted (e : Entity) : Prop := ∀ spell : UInt32, e.auras[spell]? ≠ some 0

variable {e : Entity}

theorem counted_of_bare (hbare : e.auras = ∅) : e.Counted := fun spell => by
  simp [hbare]

theorem Counted.of_auras {e' : Entity} (h : e.Counted) (hsame : e'.auras = e.auras) :
    e'.Counted := fun spell => by
  rw [hsame]
  exact h spell

theorem Counted.insert (h : e.Counted) (spell : UInt32) {count : UInt32} (hcount : count ≠ 0) :
    Counted { e with auras := e.auras.insert spell count } := fun s => by
  rw [Std.ExtTreeMap.getElem?_insert]
  split
  · simpa using hcount
  · exact h s

theorem Counted.erase (h : e.Counted) (spell : UInt32) :
    Counted { e with auras := e.auras.erase spell } := fun s => by
  rw [Std.ExtTreeMap.getElem?_erase]
  split
  · exact nofun
  · exact h s

theorem Counted.stacked (h : e.Counted) (spell : UInt32) : (e.stacked spell).Counted :=
  h.insert spell (addSat_one_ne_zero _)

theorem Counted.set (h : e.Counted) (setting : Setting) : (setting.apply e).Counted := by
  cases setting with
  | aura spell count =>
    change (e.withAura spell count).Counted
    unfold withAura
    split
    · exact h.erase spell
    · rename_i hcount
      exact h.insert spell hcount
  | _ => exact h.of_auras rfl

end Entity

namespace World

def Counted (w : World) : Prop := ∀ h e, w.find? h = some e → e.Counted

variable {u w v : World} {h : Handle} {spell : UInt32}

theorem counted_empty : empty.Counted := fun h e he => by simp [find?, empty] at he

theorem Counted.modify (hw : w.Counted) (k : Handle) {change : Entity → Entity}
    (hchange : ∀ e : Entity, e.Counted → (change e).Counted) : (w.modify k change).Counted := by
  intro h e he
  rw [find?_modify] at he
  split at he
  · obtain ⟨before, hbefore, rfl⟩ := Option.map_eq_some_iff.mp he
    exact hchange before (hw h before hbefore)
  · exact hw h e he

theorem Counted.remove (hw : w.Counted) (gone : Handle) : (w.remove gone).Counted := by
  intro h e he
  rw [find?_remove] at he
  split at he
  · cases he
  · exact hw h e he

theorem Counted.spawn (hw : w.Counted) (kind : EntityKind) (entry : UInt32) (position : Position) :
    (w.spawn kind entry position).2.Counted := by
  intro h e he
  rw [find?_spawn] at he
  split at he
  · cases he
    exact Entity.counted_of_bare rfl
  · exact hw h e he

theorem Counted.changing (hu : u.Counted) {k : Handle} {change : Entity → Entity}
    (hv : u.changing k change = .ok v)
    (hchange : ∀ e : Entity, e.Counted → (change e).Counted) : v.Counted := by
  rw [← (changing_eq_ok hv).2]
  exact hu.modify k hchange

theorem Counted.apply (hw : w.Counted) {c : Command} (hv : w.apply c = .ok v) : v.Counted := by
  cases c with
  | addAura target spell =>
    have hstacking : (w.stacking target spell).Counted := hw
    exact hstacking.changing hv fun e he => he.stacked spell
  | removeAura target spell =>
    cases spell with
    | none => exact hw.changing hv fun e _ => Entity.counted_of_bare rfl
    | some spell => exact hw.changing hv fun e he => he.erase spell
  | kill | teleport | setFaction | interruptCast =>
    exact hw.changing hv fun e he => he.of_auras rfl
  | despawn target delayMs =>
    cases require_bind hv
    exact hw.remove target
  | summonCreature summoner entry position summonType durationMs attack =>
    cases require_bind hv
    exact (hw.spawn .creature entry position).modify _ fun e he => he.of_auras rfl
  | castSpell =>
    cases require_bind (require_bind hv)
    exact hw
  | _ =>
    cases hv
    exact hw

theorem Counted.edit (hw : w.Counted) (e : Edit) : (w.edit e).Counted := by
  cases e with
  | spawn kind entry position => exact hw.spawn kind entry position
  | remove gone => exact hw.remove gone
  | set k setting => exact hw.modify k fun e he => he.set setting
  | perform c =>
    rcases w.perform_cases c with hfailed | ⟨v, hv, hdone⟩
    · change (w.perform c).2.Counted
      rw [hfailed]
      exact hw
    · have hv : v.Counted := hw.apply hv
      change (w.perform c).2.Counted
      rw [hdone]
      exact hv
  | _ => exact hw

theorem Counted.edited (hw : w.Counted) (es : List Edit) : (w.edited es).Counted := by
  induction es generalizing w with
  | nil => exact hw
  | cons e es ih => exact ih (hw.edit e)

/-- The entry of a spell among the auras of an entity. -/
def auraCount? (w : World) (h : Handle) (spell : UInt32) : Option UInt32 :=
  (w.find? h).bind (·.auras[spell]?)

theorem auraStacks_eq (w : World) (h : Handle) (spell : UInt32) :
    w.auraStacks h spell = (w.auraCount? h spell).getD 0 := by
  unfold auraStacks auraCount? Entity.auraStacks
  cases w.find? h with
  | none => rfl
  | some e => exact Std.ExtTreeMap.getD_eq_getD_getElem?

theorem Counted.auraCount?_ne (hw : w.Counted) (h : Handle) (spell : UInt32) :
    w.auraCount? h spell ≠ some 0 := by
  unfold auraCount?
  cases he : w.find? h with
  | none => exact nofun
  | some e => exact hw h e he spell

theorem Counted.auraStacks_eq_zero_iff (hw : w.Counted) (h : Handle) (spell : UInt32) :
    w.auraStacks h spell = 0 ↔ w.auraCount? h spell = none := by
  rw [auraStacks_eq]
  cases hentry : w.auraCount? h spell with
  | none => simp
  | some count =>
    have hcount : count ≠ 0 := fun hzero => hw.auraCount?_ne h spell (by rw [hentry, hzero])
    simpa using hcount

/-- A stack is added to the aura of the entity and to no other count. -/
theorem auraStacks_addAura (hok : (w.perform (.addAura h spell)).1 = .ok ()) (k : Handle)
    (s : UInt32) :
    (w.perform (.addAura h spell)).2.auraStacks k s =
      if k = h ∧ s = spell then addSat (w.auraStacks h spell) 1 else w.auraStacks k s := by
  obtain ⟨v, hv, heq⟩ := perform_of_ok hok
  obtain ⟨hthere, rfl⟩ := changing_eq_ok hv
  obtain ⟨e, he⟩ := Option.isSome_iff_exists.mp hthere
  change w.find? h = some e at he
  have hfind : (w.perform (.addAura h spell)).2.find? k =
      if k = h then (w.find? k).map (.stacked spell) else w.find? k := by
    rw [heq]
    exact find?_modify (w.stacking h spell) h (.stacked spell) k
  unfold auraStacks
  rw [hfind]
  by_cases hk : k = h
  · subst hk
    have hcounts : (e.stacked spell).auraStacks s =
        if s = spell then addSat (e.auraStacks spell) 1 else e.auraStacks s := by
      unfold Entity.auraStacks Entity.stacked
      rw [Std.ExtTreeMap.getD_insert]
      by_cases hs : s = spell
      · simp [hs, Entity.auraStacks]
      · simp [hs, Ne.symm hs]
    simpa [he] using hcounts
  · simp [hk]

theorem holds?_absent (hthere : v.exists? h = true) :
    v.holds? h (.hasAura spell 0) = none ↔ v.auraStacks h spell ≠ 0 := by
  obtain ⟨e, he⟩ := Option.isSome_iff_exists.mp hthere
  have hinfo : v.info? h = some e.info := by rw [info?, he]; rfl
  rw [holds?, hinfo, Option.bind_some]
  change Hit.bare (v.auraStacks h spell == 0) = none ↔ _
  simp [Hit.bare]

/-- What a stack that is added to the aura of an entity changes. -/
structure StackLaw (w v : World) (h : Handle) (spell : UInt32) : Prop where
  counted : w.auraStacks h spell ≠ fullCount →
    (v.auraStacks h spell).toNat = (w.auraStacks h spell).toNat + 1
  larger_iff : w.auraStacks h spell < v.auraStacks h spell ↔ w.auraStacks h spell ≠ fullCount
  /-- The program has stopped where there is no room for the stack. -/
  stopped_iff : v.overflowed = true ↔ w.overflowed = true ∨ w.auraStacks h spell = fullCount
  others : ∀ k s, ¬(k = h ∧ s = spell) → v.auraStacks k s = w.auraStacks k s
  noticed : v.holds? h (.hasAura spell 0) = none
  skipped : ∀ (d : Dispatch) (flags : CastFlags) (caster : Handle), d.world = v →
    flags.contains .auraNotPresent = true → d.cast spell flags caster h = d

theorem stackLaw_addAura (hok : (w.perform (.addAura h spell)).1 = .ok ()) :
    StackLaw w (w.perform (.addAura h spell)).2 h spell := by
  have hcount := auraStacks_addAura hok h spell
  rw [if_pos ⟨rfl, rfl⟩] at hcount
  have hpresent : (w.perform (.addAura h spell)).2.auraStacks h spell ≠ 0 := by
    rw [hcount]
    exact addSat_one_ne_zero _
  have hthere : (w.perform (.addAura h spell)).2.exists? h = true := by
    obtain ⟨v, hv, heq⟩ := perform_of_ok hok
    have hkept := exists?_apply_of_subject (c := .addAura h spell) hv rfl (by simp)
    rw [heq]
    exact hkept.trans (changing_eq_ok hv).1
  refine ⟨fun hroom => by rw [hcount, toNat_addSat_one hroom], by rw [hcount, lt_addSat_one_iff],
    ?stopped, fun k s hother => by rw [auraStacks_addAura hok, if_neg hother],
    (holds?_absent hthere).mpr hpresent, fun d flags caster hd hflags => ?skipped⟩
  case stopped =>
    rw [overflowed_perform_iff]
    refine or_congr_right ⟨?_, fun hfull => ⟨h, spell, rfl, hok, hfull⟩⟩
    rintro ⟨k, s, hc, -, hfull⟩
    cases hc
    exact hfull
  case skipped =>
    rw [← hd] at hpresent
    exact Dispatch.cast_of_spares (by simp [World.spares, hflags, UInt32.pos_iff_ne_zero, hpresent])

theorem overflowed_edit_iff (w : World) (e : Edit) :
    (w.edit e).overflowed = true ↔ w.overflowed = true ∨ ∃ c, e = .perform c ∧ c.Overflows w := by
  cases e with
  | perform c =>
    refine (overflowed_perform_iff w c).trans (or_congr_right ⟨fun h => ⟨c, rfl, h⟩, ?_⟩)
    rintro ⟨_, heq, h⟩
    cases heq
    exact h
  | _ => exact (or_iff_left nofun).symm

/-- The program has stopped if there was a stack too many among the edits. -/
theorem overflowed_edited_iff (w : World) (es : List Edit) :
    (w.edited es).overflowed = true ↔ w.overflowed = true ∨ ∃ before c after,
      es = before ++ .perform c :: after ∧ c.Overflows (w.edited before) := by
  induction es generalizing w with
  | nil => simp
  | cons e es ih =>
    rw [edited_cons, ih, overflowed_edit_iff, or_assoc]
    refine or_congr_right ⟨?_, ?_⟩
    · rintro (⟨c, rfl, hc⟩ | ⟨before, c, after, rfl, hc⟩)
      · exact ⟨[], c, es, rfl, hc⟩
      · exact ⟨e :: before, c, after, rfl, hc⟩
    · rintro ⟨before, c, after, hes, hc⟩
      cases before with
      | nil =>
        cases hes
        exact .inl ⟨c, rfl, hc⟩
      | cons d before =>
        cases hes
        exact .inr ⟨before, c, after, rfl, hc⟩

end World

/-- How the auras of all entities are counted after some edits of a new world. -/
structure AuraLaw (es : List Edit) (w : World) : Prop where
  filled : ∀ h spell, w.auraCount? h spell ≠ some 0
  absent_iff : ∀ h spell, w.auraStacks h spell = 0 ↔ w.auraCount? h spell = none
  stacked : ∀ h spell, (w.perform (.addAura h spell)).1 = .ok () →
    World.StackLaw w (w.perform (.addAura h spell)).2 h spell
  stopped_iff : w.overflowed = true ↔ ∃ before c after, es = before ++ .perform c :: after ∧
    c.Overflows (World.empty.edited before)

/-- An aura that is there has a stack. A stack that is added to a count that is not full makes it
larger, no other one changes, and nothing takes the aura for absent then; with a full count the
program stops, and nothing else stops it. -/
theorem auraLaw_edited (es : List Edit) : AuraLaw es (World.empty.edited es) := by
  have hcounted : (World.empty.edited es).Counted := World.counted_empty.edited es
  exact
    { filled := hcounted.auraCount?_ne
      absent_iff := hcounted.auraStacks_eq_zero_iff
      stacked := fun _ _ hok => World.stackLaw_addAura hok
      stopped_iff := (World.overflowed_edited_iff World.empty es).trans (or_iff_right nofun) }

private def brimful : List Edit :=
  [.spawn .creature 100 .origin, .set 1 (.aura 5 fullCount)]

/-- A stack that is added to a full count stops the program and does not make the count larger. -/
theorem full_aura_stops_program :
    (¬∀ es h spell, ((World.empty.edited es).perform (.addAura h spell)).1 = .ok () →
        (World.empty.edited es).auraStacks h spell <
          ((World.empty.edited es).perform (.addAura h spell)).2.auraStacks h spell) ∧
      (World.empty.edited brimful).exists? 1 = true ∧
      (World.empty.edited brimful).auraStacks 1 5 = fullCount ∧
      (World.empty.edited brimful).overflowed = false ∧
      ((World.empty.edited brimful).perform (.addAura 1 5)).2.overflowed = true := by
  refine ⟨fun hclaim => ?_, by decide +kernel, by decide +kernel, by decide +kernel,
    by decide +kernel⟩
  have hlarger := hclaim brimful 1 5 (by decide +kernel)
  revert hlarger
  decide +kernel

end TriggerScript
