import TriggerScript.Proofs.Atomicity
import TriggerScript.Proofs.StoredTargets

/-!
# Casts

A step that casts lets each of its casters cast at each of its targets, but for those that have the
aura where it must not be present. A caster that casts at all interrupts first what it was casting,
if it has to.
-/

namespace TriggerScript

def Action.spell? : Action → Option (UInt32 × CastFlags)
  | .cast spell flags | .selfCast spell flags | .crossCast spell flags _ => some (spell, flags)
  | _ => .none

/-- Who casts in an action that casts, each with what it casts at: the owner, each target for itself,
or casters that are resolved once the targets are. -/
def Action.casters (o : Occasion) (t : Targets) (d : Dispatch) :
    Action → List (Handle × List Handle)
  | .cast .. => [(o.owner, t.entities)]
  | .selfCast .. => t.entities.map fun h => (h, [h])
  | .crossCast _ _ casters => (d.resolve o casters).1.entities.map fun h => (h, t.entities)
  | _ => []

def Command.isCast : Command → Bool
  | .castSpell .. => true
  | _ => false

def castOf (spell : UInt32) (flags : CastFlags) (caster target : Handle) : Command :=
  .castSpell caster target spell (flags.contains .triggered) (flags.contains .combatMove)

namespace World

variable {w v : World} {spell : UInt32} {flags : CastFlags} {caster target : Handle}
  {casters targets : List Handle}

/-- Whether a target is left out since it has the aura. -/
def spares (w : World) (spell : UInt32) (flags : CastFlags) (target : Handle) : Bool :=
  flags.contains .auraNotPresent && w.auraStacks target spell > 0

def interrupts (w : World) (flags : CastFlags) (caster : Handle) : Bool :=
  flags.contains .interruptPrevious && (w.casting? caster).isSome

def interruption (w : World) (flags : CastFlags) (caster : Handle) : List Command :=
  if w.interrupts flags caster then [.interruptCast caster none false] else []

def castsAt (w : World) (spell : UInt32) (flags : CastFlags) (caster : Handle)
    (targets : List Handle) : List Command :=
  (targets.filter fun h => !w.spares spell flags h).map (castOf spell flags caster)

/-- What one caster does: it interrupts itself before its first cast. -/
def volley (w : World) (spell : UInt32) (flags : CastFlags) (caster : Handle)
    (targets : List Handle) : List Command :=
  if (w.castsAt spell flags caster targets).isEmpty then []
  else w.interruption flags caster ++ w.castsAt spell flags caster targets

theorem castsAt_cons (w : World) (spell : UInt32) (flags : CastFlags) (caster target : Handle)
    (targets : List Handle) :
    w.castsAt spell flags caster (target :: targets) =
      if w.spares spell flags target then w.castsAt spell flags caster targets
      else castOf spell flags caster target :: w.castsAt spell flags caster targets := by
  cases hspared : w.spares spell flags target <;> simp [castsAt, hspared]

theorem volley_of_not_interrupts (hquiet : w.interrupts flags caster = false) :
    w.volley spell flags caster targets = w.castsAt spell flags caster targets := by
  rw [volley, interruption, hquiet]
  cases w.castsAt spell flags caster targets <;> rfl

/-- What `w` is to a caster, `v` is too, unless it is one of these. -/
structure CastsAlike (casters : List Handle) (w v : World) : Prop where
  refused : v.refused = w.refused
  auras : ∀ h spell, v.auraStacks h spell = w.auraStacks h spell
  casting : ∀ h, h ∉ casters → v.casting? h = w.casting? h

theorem CastsAlike.trans {u : World} (h : CastsAlike casters u w) (h' : CastsAlike casters w v) :
    CastsAlike casters u v where
  refused := h'.refused.trans h.refused
  auras k spell := (h'.auras k spell).trans (h.auras k spell)
  casting k hk := (h'.casting k hk).trans (h.casting k hk)

theorem CastsAlike.castsAt (h : CastsAlike casters w v) :
    v.castsAt spell flags caster targets = w.castsAt spell flags caster targets := by
  simp only [World.castsAt, spares, h.auras]

theorem CastsAlike.volley (h : CastsAlike casters w v) (hcaster : caster ∉ casters) :
    v.volley spell flags caster targets = w.volley spell flags caster targets := by
  rw [World.volley, World.volley, interruption, interruption, interrupts, interrupts, h.castsAt,
    h.casting caster hcaster]

theorem perform_castOf (w : World) (spell : UInt32) (flags : CastFlags) (caster target : Handle) :
    (w.perform (castOf spell flags caster target)).2 =
      w.record (castOf spell flags caster target) := by
  by_cases hok : (w.perform (castOf spell flags caster target)).1 = .ok ()
  · obtain ⟨v, hv, heq⟩ := perform_of_ok hok
    cases require_bind (require_bind hv)
    exact heq
  · exact perform_of_failed hok

theorem castsAlike_castOf (w : World) (spell : UInt32) (flags : CastFlags)
    (casters : List Handle) (caster target : Handle) :
    CastsAlike casters w (w.perform (castOf spell flags caster target)).2 := by
  rw [perform_castOf]
  exact ⟨rfl, fun _ _ => rfl, fun _ _ => rfl⟩

theorem interrupted (hfree : w.refused = []) (hthere : w.exists? caster = true) :
    (w.perform (.interruptCast caster none false)).2.casting? caster = none ∧
      CastsAlike [caster] w (w.perform (.interruptCast caster none false)).2 := by
  have hperform : (w.perform (.interruptCast caster none false)).2 =
      (w.modify caster fun e => { e with casting := none }).record
        (.interruptCast caster none false) := by
    simp [perform, hfree, apply, changing, hthere]
  have hfind : ∀ h, (w.perform (.interruptCast caster none false)).2.find? h =
      if h = caster then (w.find? h).map (fun e => { e with casting := none }) else w.find? h :=
    fun h => by rw [hperform, find?_record, find?_modify]
  refine ⟨?_, ?refused, fun h spell => ?_, fun h hh => ?_⟩
  · rw [casting?, hfind, if_pos rfl]
    cases w.find? caster <;> rfl
  case refused =>
    rw [hperform]
    rfl
  · rw [auraStacks, auraStacks, hfind]
    split
    · cases w.find? h <;> rfl
    · rfl
  · rw [casting?, casting?, hfind, if_neg (by simpa using hh)]

theorem castsAlike_interruption (hfree : w.refused = []) (flags : CastFlags) (caster : Handle) :
    (w.after (w.interruption flags caster)).interrupts flags caster = false ∧
      CastsAlike [caster] w (w.after (w.interruption flags caster)) := by
  unfold interruption
  split
  · rename_i hinterrupts
    have hcasting := (Bool.and_eq_true_iff.mp hinterrupts).2
    have hthere : w.exists? caster = true := by
      unfold casting? at hcasting
      unfold exists?
      cases hfind : w.find? caster <;> simp_all
    obtain ⟨hquiet, halike⟩ := interrupted hfree hthere
    refine ⟨?_, halike⟩
    rw [after_cons, after_nil, interrupts, hquiet, Option.isSome_none, Bool.and_false]
  · rename_i hquiet
    exact ⟨by simpa using hquiet, rfl, fun _ _ => rfl, fun _ _ => rfl⟩

def firstCast (w : World) (spell : UInt32) (flags : CastFlags) (caster target : Handle) :
    List Command := w.interruption flags caster ++ [castOf spell flags caster target]

theorem castsAlike_firstCast (hfree : w.refused = []) (spell : UInt32) (flags : CastFlags)
    (caster target : Handle) :
    (w.after (w.firstCast spell flags caster target)).interrupts flags caster = false ∧
      CastsAlike [caster] w (w.after (w.firstCast spell flags caster target)) := by
  obtain ⟨hquiet, halike⟩ := castsAlike_interruption hfree flags caster
  have hcast := fun casters => castsAlike_castOf (w.after (w.interruption flags caster)) spell flags
    casters caster target
  rw [firstCast, after_append]
  refine ⟨?_, halike.trans (hcast [caster])⟩
  rw [interrupts, after_cons, after_nil, (hcast []).casting caster List.not_mem_nil]
  exact hquiet

end World

namespace World

/-- What all casters do, one after the other. -/
def barrage (w : World) (spell : UInt32) (flags : CastFlags)
    (rows : List (Handle × List Handle)) : List Command :=
  rows.flatMap fun row => w.volley spell flags row.1 row.2

/-- A caster looks at nothing that the others change. -/
theorem CastsAlike.barrage {casters : List Handle} {w v : World} (h : CastsAlike casters w v)
    {spell : UInt32} {flags : CastFlags} {rows : List (Handle × List Handle)}
    (hrows : ∀ row ∈ rows, row.1 ∉ casters) :
    v.barrage spell flags rows = w.barrage spell flags rows :=
  List.flatMap_congr fun row hrow => h.volley (hrows row hrow)

end World

namespace Dispatch

variable {spell : UInt32} {flags : CastFlags} {caster target : Handle}

theorem cast_of_spares {d : Dispatch} (hspared : d.world.spares spell flags target = true) :
    d.cast spell flags caster target = d := if_pos hspared

theorem cast_eq_performAll {d : Dispatch} (hspared : d.world.spares spell flags target = false) :
    d.cast spell flags caster target =
      d.performAll (d.world.firstCast spell flags caster target) := by
  have hcast : d.cast spell flags caster target =
      (if d.world.interrupts flags caster then d.perform (.interruptCast caster none false)
        else d).perform (castOf spell flags caster target) :=
    if_neg (by simpa [World.spares] using hspared)
  rw [hcast, World.firstCast, World.interruption]
  split <;> rfl

theorem foldl_cast {d : Dispatch} (hfree : d.world.refused = []) (spell : UInt32)
    (flags : CastFlags) (caster : Handle) (targets : List Handle) :
    targets.foldl (fun d h => d.cast spell flags caster h) d =
        d.performAll (d.world.volley spell flags caster targets) ∧
      World.CastsAlike [caster] d.world
        (d.world.after (d.world.volley spell flags caster targets)) := by
  induction targets generalizing d with
  | nil => exact ⟨rfl, rfl, fun _ _ => rfl, fun _ _ => rfl⟩
  | cons target targets ih =>
    have hcons := d.world.castsAt_cons spell flags caster target targets
    rw [List.foldl_cons]
    cases hspared : d.world.spares spell flags target with
    | true =>
      rw [hspared, if_pos rfl] at hcons
      have hvolley : d.world.volley spell flags caster (target :: targets) =
          d.world.volley spell flags caster targets := by rw [World.volley, World.volley, hcons]
      rw [cast_of_spares hspared, hvolley]
      exact ih hfree
    | false =>
      rw [hspared] at hcons
      obtain ⟨hquiet, halike⟩ := World.castsAlike_firstCast hfree spell flags caster target
      -- From here on the caster casts without a look at what it was casting.
      have hrest := ih (d := d.performAll (d.world.firstCast spell flags caster target))
        (by rw [world_performAll, halike.refused, hfree])
      rw [world_performAll, World.volley_of_not_interrupts hquiet, halike.castsAt] at hrest
      have hvolley : d.world.volley spell flags caster (target :: targets) =
          d.world.firstCast spell flags caster target ++
            d.world.castsAt spell flags caster targets := by
        rw [World.volley, hcons]
        simp [World.firstCast]
      rw [cast_eq_performAll hspared, hvolley, performAll_append, World.after_append]
      exact ⟨hrest.1, halike.trans hrest.2⟩

/-- Casters take turns, and each of them does what it would do alone. -/
theorem foldl_casters {d : Dispatch} (hfree : d.world.refused = [])
    {rows : List (Handle × List Handle)} (hrows : (rows.map (·.1)).Nodup) :
    rows.foldl (fun d row => row.2.foldl (fun d h => d.cast spell flags row.1 h) d) d =
      d.performAll (d.world.barrage spell flags rows) := by
  induction rows generalizing d with
  | nil => rfl
  | cons row rows ih =>
    obtain ⟨hnew, hrest⟩ := List.nodup_cons.mp hrows
    obtain ⟨hrow, halike⟩ := foldl_cast hfree spell flags row.1 row.2
    have hturns := ih (d := d.performAll (d.world.volley spell flags row.1 row.2))
      (by rw [world_performAll, halike.refused, hfree]) hrest
    rw [world_performAll, halike.barrage] at hturns
    · rw [List.foldl_cons, hrow, hturns, ← performAll_append]
      rfl
    · intro next hnext hmem
      exact hnew (List.mem_map.mpr ⟨next, hnext, List.mem_singleton.mp hmem⟩)

theorem nodup_casters {a : Action} {o : Occasion} {t : Targets} {d : Dispatch}
    (ht : t.entities.Nodup) : ((a.casters o t d).map (·.1)).Nodup := by
  unfold Action.casters
  split
  · simp
  · rwa [List.map_map, Function.comp_def, List.map_id']
  · rw [List.map_map, Function.comp_def, List.map_id']
    exact TargetDescriptor.nodup_resolve
  · exact .nil

/-- An action that casts asks for the barrage of its casters. -/
theorem world_run_of_spell? {a : Action} (ha : a.spell? = some (spell, flags)) (o : Occasion)
    {t : Targets} (ht : t.entities.Nodup) (literal : Position) {d : Dispatch}
    (hfree : d.world.refused = []) :
    (d.run o t literal a).world =
      d.world.after (d.world.barrage spell flags (a.casters o t d)) := by
  have hturns : ∀ e : Dispatch, e.world = d.world →
      ((a.casters o t d).foldl (fun d row => row.2.foldl (fun d h => d.cast spell flags row.1 h) d)
        e).world = d.world.after (d.world.barrage spell flags (a.casters o t d)) := by
    intro e he
    rw [← he] at hfree ⊢
    rw [foldl_casters hfree (nodup_casters ht), world_performAll]
  cases a with
  | cast =>
    cases ha
    exact hturns d rfl
  | selfCast =>
    cases ha
    rw [← hturns d rfl, Action.casters, List.foldl_map]
    rfl
  | crossCast spell flags casters =>
    cases ha
    rw [← hturns (d.resolve o casters).2 rfl, Action.casters, List.foldl_map]
    rfl
  | _ => cases ha

end Dispatch

def castPairs (rows : List (Handle × List Handle)) : List (Handle × Handle) :=
  rows.flatMap fun row => row.2.map fun h => (row.1, h)

/-- Casters cast a spell at their targets and ask these commands of a world for it, which becomes
`v`. -/
structure CastsInTurn (w v : World) (spell : UInt32) (flags : CastFlags)
    (rows : List (Handle × List Handle)) (cs : List Command) : Prop where
  distinct : (rows.map (·.1)).Nodup ∧ (castPairs rows).Nodup
  asked : v = w.after cs ∧ v.log = w.log ++ cs
  volleys : cs = rows.flatMap fun row => w.volley spell flags row.1 row.2
  casts : cs.filter (·.isCast) =
    ((castPairs rows).filter fun pair => !w.spares spell flags pair.2).map fun pair =>
      castOf spell flags pair.1 pair.2
  interrupts : ∀ c, cs.count (.interruptCast c none false) =
    if w.interrupts flags c ∧ ∃ h, (c, h) ∈ castPairs rows ∧ w.spares spell flags h = false
      then 1 else 0
  first : ∀ before c after, cs = before ++ .interruptCast c none false :: after →
    (∀ h, castOf spell flags c h ∉ before) ∧ ∃ h rest, after = castOf spell flags c h :: rest
  nothingElse : ∀ x ∈ cs, x.isCast = true ∨ ∃ c, x = .interruptCast c none false

namespace World

variable {w : World} {spell : UInt32} {flags : CastFlags} {caster : Handle} {targets : List Handle}
  {rows : List (Handle × List Handle)}

theorem filter_volley (w : World) (spell : UInt32) (flags : CastFlags) (caster : Handle)
    (targets : List Handle) :
    (w.volley spell flags caster targets).filter (·.isCast) =
      w.castsAt spell flags caster targets := by
  have hcasts : (w.castsAt spell flags caster targets).filter (·.isCast) =
      w.castsAt spell flags caster targets := by
    simp [castsAt, List.filter_map, Function.comp_def, castOf, Command.isCast]
  have hnone : (w.interruption flags caster).filter (·.isCast) = [] := by
    cases hinterrupts : w.interrupts flags caster <;>
      simp [interruption, hinterrupts, Command.isCast]
  cases hempty : (w.castsAt spell flags caster targets).isEmpty with
  | true => simp [volley, List.isEmpty_iff.mp hempty]
  | false => rw [volley, hempty, if_neg Bool.false_ne_true, List.filter_append, hnone, hcasts,
      List.nil_append]

theorem filter_barrage (w : World) (spell : UInt32) (flags : CastFlags)
    (rows : List (Handle × List Handle)) :
    (w.barrage spell flags rows).filter (·.isCast) =
      ((castPairs rows).filter fun pair => !w.spares spell flags pair.2).map fun pair =>
        castOf spell flags pair.1 pair.2 := by
  simp only [barrage, castPairs, List.filter_flatMap, List.map_flatMap, filter_volley, castsAt,
    List.filter_map, List.map_map, Function.comp_def]

theorem mem_volley {x : Command} (hx : x ∈ w.volley spell flags caster targets) :
    x = .interruptCast caster none false ∨ ∃ h, x = castOf spell flags caster h := by
  unfold volley interruption at hx
  split at hx
  · cases hx
  · rcases List.mem_append.mp hx with hx | hx
    · split at hx
      · exact .inl (List.mem_singleton.mp hx)
      · cases hx
    · obtain ⟨h, -, rfl⟩ := List.mem_map.mp hx
      exact .inr ⟨h, rfl⟩

theorem interruptCast_not_mem_castsAt (w : World) (spell : UInt32) (flags : CastFlags)
    (caster : Handle) (targets : List Handle) (c : Handle) :
    .interruptCast c none false ∉ w.castsAt spell flags caster targets := by
  intro hmem
  obtain ⟨h, -, heq⟩ := List.mem_map.mp hmem
  cases heq

theorem castsAt_isEmpty_iff : (w.castsAt spell flags caster targets).isEmpty = true ↔
    ¬∃ h ∈ targets, w.spares spell flags h = false := by
  simp [castsAt, List.filter_eq_nil_iff]

theorem count_volley (w : World) (spell : UInt32) (flags : CastFlags) (caster : Handle)
    (targets : List Handle) (c : Handle) :
    (w.volley spell flags caster targets).count (.interruptCast c none false) =
      if caster = c ∧ w.interrupts flags c ∧ ∃ h ∈ targets, w.spares spell flags h = false
        then 1 else 0 := by
  have hcasts := List.count_eq_zero.mpr
    (interruptCast_not_mem_castsAt w spell flags caster targets c)
  unfold volley
  split
  · rename_i hempty
    rw [if_neg fun hall => castsAt_isEmpty_iff.mp hempty hall.2.2]
    rfl
  · rename_i hsome
    rw [castsAt_isEmpty_iff, not_not] at hsome
    rw [List.count_append, hcasts, interruption]
    by_cases hc : caster = c
    · subst hc
      cases hinterrupts : w.interrupts flags caster <;> simp [hsome]
    · cases hinterrupts : w.interrupts flags caster <;> simp [hc]

theorem volley_eq_append {c : Handle} {before after : List Command}
    (h : w.volley spell flags caster targets = before ++ .interruptCast c none false :: after) :
    caster = c ∧ before = [] ∧ ∃ h rest, after = castOf spell flags c h :: rest := by
  have hno := interruptCast_not_mem_castsAt w spell flags caster targets c
  unfold volley interruption at h
  split at h
  · simp at h
  · rename_i hsome
    split at h
    · cases before with
      | nil =>
        obtain ⟨hhead, hcasts⟩ := List.cons.inj h
        cases hhead
        refine ⟨rfl, rfl, ?_⟩
        rw [← hcasts]
        obtain ⟨x, rest, hx⟩ := List.exists_cons_of_ne_nil (mt List.isEmpty_iff.mpr hsome)
        have hmem : x ∈ w.castsAt spell flags caster targets := by rw [hx]; exact List.mem_cons_self
        obtain ⟨k, -, rfl⟩ := List.mem_map.mp hmem
        exact ⟨k, rest, hx⟩
      | cons x before =>
        rw [List.cons_append, List.nil_append] at h
        exact absurd (by rw [(List.cons.inj h).2]; simp) hno
    · rw [List.nil_append] at h
      exact absurd (by rw [h]; simp) hno

theorem mem_castPairs {c h : Handle} :
    (c, h) ∈ castPairs rows ↔ ∃ row ∈ rows, row.1 = c ∧ h ∈ row.2 := by
  simp [castPairs, Prod.ext_iff]

theorem mem_castPairs_cons {row : Handle × List Handle} {c h : Handle} :
    (c, h) ∈ castPairs (row :: rows) ↔ row.1 = c ∧ h ∈ row.2 ∨ (c, h) ∈ castPairs rows := by
  simp [mem_castPairs]

theorem caster_of_mem_barrage {x : Command} (hx : x ∈ w.barrage spell flags rows) :
    ∃ row ∈ rows, x = .interruptCast row.1 none false ∨ ∃ h, x = castOf spell flags row.1 h := by
  obtain ⟨row, hrow, hmem⟩ := List.mem_flatMap.mp hx
  exact ⟨row, hrow, mem_volley hmem⟩

theorem count_barrage (hrows : (rows.map (·.1)).Nodup) (c : Handle) :
    (w.barrage spell flags rows).count (.interruptCast c none false) =
      if w.interrupts flags c ∧ ∃ h, (c, h) ∈ castPairs rows ∧ w.spares spell flags h = false
        then 1 else 0 := by
  induction rows with
  | nil => simp [barrage, castPairs]
  | cons row rows ih =>
    obtain ⟨hnew, hrest⟩ := List.nodup_cons.mp hrows
    have hcons : w.barrage spell flags (row :: rows) =
        w.volley spell flags row.1 row.2 ++ w.barrage spell flags rows := rfl
    rw [hcons, List.count_append, count_volley, ih hrest]
    by_cases hc : row.1 = c
    · subst hc
      have hnone : ∀ h, (row.1, h) ∉ castPairs rows := fun h hmem => by
        obtain ⟨next, hnext, heq, -⟩ := mem_castPairs.mp hmem
        exact hnew (List.mem_map.mpr ⟨next, hnext, heq⟩)
      simp [mem_castPairs_cons, hnone]
    · simp [mem_castPairs_cons, hc]

theorem barrage_eq_append (hrows : (rows.map (·.1)).Nodup) {c : Handle}
    {before after : List Command}
    (h : w.barrage spell flags rows = before ++ .interruptCast c none false :: after) :
    (∀ h, castOf spell flags c h ∉ before) ∧ ∃ h rest, after = castOf spell flags c h :: rest := by
  induction rows generalizing before with
  | nil => simp [barrage] at h
  | cons row rows ih =>
    obtain ⟨hnew, hrest⟩ := List.nodup_cons.mp hrows
    have hlater : ∀ before', before = w.volley spell flags row.1 row.2 ++ before' →
        w.barrage spell flags rows = before' ++ .interruptCast c none false :: after →
        (∀ h, castOf spell flags c h ∉ before) ∧
          ∃ h rest, after = castOf spell flags c h :: rest := by
      rintro before' rfl htail
      obtain ⟨hcalm, hnext⟩ := ih hrest htail
      refine ⟨fun h hmem => ?_, hnext⟩
      rcases List.mem_append.mp hmem with hmem | hmem
      · -- The caster comes in a later row, so it does not cast in this one.
        have hcaster : c = row.1 := by
          rcases mem_volley hmem with heq | ⟨k, heq⟩
          · cases heq
          · exact (Command.castSpell.inj heq).1
        have hlate : .interruptCast c none false ∈ w.barrage spell flags rows := by simp [htail]
        obtain ⟨next, hnextMem, heq | ⟨k, heq⟩⟩ := caster_of_mem_barrage hlate
        · rw [hcaster] at heq
          exact hnew (List.mem_map.mpr ⟨next, hnextMem, (Command.interruptCast.inj heq).1.symm⟩)
        · cases heq
      · exact hcalm h hmem
    have hcons : w.volley spell flags row.1 row.2 ++ w.barrage spell flags rows =
        before ++ .interruptCast c none false :: after := h
    rcases List.append_eq_append_iff.mp hcons with ⟨before', hbefore, htail⟩ | ⟨x, hvolley, hafter⟩
    · exact hlater before' hbefore htail
    · cases x with
      | nil => exact hlater [] (by simpa using hvolley.symm) (by simpa using hafter.symm)
      | cons y x =>
        obtain ⟨rfl, rfl⟩ := List.cons.inj hafter
        obtain ⟨-, rfl, k, rest, rfl⟩ := volley_eq_append hvolley
        exact ⟨fun _ => List.not_mem_nil, k, rest ++ _, rfl⟩

theorem castsInTurn_barrage (hrows : (rows.map (·.1)).Nodup)
    (htargets : ∀ row ∈ rows, row.2.Nodup) :
    CastsInTurn w (w.after (w.barrage spell flags rows)) spell flags rows
      (w.barrage spell flags rows) := by
  refine ⟨⟨hrows, ?distinct⟩, ⟨rfl, w.log_after _⟩, rfl, filter_barrage w spell flags rows,
    count_barrage hrows, fun before c after => barrage_eq_append hrows, fun x hx => ?nothingElse⟩
  case distinct =>
    rw [castPairs, List.nodup_flatMap]
    refine ⟨fun row hrow => (htargets row hrow).map fun h k heq => (Prod.ext_iff.mp heq).2, ?_⟩
    refine (List.pairwise_map.mp hrows).imp fun {row next} hne pair hpair hnext => hne ?_
    obtain ⟨h, -, rfl⟩ := List.mem_map.mp hpair
    obtain ⟨k, -, heq⟩ := List.mem_map.mp hnext
    exact (Prod.ext_iff.mp heq).1.symm
  case nothingElse =>
    obtain ⟨row, -, rfl | ⟨h, rfl⟩⟩ := caster_of_mem_barrage hx
    · exact .inr ⟨row.1, rfl⟩
    · exact .inl rfl

end World

namespace Dispatch

def castersAfter (o : Occasion) (rule : Rule) (d : Dispatch) (before : List ActionStep)
    (step : ActionStep) : List (Handle × List Handle) :=
  step.action.casters o (d.foundAfter o rule before step)
    ((d.through o rule before).found o (d.resolve o rule.target).1 step).2

variable {o : Occasion} {rule : Rule} {d : Dispatch} {before : List ActionStep}
  {step : ActionStep} {spell : UInt32} {flags : CastFlags}

theorem nodup_foundAfter (o : Occasion) (rule : Rule) (d : Dispatch) (before : List ActionStep)
    (step : ActionStep) : (d.foundAfter o rule before step).entities.Nodup := by
  unfold foundAfter found
  split <;> exact TargetDescriptor.nodup_resolve

theorem nodup_of_mem_casters {a : Action} {t : Targets} {row : Handle × List Handle}
    (ht : t.entities.Nodup) (hrow : row ∈ a.casters o t d) : row.2.Nodup := by
  unfold Action.casters at hrow
  split at hrow
  · rwa [List.mem_singleton.mp hrow]
  · obtain ⟨h, -, rfl⟩ := List.mem_map.mp hrow
    exact List.nodup_singleton h
  · obtain ⟨h, -, rfl⟩ := List.mem_map.mp hrow
    exact ht
  · cases hrow

theorem barrage_of_isEmpty {a : Action} {t : Targets} (ht : t.isEmpty = true) (w : World) :
    w.barrage spell flags (a.casters o t d) = [] := by
  have hnone : t.entities = [] := List.isEmpty_iff.mp (Bool.and_eq_true_iff.mp ht).1
  unfold Action.casters World.barrage
  rw [hnone]
  split
  · rfl
  · rfl
  · rw [List.flatMap_map]
    exact List.flatMap_eq_nil_iff.mpr fun _ _ => rfl
  · rfl

theorem world_found (o : Occasion) (shared : Targets) (d : Dispatch) (step : ActionStep) :
    (d.found o shared step).2.world = d.world := by
  unfold found
  split <;> rfl

theorem refused_through (o : Occasion) (rule : Rule) (d : Dispatch) (steps : List ActionStep) :
    (d.through o rule steps).world.refused = d.world.refused := by
  obtain ⟨cs, hcs⟩ := (Leads.foldl (leads_runStep o rule (d.resolve o rule.target).1)
    (d.resolve o rule.target).2 steps).world
  rw [through, hcs, World.refused_after]
  rfl

/-- What a step that casts asks of its world. -/
theorem world_through_of_spell? (hcast : step.action.spell? = some (spell, flags))
    (hfree : d.world.refused = []) :
    (d.through o rule (before ++ [step])).world =
      (d.through o rule before).world.after ((d.through o rule before).world.barrage spell flags
        (d.castersAfter o rule before step)) := by
  rw [through_append, List.foldl_cons, List.foldl_nil, runStep_eq]
  split
  · rename_i hskip
    have hempty : (d.foundAfter o rule before step).isEmpty = true :=
      (Bool.and_eq_true_iff.mp hskip).2
    rw [world_found, castersAfter, barrage_of_isEmpty hempty, World.after_nil]
  · have hrun := world_run_of_spell? hcast o (nodup_foundAfter o rule d before step)
      (step.target.getD rule.target).literal
      (d := ((d.through o rule before).found o (d.resolve o rule.target).1 step).2)
      (by rw [world_found, refused_through, hfree])
    rw [world_found] at hrun
    exact hrun

/-- In a world that refuses nothing, a step that casts lets its casters cast in turn, and that is
all that comes of it. -/
theorem castsInTurn_step (hcast : step.action.spell? = some (spell, flags))
    (hfree : d.world.refused = []) :
    ∃ cs, CastsInTurn (d.through o rule before).world (d.through o rule (before ++ [step])).world
      spell flags (d.castersAfter o rule before step) cs := by
  have htargets := nodup_foundAfter o rule d before step
  rw [world_through_of_spell? hcast hfree]
  exact ⟨_, World.castsInTurn_barrage (nodup_casters htargets) fun row hrow =>
    nodup_of_mem_casters htargets hrow⟩

private def crossing : ActionStep where
  action := .crossCast 7 ((CastFlags.interruptPrevious.union .auraNotPresent).union .triggered)
    { target := .creatureDistance 0 20 0 }
  target := some { target := .playerDistance 20 false }

private def calling : ActionStep := { action := .callForHelp 10 false }

private def ambush : Rule where
  link := .creature 100
  id := 1
  spec :=
    { event := .link, phase := .always, flags := .none, chance := 100
      cooldownMin := 0, cooldownMax := 0 }
  actions := [calling, crossing]
  target := { target := .owner }
  linkTo := none
  comment := ""

private def scattered : Dispatch where
  world := World.empty.edited [.spawn .creature 100 .origin, .spawn .creature 101 .origin,
    .spawn .creature 101 ⟨1.0, 0.0, 0.0, 0.0⟩, .spawn .player 0 ⟨2.0, 0.0, 0.0, 0.0⟩,
    .spawn .player 0 ⟨3.0, 0.0, 0.0, 0.0⟩, .spawn .player 0 ⟨4.0, 0.0, 0.0, 0.0⟩,
    .set 2 (.casting (some 99)), .set 5 (.aura 7 1)]
  state := {}
  rng := .ofSeed 0

/-- The first creature interrupts itself once, and neither casts at the second player. -/
theorem castsInTurn_crossing :
    (∃ cs, CastsInTurn (scattered.through { owner := 1 } ambush [calling]).world
        (scattered.through { owner := 1 } ambush ([calling] ++ [crossing])).world 7
        ((CastFlags.interruptPrevious.union .auraNotPresent).union .triggered)
        (scattered.castersAfter { owner := 1 } ambush [calling] crossing) cs) ∧
      (scattered.execute { owner := 1 } ambush).world.log =
        [.callForHelp 1 10 false, .interruptCast 2 none false, .castSpell 2 4 7 true false,
          .castSpell 2 6 7 true false, .castSpell 3 4 7 true false, .castSpell 3 6 7 true false] :=
  ⟨castsInTurn_step (by decide) (by decide +kernel), by decide +kernel⟩

end Dispatch

end TriggerScript
