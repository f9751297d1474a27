import TriggerScript.Proofs.Commands

/-!
# Entities under commands

A command leaves the entities as they are, removes one, or summons one under the next handle. Only a
command to despawn it takes an entity away; and as long as there are handles left, a handle that was
given out never comes to stand for another entity.
-/

namespace TriggerScript.World

def shown {α : Type} (f : Entity → α) (w : World) (h : Handle) : Option α := (w.find? h).map f

section

variable {α : Type} (f : Entity → α)

theorem shown_modify (w : World) (k : Handle) {change : Entity → Entity}
    (hchange : ∀ e, f (change e) = f e) (h : Handle) :
    (w.modify k change).shown f h = w.shown f h := by
  unfold shown find? modify
  rw [Std.ExtTreeMap.getElem?_modify]
  split
  · rename_i hk
    rw [Std.LawfulEqOrd.eq_of_compare hk]
    cases w.entities[h]? with
    | none => rfl
    | some e => exact congrArg some (hchange e)
  · rfl

theorem shown_remove (w : World) (gone h : Handle) :
    (w.remove gone).shown f h = if h = gone then none else w.shown f h := by
  unfold shown find? remove
  rw [Std.ExtTreeMap.getElem?_erase]
  by_cases hh : h = gone
  · simp [hh]
  · simp [hh, Ne.symm hh]

theorem shown_spawn (w : World) (kind : EntityKind) (entry : UInt32) (position : Position)
    (h : Handle) :
    (w.spawn kind entry position).2.shown f h =
      if h = w.nextHandle then some (f (.spawned h kind entry position)) else w.shown f h := by
  unfold shown find? spawn
  rw [Std.ExtTreeMap.getElem?_insert]
  by_cases hh : h = w.nextHandle
  · simp [hh]
  · simp [hh, Ne.symm hh]

end

theorem find?_modify (w : World) (k : Handle) (change : Entity → Entity) (h : Handle) :
    (w.modify k change).find? h = if h = k then (w.find? h).map change else w.find? h := by
  unfold modify find?
  rw [Std.ExtTreeMap.getElem?_modify]
  by_cases hk : h = k
  · simp [hk]
  · simp [hk, Ne.symm hk]

theorem find?_remove (w : World) (gone h : Handle) :
    (w.remove gone).find? h = if h = gone then none else w.find? h := by
  simpa [shown] using shown_remove id w gone h

theorem find?_spawn (w : World) (kind : EntityKind) (entry : UInt32) (position : Position)
    (h : Handle) :
    (w.spawn kind entry position).2.find? h =
      if h = w.nextHandle then some (.spawned h kind entry position) else w.find? h := by
  simpa [shown] using shown_spawn id w kind entry position h

/-- What an entity keeps as long as it is there. -/
structure Identity where
  handle : Handle
  kind : EntityKind
  entry : UInt32
deriving DecidableEq

def identityOf (e : Entity) : Identity := ⟨e.info.handle, e.info.kind, e.info.entry⟩

def identity? (w : World) (h : Handle) : Option Identity := w.shown identityOf h

def entryOf? (w : World) (h : Handle) : Option UInt32 := (w.info? h).map (·.entry)

theorem entryOf?_eq_shown (w : World) (h : Handle) : w.entryOf? h = w.shown (·.info.entry) h := by
  simp [entryOf?, info?, shown, Function.comp_def]

theorem entryOf?_eq (w : World) (h : Handle) : w.entryOf? h = (w.identity? h).map (·.entry) := by
  simp [entryOf?_eq_shown, identity?, identityOf, shown, Function.comp_def]

theorem exists?_eq (w : World) (h : Handle) : w.exists? h = (w.entryOf? h).isSome := by
  simp [exists?, entryOf?, info?]

theorem exists?_eq_identity? (w : World) (h : Handle) : w.exists? h = (w.identity? h).isSome := by
  simp [exists?, identity?, shown]

theorem entryOf?_remove (w : World) (gone h : Handle) :
    (w.remove gone).entryOf? h = if h = gone then none else w.entryOf? h := by
  simpa only [entryOf?_eq_shown] using shown_remove _ w gone h

theorem entryOf?_spawn (w : World) (kind : EntityKind) (entry : UInt32) (position : Position)
    (h : Handle) :
    (w.spawn kind entry position).2.entryOf? h =
      if h = w.nextHandle then some entry else w.entryOf? h := by
  simp only [entryOf?_eq_shown]
  exact shown_spawn _ w kind entry position h

/-- What a change makes of the entities; it takes away one that is `lost` at most. The number is
that of the handles it gives out. -/
inductive Effect (lost : Handle → Prop) (w v : World) : Nat → Prop
  | kept (next : v.nextHandle = w.nextHandle) (same : ∀ h, v.identity? h = w.identity? h) :
      Effect lost w v 0
  | taken (gone : Handle) (reason : lost gone) (next : v.nextHandle = w.nextHandle)
      (rest : ∀ h, v.identity? h = if h = gone then none else w.identity? h) : Effect lost w v 0
  | added (kind : EntityKind) (entry : UInt32) (next : v.nextHandle = w.nextHandle + 1)
      (rest : ∀ h, v.identity? h =
        if h = w.nextHandle then some ⟨h, kind, entry⟩ else w.identity? h) :
      Effect lost w v 1

theorem effect_spawn (w : World) (kind : EntityKind) (entry : UInt32) (position : Position)
    (lost : Handle → Prop) : Effect lost w (w.spawn kind entry position).2 1 :=
  .added kind entry rfl (shown_spawn identityOf w kind entry position)

theorem effect_remove (w : World) (gone : Handle) : Effect (· = gone) w (w.remove gone) 0 :=
  .taken gone rfl rfl (shown_remove identityOf w gone)

theorem effect_modify (w : World) (h : Handle) {change : Entity → Entity}
    (hchange : ∀ e, identityOf (change e) = identityOf e) (lost : Handle → Prop) :
    Effect lost w (w.modify h change) 0 :=
  .kept rfl (shown_modify identityOf w h hchange)

def asksEntity : Command → Bool
  | .summonCreature .. => true
  | _ => false

def summons (w : World) (c : Command) : Bool := asksEntity c && (w.perform c).1.isOk

private theorem effect_changing {u w v : World} {target : Handle} {change : Entity → Entity}
    {lost : Handle → Prop} (hv : u.changing target change = .ok v)
    (hnext : u.nextHandle = w.nextHandle) (hsame : ∀ h, u.identity? h = w.identity? h)
    (hchange : ∀ e, identityOf (change e) = identityOf e) : Effect lost w v 0 := by
  rw [← (changing_eq_ok hv).2]
  exact .kept hnext fun h => (shown_modify identityOf u target hchange h).trans (hsame h)

theorem effect_apply {w v : World} {c : Command} (hv : w.apply c = .ok v) :
    Effect (fun h => ∃ delayMs, c = .despawn h delayMs) w v (asksEntity c).toNat := by
  cases c with
  | kill | teleport | addAura | setFaction | interruptCast =>
    exact effect_changing hv rfl (fun _ => rfl) fun _ => rfl
  | removeAura target spell =>
    cases spell <;> exact effect_changing hv rfl (fun _ => rfl) fun _ => rfl
  | despawn target delayMs =>
    cases require_bind hv
    exact .taken target ⟨delayMs, rfl⟩ rfl (shown_remove identityOf w target)
  | castSpell =>
    cases require_bind (require_bind hv)
    exact .kept rfl fun _ => rfl
  | summonCreature summoner entry position summonType durationMs attack =>
    cases require_bind hv
    refine .added .creature entry rfl fun h => ?_
    refine Eq.trans ?_ (shown_spawn identityOf w .creature entry position h)
    apply shown_modify
    intro _
    rfl
  | _ =>
    cases hv
    exact .kept rfl fun _ => rfl

theorem effect_perform (w : World) (c : Command) :
    Effect (fun h => ∃ delayMs, c = .despawn h delayMs) w (w.perform c).2 (w.summons c).toNat := by
  unfold summons perform
  split
  · rw [Except.isOk, Except.toBool, Bool.and_false]
    exact .kept rfl fun _ => rfl
  · split
    · rename_i v hv
      rw [Except.isOk, Except.toBool, Bool.and_true]
      have happly := effect_apply hv
      generalize (asksEntity c).toNat = n at happly ⊢
      cases happly with
      | kept next same => exact .kept next same
      | taken gone reason next rest => exact .taken gone reason next rest
      | added kind entry next rest => exact .added kind entry next rest
    · rw [Except.isOk, Except.toBool, Bool.and_false]
      exact .kept rfl fun _ => rfl

/-- Handles are given out one after the other, `n` at most, and what was given out is not given out
again. -/
structure Numbered (n : Nat) (w v : World) : Prop where
  le : w.nextHandle.toNat ≤ v.nextHandle.toNat
  bound : v.nextHandle.toNat ≤ w.nextHandle.toNat + n
  old : ∀ h, h < w.nextHandle → v.identity? h = w.identity? h ∨ v.identity? h = none
  new : ∀ h, v.exists? h = true → w.exists? h = true ∨ h < v.nextHandle

/-- `v` comes from `w` by changes that take away entities that are `lost` at most and give out `n`
handles at most. Handles are words, so they have to last. -/
structure Follows (lost : Handle → Prop) (n : Nat) (w v : World) : Prop where
  stays : ∀ h, w.exists? h = true → v.exists? h = true ∨ lost h
  numbered : w.nextHandle.toNat + n < UInt64.size → Numbered n w v

theorem Numbered.trans {m n : Nat} {u v w : World} (h : Numbered m u v) (h' : Numbered n v w) :
    Numbered (m + n) u w where
  le := Nat.le_trans h.le h'.le
  bound := by
    have hbound := h.bound
    have hbound' := h'.bound
    omega
  old k hk := by
    have hle := h.le
    rw [UInt64.lt_iff_toNat_lt] at hk
    rcases h'.old k (UInt64.lt_iff_toNat_lt.mpr (by omega)) with hsame | hnone
    · rw [hsame]
      exact h.old k (UInt64.lt_iff_toNat_lt.mpr hk)
    · exact .inr hnone
  new k hk := by
    have hle := h'.le
    rcases h'.new k hk with hv | hnew
    · apply (h.new k hv).imp_right
      simp only [UInt64.lt_iff_toNat_lt]
      omega
    · exact .inr hnew

theorem Numbered.entryOf? {n : Nat} {w v : World} (hnumbered : Numbered n w v) {h : Handle}
    (hold : h < w.nextHandle) : v.entryOf? h = w.entryOf? h ∨ v.entryOf? h = none := by
  rw [entryOf?_eq, entryOf?_eq]
  rcases hnumbered.old h hold with hsame | hnone
  · exact .inl (by rw [hsame])
  · exact .inr (by rw [hnone]; rfl)

namespace Follows

variable {lost lost' : Handle → Prop} {m n : Nat} {u v w : World}

theorem refl (lost : Handle → Prop) (w : World) : Follows lost 0 w w where
  stays _ hh := .inl hh
  numbered _ := ⟨Nat.le_refl _, Nat.le_refl _, fun _ _ => .inl rfl, fun _ hh => .inl hh⟩

theorem trans (h : Follows lost m u v) (h' : Follows lost n v w) :
    Follows lost (m + n) u w where
  stays k hk := by
    rcases h.stays k hk with hv | hlost
    · exact h'.stays k hv
    · exact .inr hlost
  numbered hroom := by
    have hfirst := h.numbered (by omega)
    have hbound := hfirst.bound
    exact hfirst.trans (h'.numbered (by omega))

theorem mono (h : Follows lost m u v) (hlost : ∀ k, lost k → lost' k) (hmn : m ≤ n) :
    Follows lost' n u v where
  stays k hk := (h.stays k hk).imp_right (hlost k)
  numbered hroom := by
    have hfirst := h.numbered (by omega)
    exact ⟨hfirst.le, Nat.le_trans hfirst.bound (by omega), hfirst.old, hfirst.new⟩

end Follows

theorem toNat_succ {h : Handle} (hroom : h.toNat + 1 < UInt64.size) : (h + 1).toNat = h.toNat + 1 := by
  rw [UInt64.toNat_add]
  exact Nat.mod_eq_of_lt hroom

theorem exists?_of_identity? {w v : World} {h : Handle} (hsame : v.identity? h = w.identity? h) :
    v.exists? h = w.exists? h := by
  rw [exists?_eq_identity?, exists?_eq_identity?, hsame]

theorem Effect.follows {lost : Handle → Prop} {w v : World} {n : Nat}
    (heffect : Effect lost w v n) : Follows lost n w v := by
  cases heffect with
  | kept next same =>
    have hexists : ∀ h, v.exists? h = w.exists? h := fun h => exists?_of_identity? (same h)
    have hnext : v.nextHandle.toNat = w.nextHandle.toNat := congrArg UInt64.toNat next
    refine ⟨fun h hh => .inl ?_, fun _ => ⟨by omega, by omega, fun h _ => .inl (same h),
      fun h hh => .inl ?_⟩⟩
    · rwa [hexists]
    · rwa [← hexists]
  | taken gone reason next rest =>
    have hnext : v.nextHandle.toNat = w.nextHandle.toNat := congrArg UInt64.toNat next
    refine ⟨fun h hh => ?_, fun _ => ⟨by omega, by omega, fun h _ => ?_, fun h hh => .inl ?_⟩⟩
    · by_cases hgone : h = gone
      · exact .inr (hgone ▸ reason)
      · exact .inl (by rw [exists?_of_identity? ((rest h).trans (if_neg hgone)), hh])
    · rw [rest]
      split
      · exact .inr rfl
      · exact .inl rfl
    · rw [exists?_eq_identity?, rest] at hh
      split at hh
      · cases hh
      · rwa [exists?_eq_identity?]
  | added kind entry next rest =>
    refine ⟨fun h hh => .inl ?_, fun hroom => ?_⟩
    · rw [exists?_eq_identity?, rest]
      split
      · rfl
      · rwa [← exists?_eq_identity?]
    · have hnext := toNat_succ hroom
      rw [← next] at hnext
      refine ⟨by omega, by omega, fun h hh => .inl ?_, fun h hh => ?_⟩
      · rw [rest, if_neg (UInt64.ne_of_lt hh)]
      · by_cases hnew : h = w.nextHandle
        · exact .inr (UInt64.lt_iff_toNat_lt.mpr (by rw [hnew]; omega))
        · rw [exists?_of_identity? ((rest h).trans (if_neg hnew))] at hh
          exact .inl hh

theorem follows_perform (w : World) (c : Command) :
    Follows (fun h => ∃ delayMs, c = .despawn h delayMs) 1 w (w.perform c).2 :=
  (effect_perform w c).follows.mono (fun _ hlost => hlost) (Bool.toNat_le _)

theorem follows_after (w : World) (cs : List Command) :
    Follows (fun h => ∃ delayMs, .despawn h delayMs ∈ cs) cs.length w (w.after cs) := by
  induction cs generalizing w with
  | nil => exact .refl _ w
  | cons c cs ih =>
    have hfirst : Follows (fun h => ∃ delayMs, .despawn h delayMs ∈ c :: cs) 1 w
        (w.perform c).2 := by
      apply (follows_perform w c).mono _ (Nat.le_refl 1)
      rintro h ⟨delayMs, rfl⟩
      exact ⟨delayMs, List.mem_cons_self⟩
    rw [after_cons, List.length_cons, Nat.add_comm]
    exact hfirst.trans ((ih (w.perform c).2).mono
      (fun h ⟨delayMs, hmem⟩ => ⟨delayMs, List.mem_cons_of_mem c hmem⟩) (Nat.le_refl _))

/-- A part of an entity that no command changes. -/
def OffCommands {α : Type} (f : Entity → α) : Prop :=
  ∀ e info inCombat casting auras faction owner,
    f { e with info, inCombat, casting, auras, faction, owner } = f e

section

variable {α : Type} {f : Entity → α}

private theorem shown_changing {u w v : World} {target : Handle} {change : Entity → Entity}
    (hv : u.changing target change = .ok v) (hchange : ∀ e, f (change e) = f e) (h : Handle)
    (hsame : u.shown f h = w.shown f h) : v.shown f h = w.shown f h := by
  rw [← (changing_eq_ok hv).2]
  exact (shown_modify f u target hchange h).trans hsame

theorem OffCommands.shown_apply (hf : OffCommands f) {w v : World} {c : Command}
    (hv : w.apply c = .ok v) (h : Handle) :
    v.shown f h = w.shown f h ∨ v.shown f h = none ∨
      h = w.nextHandle ∧ ∃ entry position,
        v.shown f h = some (f (.spawned h .creature entry position)) := by
  cases c with
  | kill | teleport | addAura | setFaction | interruptCast =>
    exact .inl (shown_changing hv (fun e => hf e ..) h rfl)
  | removeAura target spell =>
    cases spell <;> exact .inl (shown_changing hv (fun e => hf e ..) h rfl)
  | despawn target delayMs =>
    cases require_bind hv
    rw [shown_remove]
    split
    · exact .inr (.inl rfl)
    · exact .inl rfl
  | castSpell =>
    cases require_bind (require_bind hv)
    exact .inl rfl
  | summonCreature summoner entry position summonType durationMs attack =>
    cases require_bind hv
    have howner : ((w.spawn .creature entry position).2.modify w.nextHandle
        fun e => { e with owner := some summoner }).shown f h =
          (w.spawn .creature entry position).2.shown f h :=
      shown_modify f _ _ (fun e => hf e ..) h
    have hspawned := shown_spawn f w .creature entry position h
    split at hspawned
    · rename_i hh
      exact .inr (.inr ⟨hh, entry, position, howner.trans hspawned⟩)
    · exact .inl (howner.trans hspawned)
  | _ =>
    cases hv
    exact .inl rfl

end

def charm? (w : World) (h : Handle) : Option Bool := w.shown (·.charmed) h

theorem exists?_eq_charm? (w : World) (h : Handle) : w.exists? h = (w.charm? h).isSome := by
  simp [exists?, charm?, shown]

theorem charmed_eq (w : World) (h : Handle) : w.charmed h = (w.charm? h).getD false := by
  unfold charmed charm? shown
  cases w.find? h <;> rfl

theorem exists?_of_charmed {w : World} {h : Handle} (hcharmed : w.charmed h = true) :
    w.exists? h = true := by
  unfold charmed at hcharmed
  unfold exists?
  cases hfind : w.find? h <;> simp_all

theorem charm?_apply {w v : World} {c : Command} {h : Handle} (hv : w.apply c = .ok v)
    (hh : h ≠ w.nextHandle) : v.charm? h = w.charm? h ∨ v.charm? h = none := by
  have hcharm : OffCommands (·.charmed) := fun _ _ _ _ _ _ _ => rfl
  rcases hcharm.shown_apply hv h with hsame | hgone | ⟨hnew, -⟩
  · exact .inl hsame
  · exact .inr hgone
  · exact absurd hnew hh

theorem charm?_perform {w : World} {h : Handle} (hh : h ≠ w.nextHandle) (c : Command) :
    (w.perform c).2.charm? h = w.charm? h ∨ (w.perform c).2.charm? h = none := by
  rcases w.perform_cases c with hfailed | ⟨v, hv, hdone⟩
  · rw [hfailed]
    exact .inl rfl
  · rw [hdone]
    change v.charm? h = _ ∨ v.charm? h = none
    exact charm?_apply hv hh

/-- An entity that was given its handle before is charmed as long as it is there, or not at all. -/
theorem charm?_after {w : World} {h : Handle} (hold : h < w.nextHandle) {cs : List Command}
    (hroom : w.nextHandle.toNat + cs.length < UInt64.size) :
    (w.after cs).charm? h = w.charm? h ∨ (w.after cs).charm? h = none := by
  induction cs generalizing w with
  | nil => exact .inl rfl
  | cons c cs ih =>
    rw [List.length_cons] at hroom
    have hstep := charm?_perform (UInt64.ne_of_lt hold) c
    have hnumbered := (follows_perform w c).numbered (by omega)
    have hle := hnumbered.le
    have hbound := hnumbered.bound
    have hstill : h < (w.perform c).2.nextHandle := by
      rw [UInt64.lt_iff_toNat_lt] at hold ⊢
      omega
    rw [after_cons]
    rcases ih hstill (by omega) with hrest | hrest
    · rw [hrest]
      exact hstep
    · exact .inr hrest

theorem charm?_of_there {w : World} {h : Handle} (hold : h < w.nextHandle) {cs ds : List Command}
    (hroom : w.nextHandle.toNat + (cs ++ ds).length < UInt64.size)
    (hthere : (w.after (cs ++ ds)).exists? h = true) : (w.after cs).charm? h = w.charm? h := by
  rw [List.length_append] at hroom
  have hnumbered := (follows_after w cs).numbered (by omega)
  have hle := hnumbered.le
  have hbound := hnumbered.bound
  have hstill : h < (w.after cs).nextHandle := by
    rw [UInt64.lt_iff_toNat_lt] at hold ⊢
    omega
  rw [after_append, exists?_eq_charm?] at hthere
  rcases charm?_after hold (show w.nextHandle.toNat + cs.length < _ by omega) with hsame | hgone
  · exact hsame
  · rcases charm?_after hstill (show _ + ds.length < _ by omega) with hrest | hrest
    · simp [hrest, hgone] at hthere
    · simp [hrest] at hthere

end TriggerScript.World
