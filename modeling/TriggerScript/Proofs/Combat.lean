import TriggerScript.Proofs.Atomicity
import TriggerScript.Proofs.ThreatLists

/-!
# Combat and threat

Threat brings an entity into combat, and it forgets all threat when it leaves combat, unless it
leaves it by being killed: a killed entity keeps its threat list, and its victim with it, until it
is brought into combat again, is taken out of combat or goes.
-/

namespace TriggerScript

def Edit.Engages (h : Handle) : Edit → Prop
  | .set k (.inCombat fighting) => k = h ∧ fighting = true
  | .set k (.threat ..) => k = h
  | _ => False

def Edit.Kills (w : World) (h : Handle) (e : Edit) : Prop :=
  e = .perform (.kill h) ∧ (Command.kill h).name ∉ w.refused

theorem Edit.Kills.not_engages {w : World} {h : Handle} {e : Edit} (hkills : e.Kills w h) :
    ¬e.Engages h := by
  rw [hkills.1]
  exact id

/-- Whether an entity was killed and not brought into combat since. -/
def Fallen (es : List Edit) (h : Handle) : Prop :=
  ∃ before e after, es = before ++ e :: after ∧ e.Kills (World.empty.edited before) h ∧
    ∀ f ∈ after, ¬f.Engages h

theorem fallen_concat {es : List Edit} {e : Edit} {h : Handle} :
    Fallen (es ++ [e]) h ↔ e.Kills (World.empty.edited es) h ∨ Fallen es h ∧ ¬e.Engages h := by
  constructor
  · rintro ⟨before, f, after, hes, hkills, hcalm⟩
    rcases List.eq_nil_or_concat after with rfl | ⟨after, g, rfl⟩
    · obtain ⟨rfl, hlast⟩ := List.append_inj' hes rfl
      cases hlast
      exact .inl hkills
    · rw [List.concat_eq_append, ← List.cons_append, ← List.append_assoc] at hes
      obtain ⟨rfl, hlast⟩ := List.append_inj' hes rfl
      cases hlast
      exact .inr ⟨⟨before, f, after, rfl, hkills, fun d hd => hcalm d (by simp [hd])⟩,
        hcalm e (by simp)⟩
  · rintro (hkills | ⟨⟨before, f, after, rfl, hkills, hcalm⟩, he⟩)
    · exact ⟨es, e, [], rfl, hkills, by simp⟩
    · refine ⟨before, f, after ++ [e], by simp, hkills, fun d hd => ?_⟩
      rcases List.mem_append.mp hd with hd | hd
      · exact hcalm d hd
      · rwa [List.mem_singleton.mp hd]

namespace World

variable {w v : World} {h : Handle}

def stance? (w : World) (h : Handle) : Option (Bool × List ThreatEntry) :=
  w.shown (fun e => (e.inCombat, e.threat)) h

theorem threatList_of_stance? (hsame : v.stance? h = w.stance? h) :
    v.threatList h = w.threatList h := by
  have hlist : ∀ u : World, u.threatList h = (u.stance? h).elim [] (·.2) := fun u => by
    unfold threatList stance? shown
    cases u.find? h <;> rfl
  rw [hlist, hlist, hsame]

theorem inCombat_of_stance? (hsame : v.stance? h = w.stance? h) : v.inCombat h = w.inCombat h := by
  have hcombat : ∀ u : World, u.inCombat h = (u.stance? h).any (·.1) := fun u => by
    unfold inCombat stance? shown
    cases u.find? h <;> rfl
  rw [hcombat, hcombat, hsame]

theorem stance?_of_find? (hsame : v.find? h = w.find? h) : v.stance? h = w.stance? h := by
  rw [stance?, shown, hsame]
  rfl

theorem threatList_of_gone (hgone : v.find? h = none) : v.threatList h = [] := by
  rw [threatList, hgone]
  rfl

inductive Fight (w v : World) (e : Edit) (h : Handle) : Prop
  | ended (list : v.threatList h = [])
  | kept (calm : ¬e.Engages h) (spared : ¬e.Kills w h) (same : v.stance? h = w.stance? h)
  | killed (kills : e.Kills w h) (list : v.threatList h = w.threatList h)
      (idle : v.inCombat h = false)
  | engaged (engages : e.Engages h) (fights : v.inCombat h = true)

theorem fight_set (w : World) (k : Handle) (setting : Setting) (h : Handle) :
    Fight w (w.edit (.set k setting)) (.set k setting) h := by
  have hfind : (w.edit (.set k setting)).find? h =
      if h = k then (w.find? h).map setting.apply else w.find? h := find?_modify w k setting.apply h
  have hspared : ¬(Edit.set k setting).Kills w h := fun hkills => by cases hkills.1
  by_cases hk : h = k
  · subst hk
    rw [if_pos rfl] at hfind
    cases hw : w.find? h with
    | none =>
      rw [hw] at hfind
      exact .ended (threatList_of_gone hfind)
    | some e =>
      rw [hw, Option.map_some] at hfind
      have hkept : (setting.apply e).inCombat = e.inCombat → (setting.apply e).threat = e.threat →
          (w.edit (.set h setting)).stance? h = w.stance? h := fun hcombat hthreat => by
        unfold stance? shown
        rw [hfind, hw, Option.map_some, Option.map_some, hcombat, hthreat]
      cases setting with
      | inCombat fighting =>
        cases fighting with
        | false =>
          refine .ended ?_
          rw [threatList, hfind]
          rfl
        | true =>
          refine .engaged ⟨rfl, rfl⟩ ?_
          rw [inCombat, hfind]
          rfl
      | threat target amount =>
        refine .engaged rfl ?_
        rw [inCombat, hfind]
        rfl
      | _ => exact .kept id hspared (hkept rfl rfl)
  · rw [if_neg hk] at hfind
    refine .kept ?_ hspared (stance?_of_find? hfind)
    cases setting with
    | inCombat => exact fun hengages => hk hengages.1.symm
    | threat => exact fun hengages => hk (Eq.symm hengages)
    | _ => exact id

theorem fight_apply {c : Command} (hv : w.apply c = .ok v) (hrefused : c.name ∉ w.refused)
    (h : Handle) : Fight w (v.record c) (.perform c) h := by
  -- Only a command to kill changes a stance; others change other parts, or who is there.
  have hkept : c ≠ .kill h → v.stance? h = w.stance? h →
      Fight w (v.record c) (.perform c) h := fun hc hsame =>
    .kept id (fun hkills => hc (Edit.perform.inj hkills.1)) hsame
  have hchanging : ∀ {u : World} {k change}, u.changing k change = .ok v → c ≠ .kill h →
      u.stance? h = w.stance? h →
      (∀ e, (change e).inCombat = e.inCombat ∧ (change e).threat = e.threat) →
      Fight w (v.record c) (.perform c) h := fun {u} k change hv hc hsame hchange => by
    refine hkept hc ?_
    rw [← (changing_eq_ok hv).2, ← hsame]
    exact shown_modify _ u k (fun e => Prod.ext (hchange e).1 (hchange e).2) h
  cases c with
  | kill target =>
    obtain ⟨hexists, hv⟩ : w.exists? target = true ∧ w.modify target Entity.killed = v :=
      changing_eq_ok hv
    have hfind := find?_modify w target Entity.killed h
    rw [hv] at hfind
    by_cases hh : h = target
    · subst hh
      obtain ⟨e, he⟩ := Option.isSome_iff_exists.mp hexists
      rw [if_pos rfl, he] at hfind
      refine .killed ⟨rfl, hrefused⟩ ?_ ?_
      · change v.threatList h = _
        rw [threatList, hfind, threatList, he]
        rfl
      · change v.inCombat h = _
        rw [inCombat, hfind]
        rfl
    · rw [if_neg hh] at hfind
      exact hkept (fun heq => hh (Command.kill.inj heq).symm) (stance?_of_find? hfind)
  | teleport | addAura | setFaction | interruptCast =>
    exact hchanging hv (by simp) rfl fun _ => ⟨rfl, rfl⟩
  | removeAura target spell =>
    cases spell <;> exact hchanging hv (by simp) rfl fun _ => ⟨rfl, rfl⟩
  | despawn target delayMs =>
    cases require_bind hv
    have hfind := find?_remove w target h
    split at hfind
    · exact .ended (threatList_of_gone hfind)
    · exact hkept (by simp) (stance?_of_find? hfind)
  | castSpell =>
    cases require_bind (require_bind hv)
    exact hkept (by simp) rfl
  | summonCreature =>
    have hfind := find?_of_summoned hv h
    split at hfind
    · refine .ended ?_
      change v.threatList h = []
      rw [threatList, hfind]
      rfl
    · exact hkept (by simp) (stance?_of_find? hfind)
  | _ =>
    cases hv
    exact hkept (by simp) rfl

theorem fight_perform (w : World) (c : Command) (h : Handle) :
    Fight w (w.perform c).2 (.perform c) h := by
  by_cases hok : (w.perform c).1 = .ok ()
  · obtain ⟨v, hv, heq⟩ := perform_of_ok hok
    have hrefused : c.name ∉ w.refused := fun hmem => by
      rw [result_perform, if_pos hmem] at hok
      cases hok
    rw [heq]
    exact fight_apply hv hrefused h
  · have hrecord := perform_of_failed hok
    have hstance : (w.perform c).2.stance? h = w.stance? h := by rw [hrecord]; rfl
    by_cases hkills : (Edit.perform c).Kills w h
    · -- a command to kill fails for want of the entity
      refine .ended (threatList_of_gone ?_)
      rw [hrecord, find?_record]
      obtain ⟨hc, hrefused⟩ := hkills
      cases hc
      by_contra hthere
      have hexists : w.exists? h = true := by rwa [exists?, Option.isSome_iff_ne_none]
      rw [result_perform, if_neg hrefused, missing?, Command.needs, List.find?_cons, hexists] at hok
      exact hok rfl
    · exact .kept id hkills hstance

/-- A fight goes on, is over, ends with a death, or begins. -/
theorem fight_edit (w : World) (e : Edit) (h : Handle) : Fight w (w.edit e) e h := by
  have hkept : ∀ e : Edit, ¬e.Engages h → (∀ c, e ≠ .perform c) →
      (w.edit e).stance? h = w.stance? h → Fight w (w.edit e) e h := fun e hcalm hnot hsame =>
    .kept hcalm (fun hkills => hnot _ hkills.1) hsame
  cases e with
  | spawn kind entry position =>
    have hfind := find?_spawn w kind entry position h
    split at hfind
    · refine .ended ?_
      change (w.spawn kind entry position).2.threatList h = []
      rw [threatList, hfind]
      rfl
    · exact hkept _ id (by simp) (stance?_of_find? hfind)
  | remove gone =>
    have hfind := find?_remove w gone h
    split at hfind
    · exact .ended (threatList_of_gone hfind)
    · exact hkept _ id (by simp) (stance?_of_find? hfind)
  | set k setting => exact fight_set w k setting h
  | perform c => exact fight_perform w c h
  | _ => exact hkept _ id (by simp) rfl

/-- An entity with threat is out of combat if it is fallen, and only then. -/
theorem inCombat_edited_iff {es : List Edit} {h : Handle}
    (hthreat : (empty.edited es).threatList h ≠ []) :
    (empty.edited es).inCombat h = false ↔ Fallen es h := by
  induction es using List.reverseRecOn with
  | nil => exact absurd rfl hthreat
  | append_singleton es e ih =>
    rw [fallen_concat]
    rw [edited_append, edited_cons, edited_nil] at hthreat ⊢
    cases fight_edit (empty.edited es) e h with
    | ended list => exact absurd list hthreat
    | kept calm spared same =>
      rw [inCombat_of_stance? same, ih (threatList_of_stance? same ▸ hthreat)]
      simp [calm, spared]
    | killed kills list idle => simp [idle, kills]
    | engaged engages fights =>
      have hspared : ¬e.Kills (empty.edited es) h := fun hkills => hkills.not_engages engages
      simp [fights, engages, hspared]

/-- Short of threat and of a new fight, a threat list stays as it is or is forgotten. -/
theorem threatList_of_calm {es : List Edit} (hcalm : ∀ e ∈ es, ¬e.Engages h) :
    (w.edited es).threatList h = [] ∨ (w.edited es).threatList h = w.threatList h := by
  induction es generalizing w with
  | nil => exact .inr rfl
  | cons e es ih =>
    have hrest := ih (w := w.edit e) fun f hf => hcalm f (List.mem_cons_of_mem e hf)
    rw [edited_cons]
    cases fight_edit w e h with
    | ended list => exact .inl (by rwa [list, or_self] at hrest)
    | kept calm spared same => rwa [threatList_of_stance? same] at hrest
    | killed kills list idle => rwa [list] at hrest
    | engaged engages fights => exact absurd engages (hcalm e List.mem_cons_self)

end World

theorem TargetDescriptor.resolve_of_unthreatened {d : TargetDescriptor} {o : Occasion} {w : World}
    {stored : Std.ExtTreeMap UInt32 (List Handle)} {g : Rng} {f : ThreatFilter}
    (hf : d.target.threatFilter? = some f) (hnone : w.threatList o.owner = []) :
    (d.resolve o w stored g).1 = {} := by
  have hentities : (d.resolve o w stored g).1.entities = [] := by
    refine List.eq_nil_iff_forall_not_mem.mpr fun h hmem => ?_
    have hlisted := World.mem_threatList_of_mem_filteredByThreat
      (d.mem_filteredByThreat_of_mem_resolve hf hmem)
    rw [hnone] at hlisted
    cases hlisted
  have hposition : (d.resolve o w stored g).1.position = none := by
    unfold resolve
    cases htarget : d.target with
    | victim | hostileSecondAggro | hostileLastAggro | hostileRandom | hostileRandomNotTop
      | threatList => rfl
    | _ => simp only [htarget, Target.threatFilter?, reduceCtorEq] at hf
  generalize (d.resolve o w stored g).1 = t at hentities hposition ⊢
  cases t
  cases hentities
  cases hposition
  rfl

/-- How combat and threat of an entity go together after some edits of a new world. -/
structure CombatLaw (es : List Edit) (h : Handle) (w : World) : Prop where
  threatened : w.threatList h ≠ [] → (w.inCombat h = false ↔ Fallen es h)
  kept : ∀ before e after, es = before ++ e :: after →
    e.Kills (World.empty.edited before) h → (∀ f ∈ after, ¬f.Engages h) →
    w.threatList h = [] ∨ w.threatList h = (World.empty.edited before).threatList h
  left : w.inCombat h = false → ¬Fallen es h → w.threatList h = [] ∧ w.victim? h = none ∧
    ∀ (d : TargetDescriptor) (o : Occasion) stored g, o.owner = h →
      d.target.threatFilter?.isSome → (d.resolve o w stored g).1 = {}
  once : ((w.threatList h).map (·.handle)).Nodup

/-- An entity with threat is in combat unless it is fallen; one that left combat in another way has
no victim, and what is taken from its threat list is nothing. -/
theorem combatLaw_edited (es : List Edit) (h : Handle) :
    CombatLaw es h (World.empty.edited es) := by
  refine ⟨World.inCombat_edited_iff, ?kept, ?left, World.threatenedOnce_empty.edited es h⟩
  case kept =>
    rintro before e after rfl hkills hcalm
    rw [World.edited_append]
    apply World.threatList_of_calm
    intro f hf
    rcases List.mem_cons.mp hf with rfl | hf
    · exact hkills.not_engages
    · exact hcalm f hf
  case left =>
    intro hidle hstands
    have hnone : (World.empty.edited es).threatList h = [] := by
      by_contra hthreat
      exact hstands ((World.inCombat_edited_iff hthreat).mp hidle)
    refine ⟨hnone, ?_, ?_⟩
    · rw [World.victim?, hnone]
      rfl
    · rintro d o stored g rfl hthreat
      obtain ⟨f, hf⟩ := Option.isSome_iff_exists.mp hthreat
      exact d.resolve_of_unthreatened hf hnone

private def slain : List Edit :=
  [.spawn .creature 100 .origin, .spawn .player 0 .origin, .set 1 (.threat 2 10.0),
    .perform (.kill 1)]

/-- A killed creature is out of combat and still has a victim, which targets find. -/
theorem killed_creature_keeps_victim :
    (¬∀ es h, (World.empty.edited es).threatList h ≠ [] →
        (World.empty.edited es).inCombat h = true) ∧
      (World.empty.edited slain).inCombat 1 = false ∧
      (World.empty.edited slain).victim? 1 = some 2 ∧
      ((TargetDescriptor.mk (.victim ⟨0, false⟩) .origin).resolve { owner := 1 }
        (World.empty.edited slain) ∅ (Rng.ofSeed 1)).1.entities = [2] := by
  have hthreat : (World.empty.edited slain).threatList 1 ≠ [] := by decide +kernel
  have hidle : (World.empty.edited slain).inCombat 1 = false := by decide +kernel
  refine ⟨fun hclaim => ?_, hidle, by decide +kernel, by decide +kernel⟩
  rw [hclaim slain 1 hthreat] at hidle
  cases hidle

end TriggerScript
