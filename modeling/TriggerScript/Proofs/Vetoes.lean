import TriggerScript.Proofs.Building
import TriggerScript.Proofs.Edits
import TriggerScript.Proofs.Marks

/-!
# Vetoes

The flags of a rule are checked whenever it is about to fire, in a world that the rules before it
have changed. No command changes the difficulty, and none charms an entity or ends its charm, so the
flags hold of the world before a call as well. A rule that is vetoed or loses its chance leaves
nothing behind but the draw.
-/

namespace TriggerScript.Script

variable {s : Script} {w : World} {rule : Rule}

structure Permits (s : Script) (w : World) (rule : Rule) : Prop extends s.Clears w rule where
  phase : rule.spec.phase.allows s.state.phase = true
  unmarked : rule.isRepeatable = false → s.isMarked rule = false

theorem isVetoed_own_eq_false_iff :
    s.isVetoed w s.rules rule = false ↔ s.Permits w rule := by
  have hspent : s.isSpent s.rules rule = false ↔
      (rule.isRepeatable = false → s.isMarked rule = false) := by
    simp [isSpent, isMarked]
  rw [isVetoed_eq_false_iff, hspent]
  exact ⟨fun ⟨hphase, hunmarked, hclear⟩ => ⟨hclear, hphase, hunmarked⟩,
    fun h => ⟨h.phase, h.unmarked, h.toClears⟩⟩

theorem Clears.of_keeps {t : Script} (h : t.Clears w rule) (hk : s.Keeps t) : s.Clears w rule := by
  constructor
  · exact h.difficulty
  · exact fun hflag => hk.config ▸ h.debug hflag
  · exact fun hcharmed => h.charm (by rwa [hk.owner])

structure Cleared (s : Script) (w : World) (p : Progress) : Prop where
  world : w.Becomes p.world
  fired : ∀ {rule depth n}, .fired rule depth n ∈ p.journal →
    ∃ v : World, w.Becomes v ∧ v.Becomes p.world ∧ s.Clears v rule

theorem cleared_of_silent {t : Script} {journal : List Incident}
    (h : ∀ i ∈ journal, i.record? = none) :
    Cleared s w { script := t, world := w, journal } where
  world := .refl w
  fired hmem := nomatch h _ hmem

theorem cleared_lifeLaw : LifeLaw Cleared where
  join {s w p stage} hk h h' := by
    refine ⟨h.world.trans h'.world, fun hmem => ?_⟩
    rcases List.mem_append.mp hmem with hmem | hmem
    · obtain ⟨v, hwv, hvp, hclear⟩ := h.fired hmem
      exact ⟨v, hwv, hvp.trans h'.world, hclear⟩
    · obtain ⟨v, hpv, hend, hclear⟩ := h'.fired hmem
      exact ⟨v, h.world.trans hpv, hend, hclear.of_keeps hk⟩
  aside w _ := cleared_of_silent (by simp)
  shot {s set forced rule} w o depth _ _ _ hthrough := by
    have hworld := becomes_shoot set o depth forced rule s w
    refine ⟨hworld, fun hmem => ?_⟩
    obtain ⟨n, hjournal⟩ := journal_shoot set o depth forced rule s w
    rw [hjournal] at hmem
    cases List.mem_singleton.mp hmem
    exact ⟨w, .refl w, hworld, (isVetoed_eq_false_iff.mp hthrough.unvetoed).2.2⟩
  timed _ _ _ _ := cleared_of_silent (by simp)
  noted _ _ hi _ _ := cleared_of_silent (by simpa using hi)
  taken _ _ := cleared_of_silent (by simp)
  renewed _ _ := cleared_of_silent (by simp [Incident.record?])
  settled _ _ := cleared_of_silent (by simp)
  retired _ _ := cleared_of_silent (by simp [Incident.record?])

/-- On the way from one world to another a handle keeps its meaning: an entity has a handle that was
given out, and the handles last, as each command gives out one at most. -/
structure HandleLasts (h : Handle) (w v : World) : Prop where
  issued : w.exists? h = true → h < w.nextHandle
  room : w.nextHandle.toNat + v.log.length < UInt64.size + w.log.length

theorem Clears.of_becomes {u v : World} (h : s.Clears v rule) (hwv : w.Becomes v)
    (hvu : v.Becomes u) (hlasts : HandleLasts s.owner w u) (hthere : u.exists? s.owner = true) :
    s.Clears w rule := by
  obtain ⟨cs, rfl⟩ := hwv
  obtain ⟨ds, rfl⟩ := hvu
  constructor
  · simpa using h.difficulty
  · exact h.debug
  · intro hcharmed
    apply h.charm
    have hbefore := World.exists?_of_charmed hcharmed
    have hroom := hlasts.room
    rw [← World.after_append] at hroom hthere
    rw [World.log_after, List.length_append] at hroom
    rw [World.charmed_eq] at hcharmed ⊢
    rw [World.charm?_of_there (hlasts.issued hbefore) (by omega) hthere]
    exact hcharmed

theorem losesChance_eq (forced : Bool) (rule : Rule) (s : Script) :
    ∃ rng, (s.losesChance forced rule).2 = { s with rng } := by
  unfold losesChance
  split <;> exact ⟨_, rfl⟩

/-- A rule that does not fire leaves a draw behind at most. -/
theorem fire_eq_of_not_fired {set : RuleSet} {o : Occasion} {links depth : Nat} {forced : Bool}
    (h : (fire set o links depth forced rule s w).1 ≠ .fired) :
    ∃ rng, (fire set o links depth forced rule s w).2 =
      { script := { s with rng }, world := w } := by
  rcases fire_cases set o links depth forced rule s w with
    ⟨-, hfire⟩ | ⟨-, -, hfire⟩ | ⟨-, hfire⟩
  · rw [hfire]
    exact ⟨s.rng, rfl⟩
  · obtain ⟨rng, hdraw⟩ := losesChance_eq forced rule s
    rw [hfire, hdraw]
    exact ⟨rng, rfl⟩
  · rw [hfire] at h
    exact absurd rfl h

theorem fire_forced_of_unvetoed {set : RuleSet} (hv : s.isVetoed w set rule = false)
    (o : Occasion) (links depth : Nat) :
    (fire set o links depth true rule s w).1 = .fired := by
  have hthrough : s.LetsThrough w set true rule := ⟨hv, by simp [losesChance]⟩
  rw [hthrough.fire_eq]

theorem commit_of_settled (h : s.state.staged = {}) (w : World) : (s.commit w).journal = [] := by
  unfold commit
  rw [h]
  rfl

theorem journal_forceFire? (hs : s.Reachable) {id : RuleId} (hfind : s.rules.find? id = some rule)
    (hd : s.despawned = false) : ∃ p, s.forceFire? id w = some p ∧
      (s.Permits w rule → ∃ n rest, p.journal = .fired rule 0 n :: rest) ∧
      (¬s.Permits w rule → p.journal = []) := by
  have hforce : s.forceFire? id w =
      some ((fireHead s.rules { owner := s.owner } true rule s w).2.andThen commit) := by
    simp [forceFire?, hfind, hd]
  refine ⟨_, hforce, fun hpermits => ?_, fun hforbidden => ?_⟩
  · have hunvetoed := isVetoed_own_eq_false_iff.mpr hpermits
    have hfired : (fireHead s.rules { owner := s.owner } true rule s w).1 = .fired :=
      fire_forced_of_unvetoed hunvetoed _ _ _
    obtain ⟨n, linked, hjournal, -⟩ :=
      (fires_fireHead s.rules { owner := s.owner } true rule s w).journal hfired
    rw [Progress.journal_andThen, hjournal]
    exact ⟨n, _, rfl⟩
  · have hvetoed : s.isVetoed w s.rules rule = true := by
      rw [← isVetoed_own_eq_false_iff] at hforbidden
      simpa using hforbidden
    rw [Progress.journal_andThen, fireHead, fire_of_vetoed hvetoed]
    exact commit_of_settled hs.sound.settled w

theorem clears_of_record (hs : s.Reachable) {op : Operation}
    (hlasts : HandleLasts s.owner w (s.operate w op).world)
    (hthere : (s.operate w op).world.exists? s.owner = true) {depth n : Nat}
    (hmem : .fired rule depth n ∈ (s.operate w op).journal) : s.Clears w rule := by
  obtain ⟨v, hwv, hend, hclear⟩ :=
    (cleared_lifeLaw.operate hs.sound.listed w op).fired hmem
  exact hclear.of_becomes hwv hend hlasts hthere

theorem handleLasts_edited {es : List Edit} {v : World}
    (hbecomes : (World.empty.edited es).Becomes v)
    (hroom : World.empty.spawnsIn es + v.log.length + 1 <
      UInt64.size + (World.empty.edited es).log.length) (h : Handle) :
    HandleLasts h (World.empty.edited es) v := by
  obtain ⟨cs, rfl⟩ := hbecomes
  rw [World.log_after, List.length_append] at hroom
  have hstart : World.empty.nextHandle.toNat = 1 := rfl
  have hnumbered := (World.follows_edited World.empty es).numbered (by omega)
  have hbound := hnumbered.bound
  refine ⟨fun hexists => ?_, ?_⟩
  · rcases hnumbered.new h hexists with hempty | hlt
    · simp [World.exists?, World.find?, World.empty] at hempty
    · exact hlt
  · rw [World.log_after, List.length_append]
    omega

/-- There the vetoes hold for a call as long as handles are left for all that it asks for. -/
theorem clears_of_record_edited (hs : s.Reachable) {es : List Edit} {op : Operation}
    (hroom : World.empty.spawnsIn es +
        (s.operate (World.empty.edited es) op).world.log.length + 1 <
      UInt64.size + (World.empty.edited es).log.length)
    (hthere : (s.operate (World.empty.edited es) op).world.exists? s.owner = true) {depth n : Nat}
    (hmem : .fired rule depth n ∈ (s.operate (World.empty.edited es) op).journal) :
    s.Clears (World.empty.edited es) rule :=
  clears_of_record hs (handleLasts_edited (cleared_lifeLaw.operate hs.sound.listed _ op).world
    hroom _) hthere hmem

/-- What the vetoes of a script promise in a world. -/
structure VetoesHold (s : Script) (w : World) : Prop where
  records : ∀ op, HandleLasts s.owner w (s.operate w op).world →
    (s.operate w op).world.exists? s.owner = true →
    ∀ rule depth n, .fired rule depth n ∈ (s.operate w op).journal → s.Clears w rule
  attempts : ∀ set o links depth forced rule t v,
    (fire set o links depth forced rule t v).1 ≠ .fired →
    ∃ rng, (fire set o links depth forced rule t v).2 =
      { script := { t with rng }, world := v }
  forced : ∀ id rule, s.rules.find? id = some rule → s.despawned = false →
    ∃ p, s.forceFire? id w = some p ∧
      (s.Permits w rule → ∃ n rest, p.journal = .fired rule 0 n :: rest) ∧
      (¬s.Permits w rule → p.journal = [])

/-- The vetoes of a rule hold for a whole call as they do before it, a failed attempt has no effect,
and a rule that is forced fires unless it is vetoed. -/
theorem vetoes_hold_for_calls (hs : s.Reachable) (w : World) : s.VetoesHold w where
  records _ hlasts hthere _ _ _ hmem := clears_of_record hs hlasts hthere hmem
  attempts _ _ _ _ _ _ _ _ h := fire_eq_of_not_fired h
  forced _ _ hfind hd := journal_forceFire? hs hfind hd

private def thrallRow (id eventKind flags : UInt32) (linkTo : Option UInt32) : Table :=
  .single 100 0 eventKind fun row =>
    { row with
      id, linkTo, actionKind := 12, flags := some flags
      actionParams := row.actionParams.setIfInBounds 0 7 }

/-- The first rule is not for charmed owners. The second one is, at the lowest difficulty, and links
to a third one for debugging. Each of them summons. -/
private def thrallTables : List Table :=
  [thrallRow 1 4 0 none, thrallRow 2 4 0x202 (some 3), thrallRow 3 61 0x280 none]

private def thrallSet : RuleSet :=
  ((Store.build thrallTables).1.find? (.creature 100)).getD default

private def thrall : Script :=
  fresh 1 thrallSet (Store.build thrallTables).1 { debugRules := true } (.ofSeed 0)

private def charmedWorld : World :=
  ((World.empty.spawn .creature 100 .origin).2.modify 1 fun e =>
    { e with charmed := true }).setDifficulty (some ⟨0⟩)

private def attack : Operation := .advance 0 (some (.aggro 2))

private def plain : Rule := (thrallSet.find? 1).getD default

/-- A charmed owner runs the two rules for charmed owners and not the first one, forced or not. -/
theorem charmed_owner_runs_charm_rules :
    thrall.Reachable ∧ HandleLasts 1 charmedWorld (thrall.operate charmedWorld attack).world ∧
      (thrall.operate charmedWorld attack).fired =
        [⟨.creature 100, 2, 0, 1⟩, ⟨.creature 100, 3, 1, 1⟩] ∧
      (∀ rule depth n, .fired rule depth n ∈ (thrall.operate charmedWorld attack).journal →
        thrall.Clears charmedWorld rule) ∧
      ∃ p, thrall.forceFire? 1 charmedWorld = some p ∧ p.journal = [] := by
  have hreach : thrall.Reachable := .fresh 1 thrallSet _ _ _
  have hlasts : HandleLasts 1 charmedWorld (thrall.operate charmedWorld attack).world :=
    ⟨by decide +kernel, by decide +kernel⟩
  have hvetoes := vetoes_hold_for_calls hreach charmedWorld
  have hfind : thrall.rules.find? 1 = some plain := by decide +kernel
  have hforbidden : ¬thrall.Permits charmedWorld plain := by
    rw [← isVetoed_own_eq_false_iff]
    decide +kernel
  obtain ⟨p, hp, -, hsilent⟩ := hvetoes.forced 1 plain hfind rfl
  exact ⟨hreach, hlasts, by decide +kernel,
    hvetoes.records attack hlasts (by decide +kernel), p, hp, hsilent hforbidden⟩

end TriggerScript.Script
