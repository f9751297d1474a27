import TriggerScript.Proofs.FiringLaws

/-!
# Marks of once-only rules

A rule of the own set that may fire only once is marked when it fires, and a reset clears its mark
unless the rule survives resets. Rules of other sets do not look at marks and leave none.
-/

namespace TriggerScript

namespace Script

variable {r : Rule}

def isMarked (s : Script) (r : Rule) : Bool := s.state.firedOnce.contains r.id

theorem marks_shoot (set : RuleSet) (o : Occasion) (depth : Nat) (forced : Bool) (rule : Rule)
    (s : Script) (w : World) :
    (shoot set o depth forced rule s w).script.state.firedOnce =
      if s.owns set && !rule.isRepeatable then s.state.firedOnce.insert rule.id ()
      else s.state.firedOnce := by
  have hp := Dispatch.leads_execute o rule
    { world := w, state := ((s.losesChance forced rule).2.mark set rule).state
      rng := ((s.losesChance forced rule).2.mark set rule).rng }
  have hperform : (shoot set o depth forced rule s w).script.state.firedOnce =
      ((s.losesChance forced rule).2.mark set rule).state.firedOnce :=
    (congrArg ScriptState.firedOnce hp.state :)
  have hdraw : (s.losesChance forced rule).2.state.firedOnce = s.state.firedOnce := by
    rw [aside_losesChance forced rule s]
  rw [hperform]
  unfold mark owns
  rw [(keeps_losesChance forced rule s).rules]
  split
  · rw [hdraw]
  · exact hdraw

@[simp] theorem owns_rules (s : Script) : s.owns s.rules = true := by
  simp [owns]

theorem contains_foldl_erase (rules : List Rule) (marks : Std.ExtTreeMap RuleId Unit)
    (id : RuleId) :
    (rules.foldl (fun marks (rule : Rule) => marks.erase rule.id) marks).contains id =
      (marks.contains id && rules.all fun rule => rule.id != id) := by
  induction rules generalizing marks with
  | nil => simp
  | cons rule rules ih =>
    have hne : (compare rule.id id != .eq) = (rule.id != id) := by
      rw [Bool.eq_iff_iff]
      simp
    rw [List.foldl_cons, ih, Std.ExtTreeMap.contains_erase, List.all_cons, hne,
      Bool.and_comm (rule.id != id), Bool.and_assoc]

theorem isMarked_resetState {s : Script} (hids : (s.rules.rules.map (·.id)).Nodup)
    (hr : r ∈ s.rules.rules) : s.resetState.isMarked r = (s.isMarked r && r.survivesReset) := by
  have hkept : (s.rules.rules.filter fun rule => !rule.survivesReset).all
      (fun rule => rule.id != r.id) = r.survivesReset := by
    rw [Bool.eq_iff_iff, List.all_eq_true]
    constructor
    · intro hall
      by_contra hrenewed
      have hmem : r ∈ s.rules.rules.filter fun rule => !rule.survivesReset :=
        List.mem_filter.mpr ⟨hr, by simpa using hrenewed⟩
      have hne := hall r hmem
      simp at hne
    · intro hsurvives x hx
      simpa using id_ne_of_renewed hids hr hsurvives x hx
  unfold isMarked resetState
  dsimp only
  rw [initTimers_eq]
  change (List.foldl _ s.state.firedOnce _).contains r.id = _
  rw [contains_foldl_erase, hkept]

end Script

/-- The rules that are marked as fired. -/
abbrev Marks := Std.ExtTreeMap RuleId Unit

variable (marks : Marks)

namespace Dispatch

def withMarks (d : Dispatch) : Dispatch :=
  { d with state := { d.state with firedOnce := marks } }

@[simp] theorem world_withMarks (d : Dispatch) : (d.withMarks marks).world = d.world := rfl

theorem perform_withMarks (d : Dispatch) (c : Command) :
    (d.withMarks marks).perform c = (d.perform c).withMarks marks := by
  unfold perform
  rw [world_withMarks]
  generalize d.world.perform c = answer
  obtain ⟨_ | _, world⟩ := answer <;> rfl

theorem unread_withMarks : Unread (withMarks marks) where
  perform := perform_withMarks marks
  resolve _ _ _ := rfl
  auras _ := rfl
  casting _ := rfl
  commands _ _ _ _ := rfl
  pendingPhase _ := rfl
  rng _ := rfl
  drawn _ _ := rfl
  staged _ _ := rfl
  stored _ _ _ := rfl

end Dispatch

def Script.withMarks (s : Script) : Script :=
  { s with state := { s.state with firedOnce := marks } }

def Progress.withMarks (p : Progress) : Progress := { p with script := p.script.withMarks marks }

theorem Progress.andThen_withMarks (p : Progress) {stage : Script → World → Progress}
    (h : stage (p.script.withMarks marks) p.world =
      (stage p.script p.world).withMarks marks) :
    (p.withMarks marks).andThen stage = (p.andThen stage).withMarks marks := by
  unfold andThen
  change (let q := stage (p.script.withMarks marks) p.world
    { q with journal := p.journal ++ q.journal } : Progress) = _
  rw [h]
  rfl

namespace Script

theorem losesChance_withMarks (forced : Bool) (rule : Rule) (s : Script) :
    (s.withMarks marks).losesChance forced rule =
      ((s.losesChance forced rule).1, (s.losesChance forced rule).2.withMarks marks) := by
  unfold losesChance
  by_cases hdraws : (!forced && rule.spec.chance < 100) = true
  · simp only [if_pos hdraws]
    rfl
  · simp only [if_neg hdraws]

theorem perform_withMarks (rule : Rule) (o : Occasion) (depth : Nat) (s : Script) (w : World) :
    (s.withMarks marks).perform rule o depth w =
      (s.perform rule o depth w).withMarks marks := by
  have h : Dispatch.execute o rule
      { world := w, state := (s.withMarks marks).state, rng := (s.withMarks marks).rng } =
        (Dispatch.execute o rule { world := w, state := s.state, rng := s.rng }).withMarks marks :=
    (Dispatch.unread_withMarks marks).execute o rule { world := w, state := s.state, rng := s.rng }
  unfold perform
  rw [h]
  rfl

section

variable {set : RuleSet} {s : Script} (hset : s.owns set = false)

include hset

theorem isVetoed_withMarks (w : World) (rule : Rule) :
    (s.withMarks marks).isVetoed w set rule = s.isVetoed w set rule := by
  have hspent : ∀ t : Script, t.owns set = false → t.isSpent set rule = false := by
    intro t ht
    unfold isSpent
    rw [ht]
    rfl
  unfold isVetoed
  rw [hspent s hset, hspent (s.withMarks marks) hset]
  rfl

theorem shoot_withMarks (o : Occasion) (depth : Nat) (forced : Bool) (rule : Rule) (w : World) :
    shoot set o depth forced rule (s.withMarks marks) w =
      (shoot set o depth forced rule s w).withMarks marks := by
  have hmark : ∀ t : Script, t.rules = s.rules → t.mark set rule = t := by
    intro t ht
    unfold mark owns
    rw [ht]
    change (if (s.owns set && !rule.isRepeatable) = true then _ else t) = t
    rw [hset]
    rfl
  have hrules : (s.losesChance forced rule).2.rules = s.rules :=
    (keeps_losesChance forced rule s).rules
  unfold shoot
  rw [losesChance_withMarks, hmark ((s.losesChance forced rule).2.withMarks marks) hrules,
    hmark (s.losesChance forced rule).2 hrules, perform_withMarks]

/-- Rules of a set that is not the own one fire alike whatever is marked, and mark nothing. -/
theorem fire_withMarks (o : Occasion) (links depth : Nat) (forced : Bool) (rule : Rule)
    (w : World) :
    fire set o links depth forced rule (s.withMarks marks) w =
      ((fire set o links depth forced rule s w).1,
        (fire set o links depth forced rule s w).2.withMarks marks) := by
  induction links using Nat.strongRecOn generalizing depth forced rule s w with
  | ind links ih =>
    rcases fire_cases set o links depth forced rule s w with
      ⟨hv, h⟩ | ⟨hv, hl, h⟩ | ⟨hthrough, h⟩
    · rw [h, fire_of_vetoed (by rwa [isVetoed_withMarks marks hset])]
      rfl
    · rw [h, fire_of_unlucky (by rwa [isVetoed_withMarks marks hset])
        (by rwa [losesChance_withMarks]), losesChance_withMarks]
      rfl
    · have hthrough' : (s.withMarks marks).LetsThrough w set forced rule := by
        constructor
        · rw [isVetoed_withMarks marks hset]
          exact hthrough.unvetoed
        · rw [losesChance_withMarks]
          exact hthrough.lucky
      rw [h, hthrough'.fire_eq, shoot_withMarks marks hset]
      rcases follow_cases set o links depth rule (shoot set o depth forced rule s w) with
        ⟨hstop, hend⟩ | ⟨left, next, rfl, hnext, hgo⟩
      · rw [hend, follow_of_stop hstop]
      · have hrules := (keeps_shoot set o depth forced rule s w).rules
        have hset' : (shoot set o depth forced rule s w).script.owns set = false := by
          unfold owns
          rw [hrules]
          exact hset
        rw [hgo, follow_of_next hnext, Progress.andThen_withMarks]
        rw [ih left (Nat.lt_succ_self left) hset']

end

theorem inTurn_withMarks {P : Script → Prop} {α : Type} {stage : α → Script → World → Progress}
    {xs : List α} (h : ∀ x ∈ xs, ∀ t v, P t →
      stage x (t.withMarks marks) v = (stage x t v).withMarks marks ∧ P (stage x t v).script)
    {s : Script} (hs : P s) (w : World) :
    inTurn stage xs (s.withMarks marks) w = (inTurn stage xs s w).withMarks marks := by
  induction xs generalizing s w with
  | nil => rfl
  | cons x xs ih =>
    obtain ⟨hx, hkept⟩ := h x List.mem_cons_self s w hs
    rw [inTurn_cons, inTurn_cons, hx]
    apply Progress.andThen_withMarks
    exact ih (fun y hy => h y (List.mem_cons_of_mem _ hy)) hkept _

/-- The script marks no rules of timed action lists. -/
def Apart (s : Script) : Prop :=
  ∀ id set, s.store.timedList? id = some set → s.owns set = false

theorem Apart.of_keeps {s t : Script} (h : s.Apart) (hk : s.Keeps t) : t.Apart := by
  unfold Apart owns
  rw [hk.store, hk.rules]
  exact h

theorem fireStep_withMarks {s : Script} (ha : s.Apart) {id : UInt32} {runner : ListRunner}
    (hr : s.store.timedList? id = some runner.rules) (index : Nat) (w : World) :
    (s.withMarks marks).fireStep runner index w =
      (s.fireStep runner index w).withMarks marks := by
  have hrules := ha id runner.rules hr
  unfold fireStep
  cases runner.rules.rules[index]? with
  | none => rfl
  | some rule =>
    exact congrArg Prod.snd
      (fire_withMarks marks hrules _ s.config.maxLinkDepth.toNat 0 false rule w)

theorem resume_withMarks {s : Script} (ha : s.Apart) {id : UInt32} {runner : ListRunner}
    (hr : s.store.timedList? id = some runner.rules) (due : List Nat) (journal : List Incident)
    (w : World) :
    ({ script := s.withMarks marks, world := w, journal } : Progress).andThen
        (inTurn (fireStep runner) due) =
      (({ script := s, world := w, journal } : Progress).andThen
        (inTurn (fireStep runner) due)).withMarks marks := by
  apply Progress.andThen_withMarks marks { script := s, world := w, journal }
  apply inTurn_withMarks marks _ (Keeps.refl s)
  intro index _ t v ht
  have hr' : t.store.timedList? id = some runner.rules := ht.store ▸ hr
  refine ⟨fireStep_withMarks marks (ha.of_keeps ht) hr' index v, ht.trans ?_⟩
  unfold fireStep
  split
  · exact (fires_fireHead _ _ _ _ _ _).keeps.toKeeps
  · exact .refl t

theorem advanceList_withMarks {s : Script} (hs : s.Listed) (ha : s.Apart) (deltaMs : UInt32)
    (inCombat : Bool) (id : UInt32) (w : World) :
    (s.withMarks marks).advanceList deltaMs inCombat id w =
      (s.advanceList deltaMs inCombat id w).withMarks marks := by
  have hlists : (s.withMarks marks).lists = s.lists := rfl
  have hrng : (s.withMarks marks).rng = s.rng := rfl
  unfold advanceList
  rw [hlists, hrng]
  cases hrunner : s.lists[id]? with
  | none => rfl
  | some runner =>
    dsimp only
    have hrules := runner.rules_advance deltaMs inCombat s.rng
    generalize runner.advance deltaMs inCombat s.rng = adv at hrules ⊢
    obtain ⟨due, runner', rng⟩ := adv
    have hstored : s.store.timedList? id = some runner'.rules := by
      rw [hrules]
      exact hs id runner hrunner
    have hapart : ({ s with rng, lists := s.lists.insert id runner' } : Script).Apart := ha
    have hsteps := resume_withMarks marks hapart hstored due [.resumed id due] w
    by_cases hfinished : runner'.isFinished = true
    · rw [if_pos hfinished, if_pos hfinished]
      apply Eq.trans (congrArg (fun p : Progress => p.andThen (dropList id)) hsteps)
      exact Progress.andThen_withMarks marks _ rfl
    · rw [if_neg hfinished, if_neg hfinished]
      exact hsteps

theorem advanceLists_withMarks {s : Script} (hs : s.Listed) (ha : s.Apart) (deltaMs : UInt32)
    (w : World) :
    (s.withMarks marks).advanceLists deltaMs w =
      (s.advanceLists deltaMs w).withMarks marks := by
  have hlist : ∀ id ∈ s.lists.keys, ∀ (t : Script) (v : World), t.Listed ∧ t.Apart →
      (t.withMarks marks).advanceList deltaMs (w.inCombat s.owner) id v =
        (t.advanceList deltaMs (w.inCombat s.owner) id v).withMarks marks ∧
      (t.advanceList deltaMs (w.inCombat s.owner) id v).script.Listed ∧
        (t.advanceList deltaMs (w.inCombat s.owner) id v).script.Apart := by
    rintro id - t v ⟨hlisted, hapart⟩
    have hwalks := lasts_listLaw.walks_advanceList (w := v) hlisted deltaMs (w.inCombat s.owner) id
    exact ⟨advanceList_withMarks marks hlisted hapart deltaMs _ id v, hwalks.listed,
      hapart.of_keeps hwalks.keeps⟩
  exact inTurn_withMarks marks hlist ⟨hs, ha⟩ w

end Script

end TriggerScript
