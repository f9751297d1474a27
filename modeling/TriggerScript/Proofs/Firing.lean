import TriggerScript.Proofs.Dispatching
import TriggerScript.Script

/-!
# What firing does

A rule fires with the rules that it links to. Whatever they are, firing leaves the phase, the
timers, the counters, the deferred signals and the running lists of the script alone; each rule that
fires passed its phase gate, and only the first one fires at the depth that firing started with.
-/

namespace TriggerScript.Script

structure Keeps (s t : Script) : Prop where
  owner : t.owner = s.owner
  store : t.store = s.store
  rules : t.rules = s.rules
  config : t.config = s.config

theorem Keeps.refl (s : Script) : s.Keeps s := ⟨rfl, rfl, rfl, rfl⟩

theorem Keeps.trans {s t u : Script} (h : s.Keeps t) (h' : t.Keeps u) : s.Keeps u :=
  ⟨h'.owner.trans h.owner, h'.store.trans h.store, h'.rules.trans h.rules,
    h'.config.trans h.config⟩

structure KeepsVisible (s t : Script) : Prop extends s.Keeps t where
  despawned : t.despawned = s.despawned
  phase : t.state.phase = s.state.phase
  counters : t.state.counters = s.state.counters
  deferred : t.state.deferred = s.state.deferred

theorem KeepsVisible.refl (s : Script) : s.KeepsVisible s := ⟨.refl s, rfl, rfl, rfl, rfl⟩

theorem KeepsVisible.trans {s t u : Script} (h : s.KeepsVisible t) (h' : t.KeepsVisible u) :
    s.KeepsVisible u where
  toKeeps := h.toKeeps.trans h'.toKeeps
  despawned := h'.despawned.trans h.despawned
  phase := h'.phase.trans h.phase
  counters := h'.counters.trans h.counters
  deferred := h'.deferred.trans h.deferred

structure KeepsOnFiring (s t : Script) : Prop extends s.KeepsVisible t where
  lists : t.lists = s.lists
  timers : t.state.timers = s.state.timers

theorem KeepsOnFiring.refl (s : Script) : s.KeepsOnFiring s := ⟨.refl s, rfl, rfl⟩

theorem KeepsOnFiring.trans {s t u : Script} (h : s.KeepsOnFiring t) (h' : t.KeepsOnFiring u) :
    s.KeepsOnFiring u where
  toKeepsVisible := h.toKeepsVisible.trans h'.toKeepsVisible
  lists := h'.lists.trans h.lists
  timers := h'.timers.trans h.timers

theorem keeps_losesChance (forced : Bool) (rule : Rule) (s : Script) :
    s.KeepsOnFiring (s.losesChance forced rule).2 := by
  unfold losesChance
  split <;> exact ⟨⟨⟨rfl, rfl, rfl, rfl⟩, rfl, rfl, rfl, rfl⟩, rfl, rfl⟩

theorem keeps_mark (set : RuleSet) (rule : Rule) (s : Script) :
    s.KeepsOnFiring (s.mark set rule) := by
  unfold mark
  split <;> exact ⟨⟨⟨rfl, rfl, rfl, rfl⟩, rfl, rfl, rfl, rfl⟩, rfl, rfl⟩

@[simp] theorem staged_losesChance (forced : Bool) (rule : Rule) (s : Script) :
    (s.losesChance forced rule).2.state.staged = s.state.staged := by
  unfold losesChance
  split <;> rfl

@[simp] theorem staged_mark (set : RuleSet) (rule : Rule) (s : Script) :
    (s.mark set rule).state.staged = s.state.staged := by
  unfold mark
  split <;> rfl

/-- A rule of the set that fired through links, deeper than `depth`. -/
def Linked (set : RuleSet) (phase : PhaseMask) (depth : Nat) (i : Incident) : Prop :=
  ∃ rule d n, i = .fired rule d n ∧ rule ∈ set.rules ∧ depth < d ∧
    rule.spec.phase.allows phase = true

/-- The journal of firing a rule: the rule itself, then what it links to. -/
def FiringJournal (set : RuleSet) (phase : PhaseMask) (depth : Nat) (rule : Rule)
    (journal : List Incident) : Prop :=
  ∃ n linked, journal = .fired rule depth n :: linked ∧ rule.spec.phase.allows phase = true ∧
    ∀ i ∈ linked, Linked set phase depth i

/-- A rule that fired when its phase gate was open. -/
def Passed (phase : PhaseMask) (i : Incident) : Prop :=
  ∃ rule d n, i = .fired rule d n ∧ rule.spec.phase.allows phase = true

theorem FiringJournal.passed {set : RuleSet} {phase : PhaseMask} {depth : Nat} {rule : Rule}
    {journal : List Incident} (h : FiringJournal set phase depth rule journal) :
    ∀ i ∈ journal, Passed phase i := by
  obtain ⟨n, linked, rfl, hgate, hl⟩ := h
  intro i hi
  rcases List.mem_cons.mp hi with rfl | hi
  · exact ⟨rule, depth, n, rfl, hgate⟩
  · obtain ⟨x, d, m, rfl, -, -, hx⟩ := hl i hi
    exact ⟨x, d, m, rfl, hx⟩

/-- What firing a rule comes to. -/
structure Fires (set : RuleSet) (depth : Nat) (rule : Rule) (s : Script) (w : World)
    (outcome : FireOutcome) (p : Progress) : Prop where
  keeps : s.KeepsOnFiring p.script
  world : w.Becomes p.world
  counters : p.script.state.staged.counters =
    s.state.staged.counters ++ p.journal.flatMap (·.counterOps)
  journal : outcome = .fired → FiringJournal set s.state.phase depth rule p.journal
  silent : outcome ≠ .fired → p.journal = []

theorem Fires.passed {set : RuleSet} {depth : Nat} {rule : Rule} {s : Script} {w : World}
    {outcome : FireOutcome} {p : Progress} (h : Fires set depth rule s w outcome p) :
    ∀ i ∈ p.journal, Passed s.state.phase i := by
  by_cases ho : outcome = .fired
  · exact (h.journal ho).passed
  · rw [h.silent ho]
    intro i hi
    cases hi

section

variable {s : Script} {w : World} {set : RuleSet} {rule : Rule}

structure Clears (s : Script) (w : World) (rule : Rule) : Prop where
  difficulty : rule.flags.allowsDifficulty w.difficulty = true
  debug : rule.flags.contains .debugOnly = true → s.config.debugRules = true
  charm : w.charmed s.owner = true →
    rule.flags.contains .whileCharmed = true ∨ ∃ onRemove, rule.event = .charmed onRemove

theorem isCharmedAway_eq_false_iff : s.isCharmedAway w rule = false ↔
    (w.charmed s.owner = true →
      rule.flags.contains .whileCharmed = true ∨ ∃ onRemove, rule.event = .charmed onRemove) := by
  unfold isCharmedAway
  cases rule.event <;> simp

theorem isVetoed_eq_false_iff : s.isVetoed w set rule = false ↔
    rule.spec.phase.allows s.state.phase = true ∧ s.isSpent set rule = false ∧
      s.Clears w rule := by
  constructor
  · intro h
    simp only [isVetoed, Bool.or_eq_false_iff] at h
    obtain ⟨⟨⟨⟨hphase, hspent⟩, hdifficulty⟩, hdebug⟩, hcharm⟩ := h
    exact ⟨by simpa using hphase, hspent, by simpa using hdifficulty, by simpa using hdebug,
      isCharmedAway_eq_false_iff.mp hcharm⟩
  · rintro ⟨hphase, hspent, hclear⟩
    have hdebug := hclear.debug
    have hcharm := isCharmedAway_eq_false_iff.mpr hclear.charm
    simpa [isVetoed, hphase, hspent, hclear.difficulty, hcharm] using hdebug

theorem allows_of_not_isVetoed (h : ¬s.isVetoed w set rule = true) :
    rule.spec.phase.allows s.state.phase = true :=
  (isVetoed_eq_false_iff.mp (by simpa using h)).1

end

theorem fires_perform (set : RuleSet) (rule : Rule) (o : Occasion) (depth : Nat) (s : Script)
    (w : World) (hgate : rule.spec.phase.allows s.state.phase = true) :
    Fires set depth rule s w .fired (s.perform rule o depth w) := by
  have h := Dispatch.leads_execute o rule { world := w, state := s.state, rng := s.rng }
  refine ⟨⟨⟨⟨rfl, rfl, rfl, rfl⟩, rfl, ?_, ?_, ?_⟩, rfl, ?_⟩, h.world, ?_, ?_, ?_⟩
  · exact (congrArg ScriptState.phase h.state :)
  · exact (congrArg ScriptState.counters h.state :)
  · exact (congrArg ScriptState.deferred h.state :)
  · exact (congrArg ScriptState.timers h.state :)
  · change _ = s.state.staged.counters ++ (rule.counterOps ++ [])
    rw [List.append_nil]
    exact h.counters
  · intro _
    exact ⟨_, [], rfl, hgate, by simp⟩
  · intro hn
    exact absurd rfl hn

theorem Fires.of_keeps {set : RuleSet} {depth : Nat} {rule : Rule} {s t : Script} {w : World}
    {outcome : FireOutcome} {p : Progress} (h : Fires set depth rule t w outcome p)
    (hk : s.KeepsOnFiring t) (hst : t.state.staged = s.state.staged) :
    Fires set depth rule s w outcome p where
  keeps := hk.trans h.keeps
  world := h.world
  counters := by rw [h.counters, hst]
  journal := by
    intro ho
    rw [← hk.phase]
    exact h.journal ho
  silent := h.silent

theorem Fires.nothing {set : RuleSet} {depth : Nat} {rule : Rule} {s t : Script} {w : World}
    {outcome : FireOutcome} (hk : s.KeepsOnFiring t) (hst : t.state.staged = s.state.staged)
    (ho : outcome ≠ .fired) : Fires set depth rule s w outcome { script := t, world := w } where
  keeps := hk
  world := .refl w
  counters := by
    rw [hst]
    exact (List.append_nil _).symm
  journal := fun h => absurd h ho
  silent := fun _ => rfl

theorem fires_head (set : RuleSet) (o : Occasion) (depth : Nat) (forced : Bool) (rule : Rule)
    (s : Script) (w : World) (hv : ¬s.isVetoed w set rule = true) :
    Fires set depth rule s w .fired
      (((s.losesChance forced rule).2.mark set rule).perform rule o depth w) := by
  have hk := keeps_losesChance forced rule s
  have hm := keeps_mark set rule (s.losesChance forced rule).2
  have hgate : rule.spec.phase.allows
      ((s.losesChance forced rule).2.mark set rule).state.phase = true := by
    rw [hm.phase, hk.phase]
    exact allows_of_not_isVetoed hv
  have hp := fires_perform set rule o depth _ w hgate
  exact (hp.of_keeps hm (staged_mark _ _ _)).of_keeps hk (staged_losesChance _ _ _)

theorem fires_unless (set : RuleSet) (depth : Nat) (forced : Bool) (rule : Rule) (s : Script)
    (w : World) (q : Progress)
    (hq : ¬s.isVetoed w set rule = true → Fires set depth rule s w .fired q) :
    let r : FireOutcome × Progress :=
      if s.isVetoed w set rule then (.vetoed, { script := s, world := w })
      else if (s.losesChance forced rule).1 then
        (.chanceFailed, { script := (s.losesChance forced rule).2, world := w })
      else (.fired, q)
    Fires set depth rule s w r.1 r.2 := by
  dsimp only
  split
  · exact .nothing (.refl s) rfl (by simp)
  · rename_i hv
    split
    · exact .nothing (keeps_losesChance _ _ _) (staged_losesChance _ _ _) (by simp)
    · exact hq hv

/-- A rule that fired, followed by the rule it links to. -/
theorem Fires.follow {set : RuleSet} {depth : Nat} {rule next : Rule} {s : Script} {w : World}
    {outcome : FireOutcome} {p : Progress} {stage : Script → World → Progress}
    (h : Fires set depth rule s w .fired p) (hnext : next ∈ set.rules)
    (h' : Fires set (depth + 1) next p.script p.world outcome (stage p.script p.world)) :
    Fires set depth rule s w .fired (p.andThen stage) where
  keeps := h.keeps.trans h'.keeps
  world := h.world.trans h'.world
  counters := by
    change (stage p.script p.world).script.state.staged.counters = _
    rw [h'.counters, h.counters, List.append_assoc]
    change _ = _ ++ (p.journal ++ (stage p.script p.world).journal).flatMap _
    rw [List.flatMap_append]
  journal := by
    intro _
    obtain ⟨n, linked, hj, hgate, hl⟩ := h.journal rfl
    refine ⟨n, linked ++ (stage p.script p.world).journal, ?_, hgate, ?_⟩
    · change p.journal ++ _ = _
      rw [hj, List.cons_append]
    · intro i hi
      rcases List.mem_append.mp hi with hi | hi
      · exact hl i hi
      · by_cases ho : outcome = .fired
        · obtain ⟨m, linked', hj', hgate', hl'⟩ := h'.journal ho
          rw [hj'] at hi
          rw [h.keeps.phase] at hgate' hl'
          rcases List.mem_cons.mp hi with rfl | hi
          · exact ⟨next, depth + 1, m, rfl, hnext, Nat.lt_succ_self _, hgate'⟩
          · obtain ⟨x, d, k, rfl, hx, hd, hg⟩ := hl' i hi
            exact ⟨x, d, k, rfl, hx, Nat.lt_of_succ_lt hd, hg⟩
        · rw [h'.silent ho] at hi
          cases hi
  silent := fun hn => absurd rfl hn

/-- Firing does what `Fires` says, to any depth of links. -/
theorem fires_fire (set : RuleSet) (o : Occasion) (links depth : Nat) (forced : Bool) (rule : Rule)
    (s : Script) (w : World) :
    Fires set depth rule s w (fire set o links depth forced rule s w).1
      (fire set o links depth forced rule s w).2 := by
  induction links generalizing depth forced rule s w with
  | zero =>
    unfold fire
    apply fires_unless
    exact fires_head set o depth forced rule s w
  | succ links ih =>
    unfold fire
    apply fires_unless
    intro hv
    have hhead := fires_head set o depth forced rule s w hv
    split
    · rename_i links' next hlinks hnext
      cases hlinks
      obtain ⟨id, -, hid⟩ := Option.bind_eq_some_iff.mp hnext
      apply hhead.follow (RuleSet.mem_of_find? hid)
      exact ih _ _ _ _ _
    · exact hhead

theorem fires_fireHead (set : RuleSet) (o : Occasion) (forced : Bool) (rule : Rule) (s : Script)
    (w : World) :
    Fires set 0 rule s w (fireHead set o forced rule s w).1 (fireHead set o forced rule s w).2 :=
  fires_fire set o _ 0 forced rule s w

def cools (rule : Rule) : Bool := rule.isPolled || rule.spec.cooldownMax > 0

theorem timers_rollCooldown (rule : Rule) (outcome : FireOutcome) (s : Script) :
    (s.rollCooldown rule outcome).state.timers =
      if cools rule then
        s.state.timers.insert rule.id
          { nextFireAt := (s.rng.roll rule.spec.cooldownMin rule.spec.cooldownMax).1
            exhausted := rule.isPolled && rule.spec.cooldownMax == 0 && outcome == .fired }
      else s.state.timers := by
  unfold rollCooldown cools
  dsimp only
  split <;> rfl

theorem keeps_rollCooldown (rule : Rule) (outcome : FireOutcome) (s : Script) :
    s.KeepsVisible (s.rollCooldown rule outcome) ∧
      (s.rollCooldown rule outcome).lists = s.lists ∧
      (s.rollCooldown rule outcome).state.staged = s.state.staged := by
  unfold rollCooldown
  dsimp only
  split <;> exact ⟨⟨⟨rfl, rfl, rfl, rfl⟩, rfl, rfl, rfl, rfl⟩, rfl, rfl⟩

/-- What an attempt at a rule comes to; its timers are told by `timers_attempt`. -/
structure Attempts (rule : Rule) (s : Script) (w : World) (outcome : FireOutcome)
    (p : Progress) : Prop where
  keeps : s.KeepsVisible p.script
  lists : p.script.lists = s.lists
  world : w.Becomes p.world
  counters : p.script.state.staged.counters =
    s.state.staged.counters ++ p.journal.flatMap (·.counterOps)
  journal : outcome = .fired → FiringJournal s.rules s.state.phase 0 rule p.journal
  silent : outcome ≠ .fired → p.journal = []

theorem Attempts.passed {rule : Rule} {s : Script} {w : World} {outcome : FireOutcome}
    {p : Progress} (h : Attempts rule s w outcome p) : ∀ i ∈ p.journal, Passed s.state.phase i := by
  by_cases ho : outcome = .fired
  · exact (h.journal ho).passed
  · rw [h.silent ho]
    intro i hi
    cases hi

/-- How an attempt at an own rule ends. -/
def outcome (o : Occasion) (rule : Rule) (s : Script) (w : World) : FireOutcome :=
  (fireHead s.rules o false rule s w).1

theorem fire_of_certain {set : RuleSet} {o : Occasion} {links depth : Nat} {rule : Rule}
    {s : Script} {w : World} (hc : 100 ≤ rule.spec.chance)
    (hv : s.isVetoed w set rule = false) :
    (fire set o links depth false rule s w).1 = .fired := by
  have hdraw : s.losesChance false rule = (false, s) := by
    unfold losesChance
    rw [if_neg]
    simp only [Bool.not_false, Bool.true_and, decide_eq_true_eq]
    exact UInt8.not_lt.mpr hc
  cases links with
  | zero =>
    unfold fire
    rw [hv, hdraw]
    rfl
  | succ links =>
    unfold fire
    rw [hv, hdraw]
    rfl

theorem outcome_of_certain {rule : Rule} (hc : 100 ≤ rule.spec.chance) (o : Occasion) (s : Script)
    (w : World) : s.outcome o rule w = .fired ∨ s.outcome o rule w = .vetoed := by
  by_cases hv : s.isVetoed w s.rules rule = true
  · right
    unfold outcome fireHead fire
    rw [if_pos hv]
  · left
    exact fire_of_certain hc (by simpa using hv)

theorem attempt_eq (o : Occasion) (rule : Rule) (s : Script) (w : World) :
    s.attempt o rule w =
      let p := (fireHead s.rules o false rule s w).2
      if s.outcome o rule w = .vetoed then p
      else { p with script := p.script.rollCooldown rule (s.outcome o rule w) } := rfl

theorem attempts_attempt (o : Occasion) (rule : Rule) (s : Script) (w : World) :
    Attempts rule s w (s.outcome o rule w) (s.attempt o rule w) := by
  have h := fires_fireHead s.rules o false rule s w
  rw [attempt_eq]
  dsimp only
  split
  · exact ⟨h.keeps.toKeepsVisible, h.keeps.lists, h.world, h.counters, h.journal, h.silent⟩
  · obtain ⟨hk, hl, hst⟩ := keeps_rollCooldown rule (s.outcome o rule w)
      (fireHead s.rules o false rule s w).2.script
    refine ⟨h.keeps.toKeepsVisible.trans hk, hl.trans h.keeps.lists, h.world, ?_, h.journal,
      h.silent⟩
    rw [hst]
    exact h.counters

/-- An attempt sets the timer of its own rule at most, and only unless the rule is vetoed. -/
theorem timers_attempt (o : Occasion) (rule : Rule) (s : Script) (w : World) :
    ∃ g : Rng, (s.attempt o rule w).script.state.timers =
      if s.outcome o rule w ≠ .vetoed ∧ cools rule = true then
        s.state.timers.insert rule.id
          { nextFireAt := (g.roll rule.spec.cooldownMin rule.spec.cooldownMax).1
            exhausted := rule.isPolled && rule.spec.cooldownMax == 0 &&
              s.outcome o rule w == .fired }
      else s.state.timers := by
  have h := fires_fireHead s.rules o false rule s w
  refine ⟨(fireHead s.rules o false rule s w).2.script.rng, ?_⟩
  rw [attempt_eq]
  dsimp only
  by_cases hv : s.outcome o rule w = .vetoed
  · rw [if_pos hv, if_neg (fun hc => hc.1 hv)]
    exact h.keeps.timers
  · rw [if_neg hv]
    dsimp only
    rw [timers_rollCooldown, h.keeps.timers]
    by_cases hc : cools rule = true
    · rw [if_pos hc, if_pos ⟨hv, hc⟩]
    · rw [if_neg hc, if_neg (fun h => hc h.2)]

end TriggerScript.Script
