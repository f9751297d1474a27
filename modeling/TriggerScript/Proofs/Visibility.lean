import TriggerScript.Proofs.Reachability

/-!
# Visibility of changes

What the steps of a pass change becomes visible with the commit. Up to then every rule sees the
phase in which the pass began, or no phase at all once the script was reset.
-/

namespace TriggerScript

/-- The phase that rules see after some incidents of a pass. -/
def phaseAfter (phase : PhaseMask) (journal : List Incident) : PhaseMask :=
  if .reset ∈ journal then .empty else phase

@[simp] theorem phaseAfter_nil (phase : PhaseMask) : phaseAfter phase [] = phase := rfl

theorem phaseAfter_append (phase : PhaseMask) (js ks : List Incident) :
    phaseAfter phase (js ++ ks) = phaseAfter (phaseAfter phase js) ks := by
  unfold phaseAfter
  by_cases hk : Incident.reset ∈ ks
  · rw [if_pos (List.mem_append_right js hk), if_pos hk]
  · rw [if_neg hk]
    simp only [List.mem_append, hk, or_false]

theorem mem_of_split {α : Type} {js before after : List α} {i : α}
    (h : js = before ++ i :: after) : i ∈ js := by
  rw [h]
  exact List.mem_append_cons_self

theorem split_append {α : Type} {js ks before after : List α} {i : α}
    (h : js ++ ks = before ++ i :: after) :
    (∃ after', js = before ++ i :: after' ∧ after = after' ++ ks) ∨
      ∃ before', before = js ++ before' ∧ ks = before' ++ i :: after := by
  rcases List.append_eq_append_iff.mp h with ⟨as, rfl, hks⟩ | ⟨bs, rfl, hbs⟩
  · exact .inr ⟨as, rfl, hks⟩
  · cases bs with
    | nil => exact .inr ⟨[], by simp, hbs.symm⟩
    | cons b bs =>
      rw [List.cons_append, List.cons.injEq] at hbs
      obtain ⟨rfl, rfl⟩ := hbs
      exact .inl ⟨bs, rfl, rfl⟩

/-- Every rule that fired passed its phase gate, in the phase seen at its place. -/
def Gated (phase : PhaseMask) (journal : List Incident) : Prop :=
  ∀ before rule depth commands after, journal = before ++ .fired rule depth commands :: after →
    rule.spec.phase.allows (phaseAfter phase before) = true

theorem Gated.append {phase : PhaseMask} {js ks : List Incident} (h : Gated phase js)
    (h' : Gated (phaseAfter phase js) ks) : Gated phase (js ++ ks) := by
  intro before rule depth commands after hsplit
  rcases split_append hsplit with ⟨after', hjs, -⟩ | ⟨before', rfl, hks⟩
  · exact h before rule depth commands after' hjs
  · rw [phaseAfter_append]
    exact h' before' rule depth commands after hks

theorem gated_singleton (phase : PhaseMask) {i : Incident} (hi : i.record? = none) :
    Gated phase [i] := by
  intro before rule depth commands after hsplit
  have hmem : Incident.fired rule depth commands ∈ [i] := mem_of_split hsplit
  rw [List.mem_singleton] at hmem
  rw [← hmem] at hi
  cases hi

namespace Script

theorem not_reset_of_passed {phase : PhaseMask} {journal : List Incident}
    (h : ∀ i ∈ journal, Passed phase i) : Incident.reset ∉ journal := by
  intro hmem
  obtain ⟨rule, d, n, hi, -⟩ := h _ hmem
  cases hi

theorem gated_of_passed {phase : PhaseMask} {journal : List Incident}
    (h : ∀ i ∈ journal, Passed phase i) : Gated phase journal := by
  intro before rule depth commands after hsplit
  have hbefore : Incident.reset ∉ before := by
    intro hmem
    apply not_reset_of_passed h
    rw [hsplit]
    exact List.mem_append_left _ hmem
  rw [phaseAfter, if_neg hbefore]
  obtain ⟨rule', d, n, hi, hgate⟩ := h (.fired rule depth commands) (by simp [hsplit])
  cases hi
  exact hgate

/-- What a stretch before the commit comes to: visible are the changes of a reset alone. -/
structure Pends (s : Script) (p : Progress) : Prop where
  phase : p.script.state.phase = phaseAfter s.state.phase p.journal
  gated : Gated s.state.phase p.journal
  counters : Incident.reset ∉ p.journal → p.script.state.counters = s.state.counters
  staged : Incident.reset ∉ p.journal → p.script.state.staged.counters =
    s.state.staged.counters ++ p.journal.flatMap (·.counterOps)
  deferred : s.state.deferred = [] → p.script.state.deferred = []

theorem Pends.join {s : Script} {p : Progress} {stage : Script → World → Progress}
    (h : s.Pends p) (h' : p.script.Pends (stage p.script p.world)) :
    s.Pends (p.andThen stage) where
  phase := by
    rw [Progress.script_andThen, Progress.journal_andThen, phaseAfter_append, ← h.phase]
    exact h'.phase
  gated := by
    apply h.gated.append
    rw [← h.phase]
    exact h'.gated
  counters := by
    intro hn
    rw [Progress.journal_andThen, List.mem_append, not_or] at hn
    exact (h'.counters hn.2).trans (h.counters hn.1)
  staged := by
    intro hn
    rw [Progress.journal_andThen, List.mem_append, not_or] at hn
    rw [Progress.script_andThen, Progress.journal_andThen, h'.staged hn.2, h.staged hn.1,
      List.flatMap_append, List.append_assoc]
  deferred := fun hd => h'.deferred (h.deferred hd)

theorem pends_of_passed {s : Script} {p : Progress} (hk : s.KeepsVisible p.script)
    (hops : p.script.state.staged.counters =
      s.state.staged.counters ++ p.journal.flatMap (·.counterOps))
    (h : ∀ i ∈ p.journal, Passed s.state.phase i) : s.Pends p where
  phase := by rw [hk.phase, phaseAfter, if_neg (not_reset_of_passed h)]
  gated := gated_of_passed h
  counters := fun _ => hk.counters
  staged := fun _ => hops
  deferred := fun hd => hk.deferred.trans hd

theorem Attempts.pends {rule : Rule} {s : Script} {w : World} {outcome : FireOutcome}
    {p : Progress} (h : Attempts rule s w outcome p) : s.Pends p :=
  pends_of_passed h.keeps h.counters h.passed

theorem Fires.pends {set : RuleSet} {depth : Nat} {rule : Rule} {s : Script} {w : World}
    {outcome : FireOutcome} {p : Progress} (h : Fires set depth rule s w outcome p) : s.Pends p :=
  pends_of_passed h.keeps.toKeepsVisible h.counters h.passed

theorem pends_note {s t : Script} (w : World) (hk : s.KeepsVisible t)
    (hst : t.state.staged = s.state.staged) {i : Incident} (hr : i.record? = none)
    (hi : i ≠ .reset) : s.Pends { script := t, world := w, journal := [i] } where
  phase := by
    rw [phaseAfter, if_neg (by simpa using hi.symm)]
    exact hk.phase
  gated := gated_singleton _ hr
  counters := fun _ => hk.counters
  staged := by
    intro _
    have hops : i.counterOps = [] := by
      cases i with
      | fired => cases hr
      | _ => rfl
    change t.state.staged.counters = _ ++ (i.counterOps ++ [])
    rw [hst, hops]
    exact (List.append_nil _).symm
  deferred := fun hd => hk.deferred.trans hd

theorem Aside.staged {s t : Script} (h : s.Aside t) : t.state.staged = s.state.staged := by
  rw [h]

theorem pends_chains : Chains fun s _ p => s.Pends p where
  join _ h h' := h.join h'
  aside _ h := by
    apply pends_of_passed h.keeps
    · rw [h.staged]
      exact (List.append_nil _).symm
    · intro i hi
      cases hi

theorem pends_hearingLaw : HearingLaw fun s _ p => s.Pends p where
  toChains := pends_chains
  heard s w _ := pends_note w (.refl s) rfl rfl (by simp)
  react {s rule} w signal _ _ := by
    unfold react
    split
    · exact (attempts_attempt _ rule s w).pends
    · exact pends_of_passed (.refl s) (List.append_nil _).symm (by simp)
  renewed s w :=
    { phase := by
        rw [resetState_eq]
        rfl
      gated := gated_singleton _ rfl
      counters := fun hn => absurd List.mem_cons_self hn
      staged := fun hn => absurd List.mem_cons_self hn
      deferred := by
        intro _
        rw [resetState_eq]
        rfl }

theorem pends_listLaw : ListLaw fun s _ p => s.Pends p where
  toChains := pends_chains
  resumed s w _ _ := pends_note w (.refl s) rfl rfl (by simp)
  step {s _ runner} w index _ _ := by
    unfold fireStep
    split
    · exact (fires_fireHead runner.rules _ false _ s w).pends
    · exact pends_of_passed (.refl s) (List.append_nil _).symm (by simp)

theorem pends_poll (deltaMs : UInt32) (inCombat : Bool) (rule : Rule) (s : Script) (w : World) :
    s.Pends (s.poll deltaMs inCombat rule w) := by
  have hnothing : ∀ t : Script, s.KeepsVisible t → t.state.staged = s.state.staged →
      s.Pends { script := t, world := w } := by
    intro t hk hst
    apply pends_of_passed hk
    · rw [hst]
      exact (List.append_nil _).symm
    · simp
  have htick := hnothing _ (keeps_tickTimer deltaMs rule s) rfl
  rcases poll_cases deltaMs inCombat rule s w with h | ⟨-, h | ⟨-, o, h⟩⟩
  · rw [h]
    exact hnothing s (.refl s) rfl
  · rw [h]
    exact htick
  · rw [h]
    exact @Pends.join s { script := s.tickTimer deltaMs rule, world := w }
      (fun t v => t.attempt o rule v) htick (attempts_attempt o rule _ w).pends

theorem pends_stages {s : Script} (hs : s.Listed) (deltaMs : UInt32) (signal : Option Signal)
    (w : World) : s.taken.Pends (s.stages deltaMs signal w) := by
  have hwalks := pends_hearingLaw.walks_stages (w := w) hs deltaMs signal ?_ ?_
  · exact hwalks.law
  · intro t v _ hl
    apply pends_hearingLaw.walks_advancePolled hl
    · exact pends_note v (.refl t) rfl rfl (by simp)
    · intro rule _ u x _
      exact pends_poll deltaMs _ rule u x
  · intro t v _ hl
    exact pends_listLaw.walks_advanceLists hl deltaMs

theorem phase_resetState (s : Script) : s.resetState.state.phase = .empty := by
  rw [resetState_eq]
  rfl

theorem gated_startOver (s : Script) (w : World) (phase : PhaseMask) :
    Gated phase (s.startOver w).journal := by
  have hreact := pends_hearingLaw.walks_handleSignal (w := w) (listed_resetState s) .reset
  apply Gated.append (gated_singleton phase rfl)
  have hphase : phaseAfter phase [.reset] = s.resetState.state.phase := by
    rw [phase_resetState, phaseAfter, if_pos List.mem_cons_self]
  rw [hphase]
  exact hreact.law.gated

theorem gated_commit (s : Script) (w : World) (phase : PhaseMask) :
    Gated phase (s.commit w).journal := by
  unfold commit
  split
  · rw [Progress.journal_andThen, Progress.journal_andThen]
    simp only [settle, List.nil_append, List.append_nil]
    exact gated_startOver _ w phase
  · exact gated_of_passed (by simp [settle])

theorem gated_advance {s : Script} (hs : s.Listed) (deltaMs : UInt32) (signal : Option Signal)
    (w : World) : Gated s.state.phase (s.advance deltaMs signal w).journal := by
  cases hd : s.despawned with
  | true =>
    rw [advance_of_despawned hd]
    exact gated_of_passed (by simp)
  | false =>
    by_cases hsig : signal = some .despawn
    · rw [hsig, advance_despawn hd]
      have htold := pends_hearingLaw.walks_handleDeferred (w := w) hs
      apply htold.law.gated.append
      unfold despawn
      split
      · exact gated_of_passed (by simp)
      · have hlast := pends_hearingLaw.walks_handleSignal (w := (s.handleDeferred w).world)
          htold.listed .despawn
        rw [← htold.law.phase]
        exact hlast.law.gated.append (gated_singleton _ rfl)
    · rw [advance_eq hd deltaMs hsig]
      exact (pends_stages hs deltaMs signal w).gated.append (gated_commit _ _ _)

/-- During a pass every rule that fires sees the phase in which the pass began, whatever the steps
before it changed; after a reset in the same pass it sees none, so its gate is open to all phases.
Between operations nothing is staged. -/
theorem changes_wait_for_commit {s : Script} (hs : s.Reachable) :
    (∀ deltaMs signal w before rule depth commands after,
      (s.advance deltaMs signal w).journal = before ++ .fired rule depth commands :: after →
      (Incident.reset ∉ before → rule.spec.phase.allows s.state.phase = true) ∧
      (Incident.reset ∈ before →
        rule.spec.phase.allows .empty = true ∧ rule.spec.phase = .always)) ∧
    ∀ w op, (s.operate w op).script.state.staged = {} := by
  constructor
  · intro deltaMs signal w before rule depth commands after hsplit
    have hgate := gated_advance hs.sound.listed deltaMs signal w before rule depth commands after
      hsplit
    unfold phaseAfter at hgate
    constructor
    · intro hn
      rwa [if_neg hn] at hgate
    · intro hr
      rw [if_pos hr] at hgate
      exact ⟨hgate, rule.spec.phase.allows_empty.mp hgate⟩
  · intro w op
    exact (sound_operate hs.sound w op).2.settled

private def phaseRule (id : RuleId) (event : Event) (phase : PhaseGate)
    (actions : List ActionStep) : Rule where
  link := .creature 100
  id
  spec := { event, phase, flags := .none, chance := 100, cooldownMin := 0, cooldownMax := 0 }
  actions
  target := { target := .none }
  linkTo := none
  comment := ""

private def awaken : Rule := phaseRule 1 .aiInit .always [{ action := .setEventPhase 1 }]

private def enrage : Rule := phaseRule 2 .aggro .always [{ action := .setEventPhase 2 }]

private def inSecond : Rule := phaseRule 3 .aggro (.phases (.single 2)) []

private def inFirst : Rule := phaseRule 4 .aggro (.phases (.single 1)) []

private def phased : Script :=
  ((fresh 1 { link := .creature 100, rules := [awaken, enrage, inSecond, inFirst] } ∅ {}
    { key := .replicate 8 0 }).operate .empty (.advance 0 (some .aiInit))).script

private def beforeInFirst : List Incident :=
  [.heard (.eventPhaseChange (.single 1)), .heard (.aggro 2), .fired enrage 0 0]

/-- In phase 1 a rule leads to phase 2. The rule for phase 2 does not fire in the same pass, that
for phase 1 does. -/
theorem first_phase_lasts_for_the_pass :
    phased.Reachable ∧ phased.state.phase = .single 1 ∧
      (phased.advance 0 (some (.aggro 2)) .empty).journal =
        beforeInFirst ++ .fired inFirst 0 0 :: [.polled 0 (.single 1) false] ∧
      inFirst.spec.phase.allows phased.state.phase = true ∧
      (phased.advance 0 (some (.aggro 2)) .empty).script.state.phase = .single 2 ∧
      (phased.operate .empty (.advance 0 (some (.aggro 2)))).script.state.staged = {} := by
  have hreach : phased.Reachable := .operate .empty _ (.fresh 1 _ ∅ {} _)
  have hjournal : (phased.advance 0 (some (.aggro 2)) .empty).journal =
      beforeInFirst ++ .fired inFirst 0 0 :: [.polled 0 (.single 1) false] := rfl
  have hwait := changes_wait_for_commit hreach
  refine ⟨hreach, rfl, hjournal, ?_, rfl, hwait.2 _ _⟩
  exact (hwait.1 0 _ .empty _ inFirst 0 0 _ hjournal).1 (by simp [beforeInFirst])

end Script

end TriggerScript
