import TriggerScript.Proofs.FiringLaws

/-!
# What firing stages

The steps of a rule stage their changes in order, whatever targets they find. What is staged after a
rule fired can thus be told from its actions alone, up to the draws of those that choose at random.
-/

namespace TriggerScript

/-- The changes that actions stage one after the other, in a script of the current phase. -/
inductive StagedBy (invoker : Option Handle) (phase : PhaseMask) :
    List Action → Staged → Staged → Prop
  | nil (st) : StagedBy invoker phase [] st st
  | cons {a as st st'} (g : Rng) :
      StagedBy invoker phase as ((a.staging invoker (st.phase.getD phase) g).1 st) st' →
      StagedBy invoker phase (a :: as) st st'

theorem Action.staging_of_not_isStaged {a : Action} (h : a.isStaged = false)
    (invoker : Option Handle) (pending : PhaseMask) (g : Rng) :
    a.staging invoker pending g = (id, g) := by
  cases a <;> first | rfl | cases h

theorem Action.not_isStaged_of_needsTargets {a : Action} (h : a.needsTargets = true) :
    a.isStaged = false := by
  simpa [h] using isStaged_and_needsTargets a

namespace Dispatch

variable {o : Occasion}

theorem staged_run (o : Occasion) (t : Targets) (literal : Position) (a : Action) (d : Dispatch) :
    (d.run o t literal a).state.staged =
      (a.staging o.invoker d.state.pendingPhase d.rng).1 d.state.staged :=
  congrArg ScriptState.staged (state_run o t literal a d)

/-- A step stages what its action stages. A step that is left out has an action that stages
nothing. -/
theorem stagedBy_runStep (rule : Rule) (shared : Targets) (d : Dispatch) (step : ActionStep) :
    ∃ g, (d.runStep o rule shared step).state.staged =
      (step.action.staging o.invoker d.state.pendingPhase g).1 d.state.staged := by
  have hskip : ∀ {b : Bool}, (step.action.needsTargets && b) = true →
      d.state.staged =
        (step.action.staging o.invoker d.state.pendingPhase d.rng).1 d.state.staged := by
    intro b h
    rw [Action.staging_of_not_isStaged
      (Action.not_isStaged_of_needsTargets (Bool.and_eq_true_iff.mp h).1)]
    rfl
  unfold runStep
  split
  · split
    · rename_i h
      exact ⟨d.rng, hskip h⟩
    · exact ⟨d.rng, staged_run o shared _ _ d⟩
  · rename_i target _
    dsimp only
    split
    · rename_i h
      exact ⟨d.rng, hskip h⟩
    · exact ⟨_, staged_run o _ _ _ (d.resolve o target).2⟩

theorem stagedBy_execute (o : Occasion) (rule : Rule) (d : Dispatch) :
    StagedBy o.invoker d.state.phase (rule.actions.map (·.action)) d.state.staged
      (d.execute o rule).state.staged := by
  have hsteps : ∀ (shared : Targets) (steps : List ActionStep) (e : Dispatch),
      StagedBy o.invoker e.state.phase (steps.map (·.action)) e.state.staged
        (steps.foldl (runStep o rule shared) e).state.staged := by
    intro shared steps
    induction steps with
    | nil => exact fun e => .nil _
    | cons step steps ih =>
      intro e
      obtain ⟨g, hstep⟩ := stagedBy_runStep (o := o) rule shared e step
      have hphase : (e.runStep o rule shared step).state.phase = e.state.phase :=
        (congrArg ScriptState.phase (leads_runStep o rule shared e step).state :)
      have hrest := ih (e.runStep o rule shared step)
      rw [hphase, hstep] at hrest
      exact .cons g hrest
  exact hsteps (d.resolve o rule.target).1 rule.actions (d.resolve o rule.target).2

end Dispatch

theorem Script.stagedBy_shoot (set : RuleSet) (o : Occasion) (depth : Nat) (forced : Bool)
    (rule : Rule) (s : Script) (w : World) :
    StagedBy o.invoker s.state.phase (rule.actions.map (·.action)) s.state.staged
      (shoot set o depth forced rule s w).script.state.staged := by
  have h := Dispatch.stagedBy_execute o rule
    { world := w, state := ((s.losesChance forced rule).2.mark set rule).state
      rng := ((s.losesChance forced rule).2.mark set rule).rng }
  have hphase : ((s.losesChance forced rule).2.mark set rule).state.phase = s.state.phase :=
    (keeps_mark set rule _).phase.trans (keeps_losesChance forced rule s).phase
  rw [hphase, staged_mark, staged_losesChance] at h
  exact h

def Action.asksReset : Action → Bool
  | .callScriptReset => true
  | _ => false

def Rule.asksReset (r : Rule) : Bool := r.actions.any (·.action.asksReset)

theorem reset_elim {α : Type} (drawn : Option α) {change : α → Staged → Staged} {st : Staged}
    (h : ∀ x, (change x st).reset = st.reset) : (drawn.elim id change st).reset = st.reset := by
  cases drawn with
  | none => rfl
  | some x => exact h x

theorem Action.reset_staging (a : Action) (invoker : Option Handle) (pending : PhaseMask) (g : Rng)
    (st : Staged) : ((a.staging invoker pending g).1 st).reset = (st.reset || a.asksReset) := by
  cases a with
  | callScriptReset => exact (Bool.or_true _).symm
  | randomPhase phases =>
    apply Eq.trans _ (Bool.or_false _).symm
    exact reset_elim (g.choose phases).1 fun _ => rfl
  | callRandomTimedActionList lists =>
    apply Eq.trans _ (Bool.or_false _).symm
    exact reset_elim (g.choose lists).1 fun _ => rfl
  | _ => exact (Bool.or_false _).symm

theorem StagedBy.reset {invoker : Option Handle} {phase : PhaseMask} {as : List Action}
    {st st' : Staged} (h : StagedBy invoker phase as st st') :
    st'.reset = (st.reset || as.any Action.asksReset) := by
  induction h with
  | nil st => simp
  | cons g _ ih => rw [ih, Action.reset_staging, List.any_cons, Bool.or_assoc]

theorem Script.reset_shoot (set : RuleSet) (o : Occasion) (depth : Nat) (forced : Bool)
    (rule : Rule) (s : Script) (w : World) :
    (shoot set o depth forced rule s w).script.state.staged.reset =
      (s.state.staged.reset || rule.asksReset) := by
  rw [(stagedBy_shoot set o depth forced rule s w).reset, List.any_map]
  rfl

end TriggerScript
