import TriggerScript.Proofs.StagedChanges

/-!
# Phases

A script is in one phase at most. Actions that change the phase are staged one after the other, each
on top of what the ones before it staged, and the commit enters the phase that they lead to.
-/

namespace TriggerScript

namespace PhaseMask

def AtMostOne (m : PhaseMask) : Prop :=
  m = .empty ∨ ∃ phase : UInt8, 1 ≤ phase ∧ phase ≤ maxPhase ∧ m = .single phase

theorem atMostOne_empty : AtMostOne .empty := .inl rfl

theorem atMostOne_single (phase : UInt8) : AtMostOne (.single phase) := by
  by_cases h : phase = 0 ∨ phase > maxPhase
  · exact .inl (if_pos h)
  · rw [not_or] at h
    have hpos : phase.toNat ≠ 0 := fun hzero => h.1 (UInt8.toNat_inj.mp hzero)
    refine .inr ⟨phase, ?_, UInt8.not_lt.mp h.2, rfl⟩
    exact UInt8.le_iff_toNat_le.mpr (Nat.pos_of_ne_zero hpos)

theorem currentPhase_single {phase : UInt8} (h : phase ≤ maxPhase) :
    (single phase).currentPhase = phase := by
  have hall : ∀ n : Fin 13, (single (.ofNat n)).currentPhase = .ofNat n := by decide
  have hlt : phase.toNat < 13 := Nat.lt_succ_of_le (UInt8.le_iff_toNat_le.mp h)
  have hphase := hall ⟨phase.toNat, hlt⟩
  rwa [UInt8.ofNat_toNat] at hphase

end PhaseMask

namespace Script

structure SinglePhases (s : Script) : Prop where
  current : s.state.phase.AtMostOne
  staged : ∀ m, s.state.staged.phase = some m → m.AtMostOne
  deferred : ∀ m, Signal.eventPhaseChange m ∈ s.state.deferred → m.AtMostOne

end Script

theorem Action.single_staging (a : Action) (invoker : Option Handle) (pending : PhaseMask)
    (g : Rng) {st : Staged} (h : ∀ m, st.phase = some m → m.AtMostOne) :
    ∀ m, ((a.staging invoker pending g).1 st).phase = some m → m.AtMostOne := by
  have henters : ∀ phase m, (st.enterPhase phase).phase = some m → m.AtMostOne := by
    intro phase m hm
    cases hm
    exact PhaseMask.atMostOne_single phase
  cases a with
  | setEventPhase phase => exact henters phase
  | incEventPhase inc dec => exact henters _
  | randomPhase phases =>
    show ∀ m, ((g.choose phases).1.elim id .enterPhase st).phase = some m → m.AtMostOne
    cases (g.choose phases).1 with
    | none => exact h
    | some phase => exact henters phase
  | randomPhaseRange min max => exact henters _
  | callRandomTimedActionList lists =>
    show ∀ m, ((g.choose lists).1.elim id _ st).phase = some m → m.AtMostOne
    cases (g.choose lists).1 with
    | none => exact h
    | some id => exact h
  | _ => exact h

theorem StagedBy.single {invoker : Option Handle} {phase : PhaseMask} {as : List Action}
    {st st' : Staged} (hstaged : StagedBy invoker phase as st st')
    (h : ∀ m, st.phase = some m → m.AtMostOne) : ∀ m, st'.phase = some m → m.AtMostOne := by
  induction hstaged with
  | nil => exact h
  | @cons a as st _ g _ ih => exact ih (a.single_staging invoker _ g h)

theorem not_mem_counterNotices (counters : Std.ExtTreeMap UInt32 UInt32) (ops : List CounterOp)
    (m : PhaseMask) : Signal.eventPhaseChange m ∉ counterNotices counters ops := by
  induction ops generalizing counters with
  | nil => exact List.not_mem_nil
  | cons op ops ih =>
    rw [counterNotices, List.mem_cons, not_or]
    exact ⟨by simp, ih _⟩

namespace Script

variable {s : Script}

theorem singlePhases_of_settled (hphase : s.state.phase.AtMostOne) (hstaged : s.state.staged = {})
    (hdeferred : s.state.deferred = []) : s.SinglePhases := by
  refine ⟨hphase, ?_, ?_⟩
  · rw [hstaged]
    exact fun m hm => nomatch hm
  · rw [hdeferred]
    exact fun m hm => nomatch hm

theorem SinglePhases.commitState (h : s.SinglePhases) : s.commitState.SinglePhases := by
  obtain ⟨hphase, -, hdeferred⟩ := commitState_eq s
  have hpending : s.state.pendingPhase.AtMostOne := by
    unfold ScriptState.pendingPhase
    cases hstaged : s.state.staged.phase with
    | none => exact h.current
    | some m => exact h.staged m hstaged
  constructor
  · rw [hphase, ScriptState.phase_commit]
    exact hpending
  · rw [staged_commitState]
    exact fun m hm => nomatch hm
  · intro m hm
    rw [hdeferred, ScriptState.deferred_commit, ScriptState.phase_commit] at hm
    rcases List.mem_append.mp hm with hm | hm
    · rcases List.mem_append.mp hm with hm | hm
      · exact h.deferred m hm
      · unfold phaseNotices at hm
        split at hm
        · cases hm
        · cases List.mem_singleton.mp hm
          exact hpending
    · exact absurd hm (not_mem_counterNotices _ _ m)

theorem singlePhases_lifeLaw : LifeLaw fun s _ p => s.SinglePhases → p.script.SinglePhases where
  join _ h h' := h' ∘ h
  aside _ haside h := by
    rw [haside]
    exact ⟨h.current, h.staged, h.deferred⟩
  shot {s set forced rule} w o depth _ _ _ _ h := by
    have hkeeps := keeps_shoot set o depth forced rule s w
    constructor
    · rw [hkeeps.phase]
      exact h.current
    · exact (stagedBy_shoot set o depth forced rule s w).single h.staged
    · rw [hkeeps.deferred]
      exact h.deferred
  timed _ _ _ _ h := ⟨h.current, h.staged, h.deferred⟩
  noted _ _ _ _ _ h := h
  taken _ _ h := ⟨h.current, h.staged, fun _ hm => nomatch hm⟩
  renewed s w _ := by
    rw [resetState_eq]
    exact singlePhases_of_settled PhaseMask.atMostOne_empty rfl rfl
  settled _ _ h := h.commitState
  retired _ _ h := singlePhases_of_settled h.current rfl rfl

theorem Reachable.singlePhases (hs : s.Reachable) : s.SinglePhases := by
  induction hs with
  | fresh owner rules store config rng =>
    show (initTimers rules.rules { owner, store, rules, config, rng }).SinglePhases
    rw [initTimers_eq]
    exact singlePhases_of_settled PhaseMask.atMostOne_empty rfl rfl
  | operate w op hs ih => exact singlePhases_lifeLaw.operate hs.sound.listed w op ih

end Script

/-- Whether an action may lead from a phase to another one; 0 stands for no phase. -/
def Action.LeadsTo : Action → UInt8 → UInt8 → Prop
  | .setEventPhase phase, _, next => next = phase
  | .incEventPhase inc dec, current, next =>
      (next.toNat : Int) = max 0 (min 12 (current.toNat + inc.toNat - dec.toNat))
  | .randomPhase phases, _, next => next ∈ phases
  | .randomPhaseRange low high, _, next => low ≤ next ∧ next ≤ high
  | _, current, next => next = current

/-- Whether some actions may lead from a phase to another one, each from where the ones before it
led. -/
inductive LeadAlong : List Action → UInt8 → UInt8 → Prop
  | nil (phase) : LeadAlong [] phase phase
  | cons {a as current next last} : a.LeadsTo current next → LeadAlong as next last →
      LeadAlong (a :: as) current last

theorem toNat_shiftPhase (current inc dec : UInt8) :
    ((shiftPhase current inc dec).toNat : Int) =
      max 0 (min 12 (current.toNat + inc.toNat - dec.toNat)) := by
  have hmax : maxPhase.toNat = 12 := rfl
  unfold shiftPhase
  rw [UInt8.toNat_ofNat', hmax]
  omega

theorem shiftPhase_le (current inc dec : UInt8) : shiftPhase current inc dec ≤ maxPhase := by
  have hmax : maxPhase.toNat = 12 := rfl
  have hshift := toNat_shiftPhase current inc dec
  apply UInt8.le_iff_toNat_le.mpr
  omega

theorem roll_phase {low high : UInt8} (hle : low ≤ high) (g : Rng) :
    low ≤ (g.roll low.toUInt32 high.toUInt32).1.toUInt8 ∧
      (g.roll low.toUInt32 high.toUInt32).1.toUInt8 ≤ high := by
  obtain ⟨hlow, hhigh⟩ := g.roll_bounds low.toUInt32 high.toUInt32
  have hle' : low.toUInt32 ≤ high.toUInt32 := by
    rw [UInt32.le_iff_toNat_le, UInt8.toNat_toUInt32, UInt8.toNat_toUInt32]
    exact UInt8.le_iff_toNat_le.mp hle
  have hhigh := hhigh hle'
  have hlt := high.toNat_lt
  rw [UInt8.toNat_toUInt32] at hlow hhigh
  rw [UInt8.le_iff_toNat_le, UInt8.le_iff_toNat_le, UInt32.toNat_toUInt8]
  omega

/-- An action within bounds stages the phase that it leads to. -/
theorem Action.leadsTo_staging {a : Action} (ha : a.InBounds) (invoker : Option Handle)
    (phase : PhaseMask) (g : Rng) (st : Staged) :
    a.LeadsTo (st.phase.getD phase).currentPhase
      ((((a.staging invoker (st.phase.getD phase) g).1 st).phase.getD phase).currentPhase) := by
  cases a with
  | setEventPhase p => exact PhaseMask.currentPhase_single ha
  | incEventPhase inc dec =>
    have hcurrent := PhaseMask.currentPhase_single
      (shiftPhase_le (st.phase.getD phase).currentPhase inc dec)
    show ((PhaseMask.single (shiftPhase (st.phase.getD phase).currentPhase inc
      dec)).currentPhase.toNat : Int) = _
    rw [hcurrent]
    exact toNat_shiftPhase _ inc dec
  | randomPhase phases =>
    obtain ⟨p, hp, hchosen⟩ := Rng.mem_choose ha.1 g
    have hstaged : ((Action.randomPhase phases).staging invoker (st.phase.getD phase) g).1 st =
        st.enterPhase p := by
      show ((g.choose phases).1.elim id Staged.enterPhase) st = _
      rw [hchosen]
      rfl
    rw [hstaged]
    show (PhaseMask.single p).currentPhase ∈ phases
    rw [PhaseMask.currentPhase_single (ha.2 p hp)]
    exact hp
  | randomPhaseRange low high =>
    have hroll := roll_phase ha.1 g
    have hcurrent := PhaseMask.currentPhase_single (UInt8.le_trans hroll.2 ha.2)
    show low ≤ (PhaseMask.single (g.roll low.toUInt32 high.toUInt32).1.toUInt8).currentPhase ∧ _
    rw [hcurrent]
    exact ⟨hroll.1, (congrArg (· ≤ high) hcurrent).mpr hroll.2⟩
  | callRandomTimedActionList lists =>
    show (((g.choose lists).1.elim id _ st).phase.getD phase).currentPhase = _
    cases (g.choose lists).1 with
    | none => rfl
    | some id => rfl
  | _ => rfl

theorem StagedInTurn.leadAlong {phase : PhaseMask} {as : List Action} {st st' : Staged}
    (h : StagedInTurn phase as st st') (hbounds : ∀ a ∈ as, a.InBounds) :
    LeadAlong as (st.phase.getD phase).currentPhase (st'.phase.getD phase).currentPhase := by
  induction h with
  | nil st => exact .nil _
  | @cons a as st _ invoker g _ ih =>
    have hstep := Action.leadsTo_staging (hbounds a List.mem_cons_self) invoker phase g st
    exact .cons hstep (ih fun b hb => hbounds b (List.mem_cons_of_mem a hb))

namespace Script

/-- A script is in one phase at most, and tells of such phases alone. A call that neither resets the
script nor ends its life leads from its phase along the actions of the rules that fire in it, in
order. -/
theorem phase_is_single_and_follows_actions {s : Script} {tables : List Table} (hs : s.Reachable)
    (hbuilt : s.BuiltFrom tables) :
    s.state.phase.AtMostOne ∧
    (∀ m, Signal.eventPhaseChange m ∈ s.state.deferred → m.AtMostOne) ∧
    ∀ w op, Undisturbed (s.operate w op).journal →
      LeadAlong (actionsOf (s.operate w op).journal) s.state.phase.currentPhase
        (s.operate w op).script.state.phase.currentPhase := by
  refine ⟨hs.singlePhases.current, hs.singlePhases.deferred, ?_⟩
  intro w op hcalm
  rcases undisturbed_cases hs.sound.listed hcalm with hidle | ⟨p, hcommits, hp, heq⟩
  · rw [hidle]
    exact .nil _
  · obtain ⟨hphase, hstaged⟩ := hcommits.stagesActions hs.sound hp.1
    have hleads := hstaged.leadAlong (hcommits.inBounds hs.sound.listed hbuilt)
    have hafter : (p.andThen settle).script.state.phase =
        p.script.state.staged.phase.getD s.state.phase := by
      rw [Progress.script_andThen]
      show p.script.commitState.state.phase = _
      rw [(commitState_eq p.script).1, ScriptState.phase_commit, ← hphase]
      rfl
    have hjournal : (p.andThen settle).journal = p.journal := List.append_nil _
    rw [heq, hafter, hjournal]
    exact hleads

private def shiftRow (id inc dec : UInt32) : Table :=
  .single 100 0 4 fun row =>
    { row with
      id, actionKind := 23
      actionParams := (row.actionParams.setIfInBounds 0 inc).setIfInBounds 1 dec }

private def shiftTables : List Table :=
  [.single 100 0 4 fun row =>
      { row with actionKind := 22, actionParams := row.actionParams.setIfInBounds 0 11 },
    shiftRow 2 3 0, shiftRow 3 0 5]

private def shiftSet : RuleSet := ((Store.build shiftTables).1.find? (.creature 100)).getD default

private def shifting : Script := create 1 shiftSet (Store.build shiftTables).1 {}

/-- Three rules of one pass set the phase to 11, raise it by 3 to the highest one and lower that
one by 5. -/
theorem three_rules_lead_to_phase :
    shifting.Reachable ∧ shifting.BuiltFrom shiftTables ∧
      Undisturbed (shifting.operate .empty (.advance 0 (some (.aggro 2)))).journal ∧
      LeadAlong [.setEventPhase 11, .incEventPhase 3 0, .incEventPhase 0 5] 0 7 ∧
      (shifting.operate .empty (.advance 0 (some (.aggro 2)))).script.state.phase = .single 7 := by
  have hreach : shifting.Reachable := .fresh 1 shiftSet _ {} _
  have hbuilt : shifting.BuiltFrom shiftTables := builtFrom_create 1 {}
  have hcalm : Undisturbed (shifting.operate .empty (.advance 0 (some (.aggro 2)))).journal := by
    unfold Undisturbed
    decide +kernel
  have hactions : actionsOf (shifting.operate .empty (.advance 0 (some (.aggro 2)))).journal =
      [.setEventPhase 11, .incEventPhase 3 0, .incEventPhase 0 5] := by decide +kernel
  have hphase : (shifting.operate .empty (.advance 0 (some (.aggro 2)))).script.state.phase =
      .single 7 := by decide +kernel
  obtain ⟨-, -, hleads⟩ := phase_is_single_and_follows_actions hreach hbuilt
  have hlead := hleads .empty (.advance 0 (some (.aggro 2))) hcalm
  rw [hactions, hphase] at hlead
  exact ⟨hreach, hbuilt, hcalm, hlead, hphase⟩

end Script

end TriggerScript
