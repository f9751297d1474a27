import TriggerScript.Proofs.Hearing
import TriggerScript.Proofs.Visibility

/-!
# Counters and notices

The counter changes that the rules of a pass ask for are carried out by its commit, in order. The
commit leaves a signal for each of them and for a new phase, and the next pass begins with these.
-/

namespace TriggerScript

def countersAfter (counters : Std.ExtTreeMap UInt32 UInt32) (ops : List CounterOp) :
    Std.ExtTreeMap UInt32 UInt32 :=
  ops.foldl (fun counters op =>
    counters.insert op.counter (op.apply (counters.getD op.counter 0))) counters

def counterNotices (counters : Std.ExtTreeMap UInt32 UInt32) : List CounterOp → List Signal
  | [] => []
  | op :: ops =>
      let value := op.apply (counters.getD op.counter 0)
      .counterSet op.counter value :: counterNotices (counters.insert op.counter value) ops

def phaseNotices (old new : PhaseMask) : List Signal :=
  if new = old then [] else [.eventPhaseChange new]

namespace ScriptState

theorem counters_commitCounters (s : ScriptState) (ops : List CounterOp) :
    (ops.foldl commitCounter s).counters = countersAfter s.counters ops := by
  induction ops generalizing s with
  | nil => rfl
  | cons op ops ih =>
    rw [List.foldl_cons, ih]
    rfl

theorem deferred_commitCounters (s : ScriptState) (ops : List CounterOp) :
    (ops.foldl commitCounter s).deferred = s.deferred ++ counterNotices s.counters ops := by
  induction ops generalizing s with
  | nil => exact (List.append_nil _).symm
  | cons op ops ih =>
    rw [List.foldl_cons, ih]
    exact List.append_assoc _ _ _

theorem phase_commitCounters (s : ScriptState) (ops : List CounterOp) :
    (ops.foldl commitCounter s).phase = s.phase := by
  induction ops generalizing s with
  | nil => rfl
  | cons op ops ih =>
    rw [List.foldl_cons, ih]
    rfl

theorem commitPhase_eq (s : ScriptState) (phase : Option PhaseMask) :
    (s.commitPhase phase).phase = phase.getD s.phase ∧
      (s.commitPhase phase).counters = s.counters ∧
      (s.commitPhase phase).deferred = s.deferred ++ phaseNotices s.phase (phase.getD s.phase) := by
  cases phase with
  | none => simp [commitPhase, phaseNotices]
  | some phase =>
    unfold commitPhase phaseNotices
    by_cases h : phase = s.phase <;> simp [h]

theorem phase_commit (s : ScriptState) : s.commit.phase = s.pendingPhase := by
  change (s.staged.counters.foldl commitCounter _).phase = _
  rw [phase_commitCounters, (commitPhase_eq _ _).1]
  rfl

theorem counters_commit (s : ScriptState) :
    s.commit.counters = countersAfter s.counters s.staged.counters := by
  change (s.staged.counters.foldl commitCounter _).counters = _
  rw [counters_commitCounters, (commitPhase_eq _ _).2.1]

theorem deferred_commit (s : ScriptState) :
    s.commit.deferred =
      s.deferred ++ phaseNotices s.phase s.commit.phase ++
        counterNotices s.counters s.staged.counters := by
  rw [phase_commit]
  change (s.staged.counters.foldl commitCounter _).deferred = _
  rw [deferred_commitCounters, (commitPhase_eq _ _).2.1, (commitPhase_eq _ _).2.2]
  rfl

end ScriptState

namespace Script

/-- What a commit makes of the state; the draws, lists and timed events are left out. -/
theorem commitState_eq (s : Script) :
    s.commitState.state.phase = s.state.commit.phase ∧
      s.commitState.state.counters = s.state.commit.counters ∧
      s.commitState.state.deferred = s.state.commit.deferred := by
  have h := (aside_commitState s).keeps
  exact ⟨h.phase, h.counters, h.deferred⟩

theorem commit_of_not_reset {s : Script} {w : World} (h : Incident.reset ∉ (s.commit w).journal) :
    s.commit w = s.settle w := by
  unfold commit at h ⊢
  split
  · rename_i hreset
    rw [if_pos hreset] at h
    simp [startOver, Progress.andThen, settle] at h
  · rfl

theorem mem_despawned_despawn {s : Script} (hd : s.despawned = false) (w : World) :
    Incident.despawned ∈ (s.despawn w).journal := by
  unfold despawn
  rw [hd, if_neg (by simp)]
  exact List.mem_append_right _ List.mem_cons_self

/-- A pass of a sound script without reset and despawn carries out the counter changes of its rules,
and leaves the signals of the new phase and of the changes. -/
theorem notices_of_advance {s : Script} (hs : s.Sound) (deltaMs : UInt32) (signal : Option Signal)
    (w : World) (hreset : Incident.reset ∉ (s.advance deltaMs signal w).journal)
    (hdespawn : Incident.despawned ∉ (s.advance deltaMs signal w).journal) :
    let p := s.advance deltaMs signal w
    let ops := p.journal.flatMap (·.counterOps)
    p.script.despawned = s.despawned ∧
      p.script.state.counters = countersAfter s.state.counters ops ∧
      p.script.state.deferred =
        phaseNotices s.state.phase p.script.state.phase ++ counterNotices s.state.counters ops := by
  cases hd : s.despawned with
  | true =>
    rw [advance_of_despawned hd]
    refine ⟨hd, rfl, ?_⟩
    simp [hs.retired hd, phaseNotices, counterNotices]
  | false =>
    by_cases hsig : signal = some .despawn
    · have hlasts := (lasts_commitLaw.walks_handleDeferred (w := w) hs.listed).law.despawned
      rw [hsig, advance_despawn hd] at hdespawn
      exact absurd (List.mem_append_right _ (mem_despawned_despawn (hlasts.trans hd) _)) hdespawn
    · have hpends := pends_stages hs.listed deltaMs signal w
      have hlasts := (lasts_stages (w := w) hs.listed deltaMs signal).law.despawned
      rw [advance_eq hd deltaMs hsig] at hreset ⊢
      rw [Progress.journal_andThen, List.mem_append, not_or] at hreset
      -- Up to the commit changes are staged only, and none that the rules did not ask for.
      generalize s.stages deltaMs signal w = p at hreset hpends hlasts ⊢
      dsimp only
      rw [Progress.script_andThen, Progress.journal_andThen, commit_of_not_reset hreset.2]
      have hphase := hpends.phase
      have hcounters := hpends.counters hreset.1
      have hstaged := hpends.staged hreset.1
      have hdeferred := hpends.deferred rfl
      rw [phaseAfter, if_neg hreset.1, phase_taken] at hphase
      obtain ⟨hcp, hcc, hcd⟩ := commitState_eq p.script
      simp only [settle, List.append_nil]
      refine ⟨?_, ?_, ?_⟩
      · rw [despawned_commitState, hlasts, despawned_taken, hd]
      · rw [hcc, ScriptState.counters_commit, hcounters, hstaged]
        simp [taken, hs.settled]
      · rw [hcd, hcp, ScriptState.deferred_commit, hdeferred, hcounters, hstaged, hphase]
        simp [taken, hs.settled]

/-- The signals that the commits of some calls in a row leave. -/
def noticesOf (s : Script) : List Call → List Signal
  | [] => []
  | c :: cs =>
      let p := s.operate c.world c.op
      phaseNotices s.state.phase p.script.state.phase ++
        counterNotices s.state.counters (p.journal.flatMap (·.counterOps)) ++ noticesOf p.script cs

def forcings (rules : List (RuleId × World)) : List Call :=
  rules.map fun (id, world) => { world, op := .forceFire id }

/-- A forced rule adds to the deferred signals those of its own changes. -/
theorem deferred_forceFire {s : Script} (hs : s.Sound) (hd : s.despawned = false) (w : World)
    (id : RuleId) (hreset : Incident.reset ∉ (s.operate w (.forceFire id)).journal) :
    let p := s.operate w (.forceFire id)
    p.script.despawned = false ∧
      p.script.state.deferred = s.state.deferred ++
        (phaseNotices s.state.phase p.script.state.phase ++
          counterNotices s.state.counters (p.journal.flatMap (·.counterOps))) := by
  have hop : s.operate w (.forceFire id) =
      (s.forceFire? id w).getD { script := s, world := w } := rfl
  rw [hop] at hreset ⊢
  unfold forceFire? at hreset ⊢
  cases hfind : s.rules.find? id with
  | none => simp [hd, phaseNotices, counterNotices]
  | some rule =>
    rw [hfind, Option.map_some, Option.getD_some, hd, if_neg (by simp), Progress.journal_andThen,
      List.mem_append, not_or] at hreset
    rw [Option.map_some, Option.getD_some, if_neg (by simp [hd])]
    have hfires := fires_fireHead s.rules { owner := s.owner } true rule s w
    -- Firing leaves the deferred signals; the commit that follows adds to them.
    generalize (fireHead s.rules { owner := s.owner } true rule s w).2 = p at hreset hfires ⊢
    dsimp only
    rw [Progress.script_andThen, Progress.journal_andThen, commit_of_not_reset hreset.2]
    obtain ⟨hphase, -, hdeferred⟩ := commitState_eq p.script
    have hcounters := hfires.counters
    rw [hs.settled] at hcounters
    simp only [settle, List.append_nil]
    refine ⟨?_, ?_⟩
    · rw [despawned_commitState, hfires.keeps.despawned, hd]
    · rw [hdeferred, hphase, ScriptState.deferred_commit, hcounters, hfires.keeps.deferred,
        hfires.keeps.phase, hfires.keeps.counters, List.append_assoc]
      rfl

theorem deferred_forcings {s : Script} (hs : s.Sound) (hd : s.despawned = false)
    (rules : List (RuleId × World)) (hreset : Incident.reset ∉ (s.calls (forcings rules)).2) :
    (s.calls (forcings rules)).1.despawned = false ∧
      (s.calls (forcings rules)).1.state.deferred =
        s.state.deferred ++ s.noticesOf (forcings rules) := by
  induction rules generalizing s with
  | nil => exact ⟨hd, (List.append_nil _).symm⟩
  | cons rule rules ih =>
    have hcalls : s.calls (forcings (rule :: rules)) =
        let p := s.operate rule.2 (.forceFire rule.1)
        let rest := p.script.calls (forcings rules)
        (rest.1, p.journal ++ rest.2) := rfl
    rw [hcalls] at hreset ⊢
    dsimp only at hreset ⊢
    rw [List.mem_append, not_or] at hreset
    obtain ⟨hd', hfirst⟩ := deferred_forceFire hs hd rule.2 rule.1 hreset.1
    obtain ⟨hd'', hrest⟩ := ih (sound_operate hs rule.2 (.forceFire rule.1)).2 hd' hreset.2
    refine ⟨hd'', ?_⟩
    rw [hrest, hfirst, List.append_assoc]
    rfl

/-- In a pass without reset and despawn no counter change gets lost: the counters afterwards are
those before after the changes of all rules that fired, in order. The signals left behind are that
of the new phase, if there is one, and one for every change. The next pass hands on each of them
once and in order, then those of the rules that were forced in between, then the signal of its
own. -/
theorem changes_are_counted_and_told {s : Script} (hs : s.Reachable) (deltaMs : UInt32)
    (signal : Option Signal) (w : World)
    (hreset : Incident.reset ∉ (s.advance deltaMs signal w).journal)
    (hdespawn : Incident.despawned ∉ (s.advance deltaMs signal w).journal) :
    let p := s.advance deltaMs signal w
    let ops := p.journal.flatMap (·.counterOps)
    p.script.state.counters = countersAfter s.state.counters ops ∧
      p.script.state.deferred =
        phaseNotices s.state.phase p.script.state.phase ++ counterNotices s.state.counters ops ∧
      ∀ forced deltaMs' signal' w', s.despawned = false →
        Incident.reset ∉ (p.script.calls (forcings forced)).2 →
        ∃ (raised : List UInt32) (late : List Signal), (late = [] ∨ late = [.reset]) ∧
          ((p.script.calls (forcings forced)).1.advance deltaMs' signal' w').heard =
            p.script.state.deferred ++ p.script.noticesOf (forcings forced) ++ announced signal' ++
              raised.map .timedEventTriggered ++ late := by
  obtain ⟨hlives, hcounters, hdeferred⟩ :=
    notices_of_advance hs.sound deltaMs signal w hreset hdespawn
  refine ⟨hcounters, hdeferred, ?_⟩
  intro forced deltaMs' signal' w' hd hcalm
  have hsound := (sound_advance hs.sound w deltaMs signal).2
  obtain ⟨hd', htold⟩ := deferred_forcings hsound (hlives.trans hd) forced hcalm
  obtain ⟨raised, late, hlate, hheard⟩ :=
    heard_advance hd' (hsound.calls (forcings forced)).2.listed deltaMs' signal' w'
  refine ⟨raised, late, hlate, ?_⟩
  rw [hheard, htold]

private def countingRule : Rule where
  link := .creature 100
  id := 1
  spec :=
    { event := .aggro, phase := .always, flags := .none, chance := 100
      cooldownMin := 0, cooldownMax := 0 }
  actions :=
    [{ action := .setCounter 7 0xFFFFFFFF false }, { action := .setEventPhase 2 },
      { action := .setCounter 7 3 false }, { action := .setCounter 7 4 true }]
  target := { target := .none }
  linkTo := none
  comment := ""

private def counting : Script :=
  fresh 1 { link := .creature 100, rules := [countingRule] } ∅ {} { key := .replicate 8 0 }

private def counted : Script := (counting.advance 0 (some (.aggro 2)) .empty).script

/-- A counter is raised past the greatest word and then set; the next pass hears of the new phase
and of all values before it hears of its own signal. If the rule is forced in between, the pass
hears of the changes by it after those. -/
theorem three_changes_are_told :
    counting.Reachable ∧
      counted.state.deferred =
        [.eventPhaseChange (.single 2), .counterSet 7 0xFFFFFFFF, .counterSet 7 0xFFFFFFFF,
          .counterSet 7 4] ∧
      counted.state.counters = countersAfter ∅ countingRule.counterOps ∧
      (∃ (raised : List UInt32) (late : List Signal), (late = [] ∨ late = [.reset]) ∧
        (counted.advance 0 (some .evade) .empty).heard =
          [.eventPhaseChange (.single 2), .counterSet 7 0xFFFFFFFF, .counterSet 7 0xFFFFFFFF,
            .counterSet 7 4] ++ [.evade] ++ raised.map .timedEventTriggered ++ late) ∧
      ∃ (raised : List UInt32) (late : List Signal), (late = [] ∨ late = [.reset]) ∧
        ((counted.operate .empty (.forceFire 1)).script.advance 0 (some .evade) .empty).heard =
          [.eventPhaseChange (.single 2), .counterSet 7 0xFFFFFFFF, .counterSet 7 0xFFFFFFFF,
            .counterSet 7 4] ++
          [.counterSet 7 0xFFFFFFFF, .counterSet 7 0xFFFFFFFF, .counterSet 7 4] ++ [.evade] ++
            raised.map .timedEventTriggered ++ late := by
  have hreach : counting.Reachable := .fresh 1 _ ∅ {} _
  have hjournal : (counting.advance 0 (some (.aggro 2)) .empty).journal =
      [.heard (.aggro 2), .fired countingRule 0 0, .polled 0 .empty false] := rfl
  obtain ⟨hcounters, -, hnext⟩ := changes_are_counted_and_told hreach 0 (some (.aggro 2)) .empty
    (by simp [hjournal]) (by simp [hjournal])
  have hforced := hnext [(1, .empty)] 0 (some .evade) .empty rfl
    (show Incident.reset ∉ (counted.calls (forcings [(1, .empty)])).2 by decide +kernel)
  refine ⟨hreach, rfl, ?_, hnext [] 0 (some .evade) .empty rfl (by simp [forcings, calls]),
    hforced⟩
  rw [counted, hcounters, hjournal]
  rfl

end Script

end TriggerScript
