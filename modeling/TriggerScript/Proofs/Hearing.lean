import TriggerScript.Proofs.Reachability

/-!
# Signals of a pass

Every signal of a pass is handed to the pushed rules once: first the deferred ones in their order,
then the signal of the pass, then the timed events, and last the reset of the commit.
-/

namespace TriggerScript

namespace Progress

/-- The signals that were handed to the pushed rules, in order. -/
def heard (p : Progress) : List Signal := p.journal.filterMap Incident.signal?

theorem heard_andThen (p : Progress) (stage : Script → World → Progress) :
    (p.andThen stage).heard = p.heard ++ (stage p.script p.world).heard :=
  List.filterMap_append

end Progress

namespace Script

theorem heard_of_passed {phase : PhaseMask} {p : Progress}
    (h : ∀ i ∈ p.journal, Passed phase i) : p.heard = [] := by
  apply List.filterMap_eq_nil_iff.mpr
  intro i hi
  obtain ⟨rule, d, n, rfl, -⟩ := h i hi
  rfl

theorem heard_attempt (o : Occasion) (rule : Rule) (s : Script) (w : World) :
    (s.attempt o rule w).heard = [] :=
  heard_of_passed (attempts_attempt o rule s w).passed

theorem heard_inTurn {α : Type} {stage : α → Script → World → Progress} {signals : α → List Signal}
    (h : ∀ x s w, (stage x s w).heard = signals x) (xs : List α) (s : Script) (w : World) :
    (inTurn stage xs s w).heard = xs.flatMap signals := by
  induction xs generalizing s w with
  | nil => rfl
  | cons x xs ih => rw [inTurn_cons, Progress.heard_andThen, h, ih, List.flatMap_cons]

theorem heard_inTurn_nil {α : Type} {stage : α → Script → World → Progress}
    (h : ∀ x s w, (stage x s w).heard = []) (xs : List α) (s : Script) (w : World) :
    (inTurn stage xs s w).heard = [] := by
  rw [heard_inTurn h]
  simp

theorem heard_react (signal : Signal) (rule : Rule) (s : Script) (w : World) :
    (s.react signal rule w).heard = [] := by
  unfold react
  split
  · exact heard_attempt _ rule s w
  · rfl

@[simp] theorem heard_handleSignal (signal : Signal) (s : Script) (w : World) :
    (s.handleSignal signal w).heard = [signal] := by
  unfold handleSignal
  rw [Progress.heard_andThen, heard_inTurn_nil (heard_react signal)]
  rfl

@[simp] theorem heard_handleSignals (signals : List Signal) (s : Script) (w : World) :
    (s.handleSignals signals w).heard = signals := by
  unfold handleSignals
  rw [heard_inTurn heard_handleSignal]
  simp

@[simp] theorem heard_handleDeferred (s : Script) (w : World) :
    (s.handleDeferred w).heard = s.state.deferred :=
  heard_handleSignals _ _ w

@[simp] theorem heard_startOver (s : Script) (w : World) : (s.startOver w).heard = [.reset] := by
  unfold startOver
  rw [Progress.heard_andThen, heard_handleSignal]
  rfl

/-- The signals that the pushed rules hear of because of the signal of a pass. -/
def announced : Option Signal → List Signal
  | none => []
  | some signal => if signal.resetsScript then [.reset, signal] else [signal]

@[simp] theorem heard_receive (signal : Option Signal) (s : Script) (w : World) :
    (s.receive signal w).heard = announced signal := by
  cases signal with
  | none => rfl
  | some signal =>
    rw [receive_some, announced]
    split
    · rw [Progress.heard_andThen, heard_startOver, heard_handleSignal]
      rfl
    · split
      · rename_i hsig
        rw [heard_startOver, hsig]
      · exact heard_handleSignal _ _ w

theorem heard_advanceTimedEvents (deltaMs : UInt32) (s : Script) (w : World) :
    (s.advanceTimedEvents deltaMs w).heard =
      (tickEvents deltaMs s.state.timedEvents.toList s).1.map .timedEventTriggered :=
  heard_handleSignals _ _ w

theorem heard_poll (deltaMs : UInt32) (inCombat : Bool) (rule : Rule) (s : Script) (w : World) :
    (s.poll deltaMs inCombat rule w).heard = [] := by
  rcases poll_cases deltaMs inCombat rule s w with h | ⟨-, h | ⟨-, o, h⟩⟩
  · rw [h]
    rfl
  · rw [h]
    rfl
  · rw [h]
    exact heard_attempt o rule _ w

theorem heard_advancePolled (deltaMs : UInt32) (s : Script) (w : World) :
    (s.advancePolled deltaMs w).heard = [] := by
  unfold advancePolled
  dsimp only
  rw [Progress.heard_andThen, heard_inTurn_nil (heard_poll deltaMs _)]
  rfl

theorem heard_fireStep (runner : ListRunner) (index : Nat) (s : Script) (w : World) :
    (s.fireStep runner index w).heard = [] := by
  unfold fireStep
  split
  · exact heard_of_passed (fires_fireHead _ _ _ _ s w).passed
  · rfl

theorem heard_advanceList (deltaMs : UInt32) (inCombat : Bool) (id : UInt32) (s : Script)
    (w : World) : (s.advanceList deltaMs inCombat id w).heard = [] := by
  unfold advanceList
  split
  · rfl
  · rename_i runner _
    generalize runner.advance deltaMs inCombat s.rng = adv
    obtain ⟨due, runner', rng⟩ := adv
    have hsteps : ∀ t : Script, ((⟨t, w, [.resumed id due]⟩ : Progress).andThen
        (inTurn (fireStep runner') due)).heard = [] := by
      intro t
      rw [Progress.heard_andThen, heard_inTurn_nil (heard_fireStep runner')]
      rfl
    dsimp only
    split
    · rw [Progress.heard_andThen, hsteps]
      rfl
    · exact hsteps _

theorem heard_advanceLists (deltaMs : UInt32) (s : Script) (w : World) :
    (s.advanceLists deltaMs w).heard = [] :=
  heard_inTurn_nil (heard_advanceList deltaMs _) _ s w

theorem heard_commit (s : Script) (w : World) :
    (s.commit w).heard = if s.state.staged.reset then [.reset] else [] := by
  unfold commit
  split
  · rw [Progress.heard_andThen, Progress.heard_andThen, heard_startOver]
    rfl
  · rfl

theorem heard_stages (deltaMs : UInt32) (signal : Option Signal) (s : Script) (w : World) :
    let q := ((s.handleDeferred w).andThen (receive signal)).script
    (s.stages deltaMs signal w).heard = s.state.deferred ++ announced signal ++
      (tickEvents deltaMs q.state.timedEvents.toList q).1.map .timedEventTriggered := by
  unfold stages hear
  rw [Progress.heard_andThen, heard_advanceLists, Progress.heard_andThen, heard_advancePolled,
    Progress.heard_andThen, heard_advanceTimedEvents, Progress.heard_andThen, heard_handleDeferred,
    heard_receive, List.append_nil, List.append_nil]

/-- What a live script hears of in a pass: the deferred signals, what the signal of the pass stands
for, timed events, and a reset if the commit carries one out. -/
theorem heard_advance {s : Script} (hd : s.despawned = false) (hs : s.Listed) (deltaMs : UInt32)
    (signal : Option Signal) (w : World) :
    ∃ (raised : List UInt32) (late : List Signal), (late = [] ∨ late = [.reset]) ∧
      (s.advance deltaMs signal w).heard =
        s.state.deferred ++ announced signal ++ raised.map .timedEventTriggered ++ late := by
  by_cases hsig : signal = some .despawn
  · refine ⟨[], [], .inl rfl, ?_⟩
    have hlasts := (lasts_commitLaw.walks_handleDeferred (w := w) hs).law.despawned
    rw [hsig, advance_despawn hd, Progress.heard_andThen, heard_handleDeferred]
    unfold despawn
    rw [hlasts, despawned_taken, hd, if_neg (by simp), Progress.heard_andThen, heard_handleSignal]
    simp [retire, Progress.heard, Incident.signal?, announced, Signal.resetsScript]
  · obtain ⟨raised, hraised⟩ : ∃ raised : List UInt32, (s.stages deltaMs signal w).heard =
        s.state.deferred ++ announced signal ++ raised.map .timedEventTriggered :=
      ⟨_, heard_stages deltaMs signal s w⟩
    refine ⟨raised, ((s.stages deltaMs signal w).script.commit
      (s.stages deltaMs signal w).world).heard, ?_, ?_⟩
    · rw [heard_commit]
      cases (s.stages deltaMs signal w).script.state.staged.reset with
      | true => exact .inr rfl
      | false => exact .inl rfl
    · rw [advance_eq hd deltaMs hsig, Progress.heard_andThen, hraised]

end Script

end TriggerScript
