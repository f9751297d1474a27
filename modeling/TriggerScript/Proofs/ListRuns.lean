import TriggerScript.Proofs.RunningLists

/-!
# Runs of timed action lists

A run of a list begins with the commit that starts its runner and ends when the runner is removed or
replaced. In the calls in between the list takes its steps one after the other, each once whether it
fires or not, and none before its time.
-/

namespace TriggerScript.Script

variable {s t : Script} {w : World} {op : Operation} {p : Progress} {id : UInt32}
  {r r' : ListRunner}

/-- The milliseconds that an operation lets pass for lists with this mode: those of a pass in which
the mode allows the combat state of the owner. -/
def listTime (mode : CombatGate) (s : Script) (w : World) : Operation → Nat
  | .advance deltaMs signal => if mode.allows (s.fights deltaMs signal w) then deltaMs.toNat else 0
  | _ => 0

def listTimes (mode : CombatGate) (s : Script) : List Call → Nat
  | [] => 0
  | c :: cs =>
      s.listTime mode c.world c.op + (s.operate c.world c.op).script.listTimes mode cs

theorem listTimes_concat (mode : CombatGate) (s : Script) (cs : List Call) (c : Call) :
    s.listTimes mode (cs ++ [c]) =
      s.listTimes mode cs + (s.calls cs).1.listTime mode c.world c.op := by
  induction cs generalizing s with
  | nil => exact (Nat.zero_add _).symm
  | cons d cs ih =>
    show s.listTime mode d.world d.op + (s.operate d.world d.op).script.listTimes mode (cs ++ [c]) =
      s.listTime mode d.world d.op + (s.operate d.world d.op).script.listTimes mode cs +
        ((s.operate d.world d.op).script.calls cs).1.listTime mode c.world c.op
    rw [ih, Nat.add_assoc]

def FiresSteps (id : UInt32) (r : ListRunner) (s : Script) (due : List Nat)
    (js : List Incident) : Prop :=
  ∃ t v before after, s.Keeps t ∧
    js = before ++ .resumed id due :: ((inTurn (fireStep r) due t v).journal ++ after)

theorem FiresSteps.append {due : List Nat} {js : List Incident} (h : FiresSteps id r s due js)
    (ks : List Incident) : FiresSteps id r s due (js ++ ks) := by
  obtain ⟨t, v, before, after, ht, rfl⟩ := h
  exact ⟨t, v, before, after ++ ks, ht, by simp only [List.append_assoc, List.cons_append]⟩

/-- What a call does to a running list before its commit: the list takes these steps. -/
structure TakesSteps (id : UInt32) (r : ListRunner) (time : Nat) (s : Script) (p : Progress)
    (due : List Nat) (r' : ListRunner) : Prop where
  resumes : r.Resumes r'
  takes : r.Takes time due r'
  steps : stepsOf id p.journal = due
  fired : due ≠ [] → FiresSteps id r' s due p.journal
  left : ∀ r'', p.script.lists[id]? = some r'' → r'' = r'
  dropped : r'.cursor = r.rules.size → p.script.lists[id]? = none

theorem takesSteps_of_idle {time : Nat} (hpaced : r.Paced time) (hcursor : r.cursor < r.rules.size)
    (hsteps : stepsOf id p.journal = [])
    (hleft : ∀ r', p.script.lists[id]? = some r' → r' = r) : TakesSteps id r time s p [] r where
  resumes := .refl r
  takes := .nothing hpaced
  steps := hsteps
  fired := fun h => absurd rfl h
  left := hleft
  dropped := fun h => absurd h (Nat.ne_of_lt hcursor)

theorem takesSteps_stages (hs : s.Listed) {signal : Option Signal}
    (hleft : (s.listsLeft signal)[id]? = some r) {time : Nat} (hpaced : r.Paced time)
    (deltaMs : UInt32) (w : World) :
    ∃ due r', TakesSteps id r (time + s.listTime r.mode w (.advance deltaMs signal)) s
      (s.stages deltaMs signal w) due r' := by
  have hwalks := walks_beforeLists hs deltaMs signal w
  have hsilent := (unlisted_beforeLists hs deltaMs signal w).stepsOf id
  rw [← lists_beforeLists deltaMs signal s w] at hleft
  obtain ⟨due, r', hturn⟩ := turn_advanceLists hwalks.listed hleft deltaMs
    (s.beforeLists deltaMs signal w).world
  rw [fights_eq hs] at hturn
  obtain ⟨g, g', hadvance⟩ := hturn.advanced
  have hresumes := r.resumes_advance deltaMs (s.fights deltaMs signal w) g
  have htakes := ListRunner.takes_advance hpaced deltaMs (s.fights deltaMs signal w) g
  rw [hadvance] at hresumes htakes
  refine ⟨due, r', hresumes, htakes, ?_, ?_, ?_, ?_⟩
  · rw [stages_eq, Progress.journal_andThen, stepsOf_append, hsilent, hturn.steps,
      List.nil_append]
  · intro _
    obtain ⟨t, v, before, after, ht, hjournal⟩ := hturn.fired
    refine ⟨t, v, (s.beforeLists deltaMs signal w).journal ++ before, after,
      ((keeps_taken s).trans hwalks.keeps).trans ht, ?_⟩
    rw [stages_eq, Progress.journal_andThen, hjournal, List.append_assoc]
  · intro r'' hr''
    rw [stages_eq, Progress.script_andThen, hturn.lists] at hr''
    split at hr''
    · cases hr''
    · exact (Option.some.inj hr'').symm
  · intro hlast
    have hfinished : r'.isFinished = true := by
      rw [ListRunner.isFinished, hresumes.rules, hlast]
      exact decide_eq_true (Nat.le_refl _)
    rw [stages_eq, Progress.script_andThen, hturn.lists, if_pos hfinished]

theorem takesSteps_of_commits (h : Commits s w op p) (hs : s.Listed) (ho : s.Orderly)
    (hr : s.lists[id]? = some r) {time : Nat} (hpaced : r.Paced time) :
    ∃ due r', TakesSteps id r (time + s.listTime r.mode w op) s p due r' := by
  have hlater := hpaced.mono (Nat.le_add_right time (s.listTime r.mode w op))
  have hcursor := (ho.running id r hr).2
  cases h with
  | @advance signal deltaMs _ =>
    cases hleft : (s.listsLeft signal)[id]? with
    | some r₀ =>
      have hsame := (lists_of_listsLeft hleft).1
      rw [hr] at hsame
      cases hsame
      exact takesSteps_stages hs hleft hpaced deltaMs w
    | none =>
      rw [← lists_beforeLists deltaMs signal s w] at hleft
      obtain ⟨hnone, hsteps⟩ := no_turn_advanceLists hleft deltaMs
        (s.beforeLists deltaMs signal w).world
      refine ⟨[], r, takesSteps_of_idle hlater hcursor ?_ ?_⟩
      · rw [stages_eq, Progress.journal_andThen, stepsOf_append, hsteps,
          (unlisted_beforeLists hs deltaMs signal w).stepsOf]
        rfl
      · intro r' hr'
        rw [stages_eq, Progress.script_andThen, hnone] at hr'
        cases hr'
  | reset =>
    refine ⟨[], r, takesSteps_of_idle hlater hcursor ?_ ?_⟩
    · exact (unlisted_commitLaw.walks_startOver (s := s) (w := w)).law.stepsOf id
    · intro r' hr'
      rw [lists_startOver] at hr'
      simp at hr'
  | @forceFire _ rule _ =>
    have hfires := fires_fireHead s.rules { owner := s.owner } true rule s w
    refine ⟨[], r, takesSteps_of_idle hlater hcursor ?_ ?_⟩
    · exact (firings_of_passed hfires.passed).unlisted.stepsOf id
    · intro r' hr'
      rw [hfires.keeps.lists, hr] at hr'
      exact (Option.some.inj hr').symm

/-- A call in which the run of a list goes on: it does nothing, or the list still runs before its
commit, which neither resets the script nor starts the list over. -/
inductive Retains (id : UInt32) (s : Script) (w : World) (op : Operation) : Prop
  | idle : s.operate w op = { script := s, world := w } → Retains id s w op
  | committed {p : Progress} {r : ListRunner} : Commits s w op p →
      s.operate w op = p.andThen commit → p.script.lists[id]? = some r →
      p.script.state.staged.reset = false →
      (∀ q ∈ p.script.state.staged.lists, q.listId = id → q.allowOverride = false) →
      Retains id s w op

def RetainsAll (id : UInt32) (s : Script) : List Call → Prop
  | [] => True
  | c :: cs => Retains id s c.world c.op ∧ RetainsAll id (s.operate c.world c.op).script cs

/-- A list that runs after a commit ran before and none of its requests may replace it, or it was
started by one of its requests. -/
theorem commitState_cases (ht : t.Listed) (hr : t.commitState.lists[id]? = some r) :
    (t.lists[id]? = some r ∧
      ∀ q ∈ t.state.staged.lists, q.listId = id → q.allowOverride = false) ∨
    ∃ q ∈ t.state.staged.lists, q.listId = id ∧ r.StartedBy q r.rules := by
  have hcarried := carriesOut ht
  cases hold : t.lists[id]? with
  | none =>
    obtain ⟨q, hq, rules, hid, -, hstarted⟩ :=
      (hcarried.requested id r hr).resolve_left (by simp [hold])
    have hrules := hstarted.rules
    subst hrules
    exact .inr ⟨q, hq, hid, hstarted⟩
  | some r₀ =>
    by_cases hoverride : ∃ q ∈ t.state.staged.lists, q.listId = id ∧ q.allowOverride = true
    · obtain ⟨q, hq, r', hid, -, hr', hstarted⟩ := hcarried.replaced id r₀ hold hoverride
      rw [hr] at hr'
      cases hr'
      have hrules := hstarted.rules
      rw [← hrules] at hstarted
      exact .inr ⟨q, hq, hid, hstarted⟩
    · have hspared : ∀ q ∈ t.state.staged.lists, q.listId = id → q.allowOverride = false := by
        intro q hq hid
        rw [← Bool.not_eq_true]
        exact fun hmay => hoverride ⟨q, hq, hid, hmay⟩
      have hsame := hcarried.spared id r₀ hold hspared
      rw [hr] at hsame
      exact .inl ⟨hsame.symm, hspared⟩

/-- A list that runs after a call in which its run did not go on was started by a commit of the
call. -/
theorem started_of_not_retains (hs : s.Listed) (hr : (s.operate w op).script.lists[id]? = some r)
    (hended : ¬Retains id s w op) :
    ∃ p t q, Commits s w op p ∧ s.operate w op = p.andThen commit ∧ Settles p t ∧
      q ∈ t.state.staged.lists ∧ q.listId = id ∧ r.StartedBy q r.rules := by
  rcases operate_cases hs w op with h | hends | ⟨p, hcommits, heq⟩
  · exact absurd (.idle h) hended
  · rw [hends.lists] at hr
    simp at hr
  · have hlisted := (hcommits.walks hs).listed
    rw [heq, Progress.script_andThen] at hr
    cases hreset : p.script.state.staged.reset with
    | true =>
      have hsettles : Settles p _ := .again hreset
      rw [commit_of_requested hreset] at hr
      rcases commitState_cases (hsettles.listed hlisted) hr with ⟨hold, -⟩ | ⟨q, hq, hid, hstarted⟩
      · rw [Progress.script_andThen, lists_startOver] at hold
        simp at hold
      · exact ⟨p, _, q, hcommits, heq, hsettles, hq, hid, hstarted⟩
    | false =>
      rw [commit_of_unrequested hreset] at hr
      rcases commitState_cases hlisted hr with ⟨hold, hspared⟩ | ⟨q, hq, hid, hstarted⟩
      · exact absurd (.committed hcommits heq hold hreset hspared) hended
      · exact ⟨p, _, q, hcommits, heq, .first, hq, hid, hstarted⟩

/-- In a call in which the run of a list goes on, the list takes steps that are due. -/
theorem takes_of_retains (hs : s.Listed) (ho : s.Orderly) (hr : s.lists[id]? = some r) {time : Nat}
    (hpaced : r.Paced time) (h : Retains id s w op) :
    ∃ r', (s.operate w op).script.lists[id]? = some r' ∧ r.Resumes r' ∧
      r.Takes (time + s.listTime r.mode w op) (stepsOf id (s.operate w op).journal) r' := by
  cases h with
  | idle hidle =>
    rw [hidle]
    exact ⟨r, hr, .refl r, .nothing (hpaced.mono (Nat.le_add_right _ _))⟩
  | @committed p r₁ hcommits heq hleft hreset hspared =>
    obtain ⟨due, r', hsteps⟩ := takesSteps_of_commits hcommits hs ho hr hpaced
    have hsame := hsteps.left r₁ hleft
    subst hsame
    have hlists := (carriesOut (hcommits.walks hs).listed).spared id r₁ hleft hspared
    have hnothing : stepsOf id (p.script.settle p.world).journal = [] := rfl
    rw [heq, Progress.script_andThen, Progress.journal_andThen, commit_of_unrequested hreset,
      stepsOf_append, hsteps.steps, hnothing, List.append_nil]
    exact ⟨r₁, hlists, hsteps.resumes, hsteps.takes⟩

/-- As long as the run of a list goes on, the list takes its steps one after the other. -/
theorem takes_of_retainsAll {tables : List Table} (hs : s.Sound)
    (hstore : s.store = (Store.build tables).1) (ho : s.Orderly) (hr : s.lists[id]? = some r)
    {time : Nat} (hpaced : r.Paced time) {cs : List Call} (hcs : RetainsAll id s cs) :
    ∃ r', (s.calls cs).1.lists[id]? = some r' ∧ r.Resumes r' ∧
      r.Takes (time + s.listTimes r.mode cs) (stepsOf id (s.calls cs).2) r' := by
  induction cs generalizing s r time with
  | nil => exact ⟨r, hr, .refl r, .nothing hpaced⟩
  | cons c cs ih =>
    obtain ⟨r', hr', hresumes, htakes⟩ := takes_of_retains hs.listed ho hr hpaced hcs.1
    have hsound := sound_operate hs c.world c.op
    obtain ⟨r'', hr'', hresumes', htakes'⟩ := ih hsound.2 (hsound.1.store.trans hstore)
      (orderly_operate hs hstore ho c.world c.op) hr' htakes.paced hcs.2
    refine ⟨r'', hr'', hresumes.trans hresumes', ?_⟩
    have hboth := htakes.trans htakes' hresumes.rules (Nat.le_add_right _ _)
    rw [hresumes.mode, Nat.add_assoc, ← stepsOf_append] at hboth
    exact hboth

/-- What a further call does to a list whose run went on through some calls since it was started by
a request: up to this call it took its first steps in order, each once; the steps of this call are
fired one after the other, and not before the least delays up to them have passed; and the list is
gone before the commit if the last step is among them. -/
structure StepsOn (id : UInt32) (r : ListRunner) (s : Script) (cs : List Call) (c : Call) :
    Prop where
  inOrder : ∃ count ≤ r.rules.size, stepsOf id (s.calls (cs ++ [c])).2 = List.range count ∧
    (count = r.rules.size → ∃ p, Commits (s.calls cs).1 c.world c.op p ∧
      (s.calls cs).1.operate c.world c.op = p.andThen commit ∧ p.script.lists[id]? = none)
  timely : ∀ k ∈ stepsOf id ((s.calls cs).1.operate c.world c.op).journal,
    r.rules.leastTime (k + 1) ≤ s.listTimes r.mode (cs ++ [c])
  fired : stepsOf id ((s.calls cs).1.operate c.world c.op).journal ≠ [] →
    ∃ r', r.Resumes r' ∧ FiresSteps id r' (s.calls cs).1
      (stepsOf id ((s.calls cs).1.operate c.world c.op).journal)
      ((s.calls cs).1.operate c.world c.op).journal

theorem range_of_takes {time : Nat} {due : List Nat} (h : r.Takes time due r')
    (hcursor : r.cursor = 0) : due = List.range r'.cursor := by
  have hsteps := h.steps
  have hlength := h.cursor
  rw [hcursor, Nat.zero_add] at hlength
  rw [hsteps, hcursor, hlength, List.range_eq_range']

theorem stepsOn_of_idle {cs : List Call} {c : Call} (hcursor : r.cursor = 0) {time : Nat}
    (hbefore : r.Takes time (stepsOf id (s.calls cs).2) r')
    (hunfinished : r'.cursor < r.rules.size)
    (hidle : stepsOf id ((s.calls cs).1.operate c.world c.op).journal = []) :
    StepsOn id r s cs c where
  inOrder := by
    refine ⟨r'.cursor, Nat.le_of_lt hunfinished, ?_, fun h => absurd h (Nat.ne_of_lt hunfinished)⟩
    rw [journal_calls_concat, stepsOf_append, hidle, List.append_nil]
    exact range_of_takes hbefore hcursor
  timely k hk := by
    rw [hidle] at hk
    cases hk
  fired h := absurd hidle h

theorem stepsOn_of_retainsAll {tables : List Table} (hs : s.Sound)
    (hstore : s.store = (Store.build tables).1) (ho : s.Orderly) (hr : s.lists[id]? = some r)
    (hpaced : r.Paced 0) (hcursor : r.cursor = 0) {cs : List Call} (hcs : RetainsAll id s cs)
    (c : Call) : StepsOn id r s cs c := by
  obtain ⟨r', hr', hresumes, htakes⟩ := takes_of_retainsAll hs hstore ho hr hpaced hcs
  have hsound := hs.calls cs
  have horderly := orderly_calls hs hstore ho cs
  have hunfinished : r'.cursor < r.rules.size := by
    rw [← hresumes.rules]
    exact (horderly.running id r' hr').2
  rcases operate_cases hsound.2.listed c.world c.op with hidle | hends | ⟨p, hcommits, heq⟩
  · apply stepsOn_of_idle hcursor htakes hunfinished
    rw [hidle]
    rfl
  · exact stepsOn_of_idle hcursor htakes hunfinished (hends.unlisted.stepsOf id)
  · obtain ⟨due, r'', hsteps⟩ :=
      takesSteps_of_commits hcommits hsound.2.listed horderly hr' htakes.paced
    -- Lists take no steps in a commit, so all those of the call came before it.
    have hcommit : stepsOf id (p.script.commit p.world).journal = [] :=
      (unlisted_commitLaw.walks_commit (hcommits.walks hsound.2.listed).listed).law.stepsOf id
    have hdue : stepsOf id ((s.calls cs).1.operate c.world c.op).journal = due := by
      rw [heq, Progress.journal_andThen, stepsOf_append, hsteps.steps, hcommit, List.append_nil]
    have hall := htakes.trans hsteps.takes hresumes.rules (Nat.le_add_right _ _)
    refine ⟨⟨r''.cursor, ?_, ?_, ?_⟩, ?_, ?_⟩
    · apply hall.within
      rw [hcursor]
      exact Nat.zero_le _
    · rw [journal_calls_concat, stepsOf_append, hdue]
      exact range_of_takes hall hcursor
    · intro hlast
      refine ⟨p, hcommits, heq, hsteps.dropped ?_⟩
      rw [hlast, hresumes.rules]
    · intro k hk
      rw [hdue] at hk
      have htimely := hall.timely k (List.mem_append_right _ hk)
      rw [hresumes.mode, Nat.zero_add] at htimely
      rw [listTimes_concat]
      exact htimely
    · intro hsome
      rw [hdue] at hsome ⊢
      refine ⟨r'', hresumes.trans hsteps.resumes, ?_⟩
      rw [heq, Progress.journal_andThen]
      exact (hsteps.fired hsome).append _

/-- A run of a list begins with a commit that starts it by a request; that commit takes no step. As
long as the run goes on, the list takes its steps in order of their numbers, each once whether it
fires or not, none before the least delays up to it have passed in passes that did not pause it, and
it is gone before the commit of the call that takes the last one. -/
theorem list_runs_each_step_once {tables : List Table} (hs : s.Reachable)
    (hstore : s.store = (Store.build tables).1) {c : Call} {id : UInt32} {r : ListRunner}
    (hr : (s.operate c.world c.op).script.lists[id]? = some r)
    (hended : ¬Retains id s c.world c.op) :
    (∃ p t q, Commits s c.world c.op p ∧ s.operate c.world c.op = p.andThen commit ∧
      Settles p t ∧ q ∈ t.state.staged.lists ∧ q.listId = id ∧ r.StartedBy q r.rules ∧
      Unlisted (p.script.commit p.world).journal) ∧
    s.store.timedList? id = some r.rules ∧ r.rules.Stepwise ∧
    ∀ cs, RetainsAll id (s.operate c.world c.op).script cs →
      ∀ d, StepsOn id r (s.operate c.world c.op).script cs d := by
  have hsound := sound_operate hs.sound c.world c.op
  have hstore' := hsound.1.store.trans hstore
  have horderly := (hs.operate c.world c.op).orderly hstore'
  have hlisted := hsound.2.listed id r hr
  obtain ⟨p, t, q, hcommits, heq, hsettles, hq, hid, hstarted⟩ :=
    started_of_not_retains hs.sound.listed hr hended
  refine ⟨⟨p, t, q, hcommits, heq, hsettles, hq, hid, hstarted, ?_⟩, ?_, ?_, ?_⟩
  · exact (unlisted_commitLaw.walks_commit (hcommits.walks hs.sound.listed).listed).law
  · rw [← hsound.1.store]
    exact hlisted
  · rw [hstore'] at hlisted
    exact Store.stepwise_of_timedList? hlisted
  · intro cs hcs d
    obtain ⟨g, hdrawn⟩ := hstarted.drawn
    have hpaced : r.Paced 0 := by
      refine ⟨?_, ListRunner.waits_of_drawn hdrawn⟩
      rw [hstarted.cursor, hstarted.elapsed]
      exact Nat.le_refl 0
    exact stepsOn_of_retainsAll hsound.2 hstore' horderly hr hpaced hstarted.cursor hcs d

private def stepRow (id : UInt32) (flags : Option UInt32) : Table :=
  .single 50 9 60 fun row =>
    { row with
      id, flags, eventParams := (row.eventParams.setIfInBounds 0 100).setIfInBounds 1 100 }

private def drillTables : List Table :=
  [.single 100 0 4 fun row =>
      { row with
        actionKind := 80, actionParams := (row.actionParams.setIfInBounds 0 50).setIfInBounds 1 2 },
    stepRow 1 none, stepRow 3 none, stepRow 2 (some 0x80)]

private def drillSet : RuleSet := ((Store.build drillTables).1.find? (.creature 100)).getD default

private def recruit : Script := create 1 drillSet (Store.build drillTables).1 {}

private def wake : Call := { world := .empty, op := .advance 0 (some (.aggro 2)) }

private def drilled : Script := (recruit.operate wake.world wake.op).script

private def oneTick : Call := { world := .empty, op := .advance 100 none }

private def twoTicks : Call := { world := .empty, op := .advance 200 none }

private theorem retains_oneTick : Retains 50 drilled oneTick.world oneTick.op := by
  have hcommits : Commits drilled oneTick.world oneTick.op (drilled.stages 100 none .empty) :=
    .advance 100 (by simp)
  have hleft : (drilled.stages 100 none .empty).script.lists[(50 : UInt32)]?.isSome = true := by
    decide +kernel
  obtain ⟨r, hr⟩ := Option.isSome_iff_exists.mp hleft
  have hstaged : (drilled.stages 100 none .empty).script.state.staged = {} := by decide +kernel
  apply Retains.committed hcommits (hcommits.operate_eq (by decide +kernel)) hr
  · rw [hstaged]
  · rw [hstaged]
    simp

/-- The vetoed second step is taken once like the others. -/
theorem vetoed_step_is_taken :
    recruit.Reachable ∧ recruit.store = (Store.build drillTables).1 ∧
      ¬Retains 50 recruit wake.world wake.op ∧ RetainsAll 50 drilled [oneTick] ∧
      ∃ r, drilled.lists[(50 : UInt32)]? = some r ∧ StepsOn 50 r drilled [oneTick] twoTicks ∧
        stepsOf 50 (drilled.calls ([oneTick] ++ [twoTicks])).2 = [0, 1, 2] ∧
        (drilled.calls ([oneTick] ++ [twoTicks])).2.filterMap Incident.record? =
          [⟨.timedList 50, 1, 0, 0⟩, ⟨.timedList 50, 3, 0, 0⟩] := by
  have hreach : recruit.Reachable := .fresh 1 drillSet _ {} _
  have hended : ¬Retains 50 recruit wake.world wake.op := by
    rintro (hidle | ⟨hcommits, -, hleft, -⟩)
    · have hjournal : (recruit.operate wake.world wake.op).journal ≠ [] := by decide +kernel
      rw [hidle] at hjournal
      exact hjournal rfl
    · cases hcommits
      have hnone : (recruit.stages 0 (some (.aggro 2)) wake.world).script.lists[
          (50 : UInt32)]?.isNone = true := by decide +kernel
      rw [Option.isNone_iff_eq_none.mp hnone] at hleft
      cases hleft
  have hretains : RetainsAll 50 drilled [oneTick] := ⟨retains_oneTick, trivial⟩
  have hsome : drilled.lists[(50 : UInt32)]?.isSome = true := by decide +kernel
  obtain ⟨r, hr⟩ := Option.isSome_iff_exists.mp hsome
  obtain ⟨-, -, -, hsteps⟩ := list_runs_each_step_once hreach rfl hr hended
  exact ⟨hreach, rfl, hended, hretains, r, hr, hsteps [oneTick] hretains twoTicks,
    by decide +kernel, by decide +kernel⟩

end TriggerScript.Script
