import TriggerScript.Proofs.Hearing
import TriggerScript.Proofs.Resets
import TriggerScript.Proofs.Schedules

/-!
# Segments of a pass

The journal of a pass is a row of segments, one for each cause: a signal, the turns of the own rules
or a running list. In a segment rules fire directly, each in its place in the rule set of the cause,
and through links. Resets are noted between the segments.
-/

namespace TriggerScript

inductive Cause where
  | signal (signal : Signal)
  | turns
  | list (id : UInt32)
deriving DecidableEq

namespace Cause

/-- Whether a cause makes a rule fire directly. The steps of a list do so whatever event they
have. -/
def triggers : Cause → Rule → Bool
  | signal σ, rule => !rule.isPolled && σ.triggers rule.event
  | turns, rule => rule.isPolled
  | list _, _ => true

theorem event_ne_link {cause : Cause} {rule : Rule} (h : cause.triggers rule = true)
    (hlist : ∀ id, cause ≠ .list id) : rule.event ≠ .link := by
  intro hlink
  cases cause with
  | signal σ =>
    simp only [triggers, hlink, Bool.and_eq_true] at h
    cases σ <;> cases h.2
  | turns =>
    rw [triggers, Rule.isPolled, hlink] at h
    cases h
  | list id => exact hlist id rfl

end Cause

namespace Incident

/-- The cause that an incident is the note of. -/
def cause? : Incident → Option Cause
  | heard signal => some (.signal signal)
  | polled .. => some .turns
  | resumed id _ => some (.list id)
  | _ => none

def head? : Incident → Option Rule
  | fired rule 0 _ => some rule
  | _ => none

end Incident

def heads (js : List Incident) : List Rule := js.filterMap Incident.head?

theorem heads_append (js ks : List Incident) : heads (js ++ ks) = heads js ++ heads ks :=
  List.filterMap_append

structure Segment where
  cause : Cause
  note : Incident
  firings : List Incident
  noted : note.cause? = some cause
  recorded : ∀ i ∈ firings, i.record?.isSome = true

namespace Segment

def journal (g : Segment) : List Incident := g.note :: g.firings

def fired (g : Segment) : List Fired := g.firings.filterMap Incident.record?

theorem fired_journal (g : Segment) : g.journal.filterMap Incident.record? = g.fired := by
  have hnote : g.note.record? = none := by
    have hnoted := g.noted
    cases hn : g.note with
    | fired => rw [hn] at hnoted; cases hnoted
    | _ => rfl
  rw [journal, List.filterMap_cons, hnote]
  rfl

theorem direct_fired (g : Segment) :
    (g.fired.filter (·.depth = 0)).map (fun f => (f.link, f.ruleId)) =
      (heads g.firings).map fun rule => (rule.link, rule.id) := by
  unfold fired heads
  induction g.firings with
  | nil => rfl
  | cons i js ih =>
    cases i with
    | fired rule depth commands =>
      cases depth with
      | zero => exact congrArg ((rule.link, rule.id) :: ·) ih
      | succ depth => exact ih
    | _ => exact ih

end Segment

structure Direct (rules : List Rule) (js : List Incident) : Prop where
  recorded : ∀ i ∈ js, i.record?.isSome = true
  heads : (heads js).Sublist rules

theorem Direct.nil (rules : List Rule) : Direct rules [] :=
  ⟨fun _ h => absurd h List.not_mem_nil, List.nil_sublist rules⟩

theorem Direct.append {rules rules' : List Rule} {js ks : List Incident} (h : Direct rules js)
    (h' : Direct rules' ks) : Direct (rules ++ rules') (js ++ ks) where
  recorded i hi := (List.mem_append.mp hi).elim (h.recorded i) (h'.recorded i)
  heads := by
    rw [heads_append]
    exact h.heads.append h'.heads

theorem Direct.mono {rules rules' : List Rule} {js : List Incident} (h : Direct rules js)
    (hsub : rules.Sublist rules') : Direct rules' js :=
  ⟨h.recorded, h.heads.trans hsub⟩

namespace Script

theorem FiringJournal.direct {set : RuleSet} {phase : PhaseMask} {rule : Rule}
    {journal : List Incident} (h : FiringJournal set phase 0 rule journal) :
    Direct [rule] journal := by
  obtain ⟨n, linked, rfl, -, hlinked⟩ := h
  have hdeeper : heads linked = [] := by
    apply List.filterMap_eq_nil_iff.mpr
    intro i hi
    obtain ⟨x, d, m, rfl, -, hd, -⟩ := hlinked i hi
    cases d with
    | zero => cases hd
    | succ d => rfl
  constructor
  · intro i hi
    rcases List.mem_cons.mp hi with rfl | hi
    · rfl
    · obtain ⟨x, d, m, rfl, -, -, -⟩ := hlinked i hi
      rfl
  · have hheads : heads (.fired rule 0 n :: linked) = rule :: heads linked := rfl
    rw [hheads, hdeeper]

theorem direct_fireHead (set : RuleSet) (o : Occasion) (forced : Bool) (rule : Rule) (s : Script)
    (w : World) : Direct [rule] (fireHead set o forced rule s w).2.journal := by
  have h := fires_fireHead set o forced rule s w
  by_cases ho : (fireHead set o forced rule s w).1 = .fired
  · exact (h.journal ho).direct
  · rw [h.silent ho]
    exact .nil [rule]

theorem direct_attempt (o : Occasion) (rule : Rule) (s : Script) (w : World) :
    Direct [rule] (s.attempt o rule w).journal := by
  have h := direct_fireHead s.rules o false rule s w
  rw [attempt_eq]
  dsimp only
  split <;> exact h

theorem direct_inTurn {α : Type} {stage : α → Script → World → Progress} {rules : α → List Rule}
    (h : ∀ x s w, Direct (rules x) (stage x s w).journal) (xs : List α) (s : Script) (w : World) :
    Direct (xs.flatMap rules) (inTurn stage xs s w).journal := by
  induction xs generalizing s w with
  | nil => exact .nil []
  | cons x xs ih =>
    rw [inTurn_cons, List.flatMap_cons]
    exact (h x s w).append (ih _ _)

theorem flatMap_filter_singleton (p : Rule → Bool) (rules : List Rule) :
    (rules.flatMap fun rule => [rule].filter p) = rules.filter p := by
  rw [← List.filter_flatMap]
  simp

theorem direct_react (signal : Signal) (rule : Rule) (s : Script) (w : World) :
    Direct ([rule].filter fun rule => !rule.isPolled && signal.triggers rule.event)
      (s.react signal rule w).journal := by
  unfold react
  split
  · rename_i hreacts
    rw [Bool.and_eq_true] at hreacts
    rw [List.filter_singleton, hreacts.1]
    exact direct_attempt _ rule s w
  · exact .nil _

theorem direct_poll (deltaMs : UInt32) (inCombat : Bool) (rule : Rule) (s : Script) (w : World) :
    Direct ([rule].filter (·.isPolled)) (s.poll deltaMs inCombat rule w).journal := by
  cases hp : rule.isPolled with
  | false =>
    unfold poll
    rw [if_pos (by simp [hp])]
    exact .nil _
  | true =>
    rw [List.filter_singleton, hp]
    rcases poll_cases deltaMs inCombat rule s w with h | ⟨-, h | ⟨-, o, h⟩⟩
    · rw [h]
      exact .nil _
    · rw [h]
      exact .nil _
    · rw [h]
      exact direct_attempt o rule _ w

theorem direct_fireStep (runner : ListRunner) (index : Nat) (s : Script) (w : World) :
    Direct runner.rules.rules[index]?.toList (s.fireStep runner index w).journal := by
  unfold fireStep
  cases runner.rules.rules[index]? with
  | none => exact .nil _
  | some rule => exact direct_fireHead runner.rules _ false rule s w

def rulesBy (s : Script) : Cause → List Rule
  | .signal _ | .turns => s.rules.rules
  | .list id => (s.store.timedList? id).elim [] (·.rules)

def candidates (s : Script) (cause : Cause) : List Rule := (s.rulesBy cause).filter cause.triggers

/-- A journal is a row of segments of these causes, resets apart. -/
def Made (s : Script) (causes : List Cause) (js : List Incident) : Prop :=
  ∃ segments : List Segment, segments.map (·.cause) = causes ∧
    js.filter (· ≠ .reset) = segments.flatMap Segment.journal ∧
    ∀ g ∈ segments, (heads g.firings).Sublist (s.candidates g.cause)

variable {s t : Script} {causes causes' : List Cause} {js ks : List Incident}

theorem Made.of_keeps (h : t.Made causes js) (hk : s.Keeps t) : s.Made causes js := by
  have hcandidates : ∀ cause, t.candidates cause = s.candidates cause := by
    intro cause
    cases cause with
    | signal | turns => simp only [candidates, rulesBy, hk.rules]
    | list => simp only [candidates, rulesBy, hk.store]
  obtain ⟨segments, hcauses, hjs, hheads⟩ := h
  refine ⟨segments, hcauses, hjs, ?_⟩
  intro g hg
  rw [← hcandidates]
  exact hheads g hg

theorem Made.append (h : s.Made causes js) (h' : s.Made causes' ks) :
    s.Made (causes ++ causes') (js ++ ks) := by
  obtain ⟨segments, hcauses, hjs, hheads⟩ := h
  obtain ⟨segments', hcauses', hks, hheads'⟩ := h'
  refine ⟨segments ++ segments', ?_, ?_, ?_⟩
  · rw [List.map_append, hcauses, hcauses']
  · rw [List.filter_append, hjs, hks, List.flatMap_append]
  · intro g hg
    exact (List.mem_append.mp hg).elim (hheads g) (hheads' g)

theorem Made.andThen {p : Progress} {stage : Script → World → Progress}
    (h : s.Made causes p.journal) (hk : s.Keeps p.script)
    (h' : p.script.Made causes' (stage p.script p.world).journal) :
    s.Made (causes ++ causes') (p.andThen stage).journal :=
  h.append (h'.of_keeps hk)

theorem made_nil (s : Script) : s.Made [] [] := ⟨[], rfl, rfl, fun _ h => absurd h List.not_mem_nil⟩

theorem made_reset (s : Script) : s.Made [] [.reset] :=
  ⟨[], rfl, by simp, fun _ h => absurd h List.not_mem_nil⟩

theorem made_segment {note : Incident} {cause : Cause} (hnote : note.cause? = some cause)
    (h : Direct (s.candidates cause) js) : s.Made [cause] (note :: js) := by
  have hkept : (note :: js).filter (· ≠ .reset) = note :: js := by
    apply List.filter_eq_self.mpr
    intro i hi
    rw [decide_eq_true_iff]
    rintro rfl
    rcases List.mem_cons.mp hi with hi | hi
    · rw [← hi] at hnote
      cases hnote
    · have hrecorded := h.recorded _ hi
      cases hrecorded
  refine ⟨[⟨cause, note, js, hnote, h.recorded⟩], rfl, ?_, ?_⟩
  · rw [hkept]
    simp [Segment.journal]
  · intro g hg
    rw [List.mem_singleton.mp hg]
    exact h.heads

theorem made_handleSignal (signal : Signal) (s : Script) (w : World) :
    s.Made [.signal signal] (s.handleSignal signal w).journal := by
  have hdirect := direct_inTurn (direct_react signal) s.rules.rules s w
  rw [flatMap_filter_singleton] at hdirect
  exact made_segment rfl hdirect

theorem made_advancePolled (deltaMs : UInt32) (s : Script) (w : World) :
    s.Made [.turns] (s.advancePolled deltaMs w).journal := by
  have hdirect := direct_inTurn (direct_poll deltaMs (w.inCombat s.owner)) s.rules.rules s w
  rw [flatMap_filter_singleton] at hdirect
  exact made_segment rfl hdirect

theorem made_handleSignals (hs : s.Listed) (signals : List Signal) (w : World) :
    s.Made (signals.map .signal) (s.handleSignals signals w).journal := by
  unfold handleSignals
  induction signals generalizing s w with
  | nil => exact made_nil s
  | cons signal signals ih =>
    have hwalks := lasts_commitLaw.walks_handleSignal (w := w) hs signal
    rw [inTurn_cons]
    exact (made_handleSignal signal s w).andThen hwalks.keeps (ih hwalks.listed _)

theorem made_handleDeferred (hs : s.Listed) (w : World) :
    s.Made (s.state.deferred.map .signal) (s.handleDeferred w).journal := by
  have htaken : s.taken.Listed := hs.of_eq rfl rfl
  exact (made_handleSignals htaken s.state.deferred w).of_keeps (keeps_taken s)

theorem made_startOver (s : Script) (w : World) :
    s.Made [.signal .reset] (s.startOver w).journal :=
  (made_reset s).append ((made_handleSignal .reset s.resetState w).of_keeps (keeps_resetState s))

theorem made_receive (s : Script) (signal : Option Signal) (w : World) :
    s.Made ((announced signal).map .signal) (s.receive signal w).journal := by
  cases signal with
  | none => exact made_nil s
  | some signal =>
    have hkeeps := (aside_heeding signal s).keeps.toKeeps
    rw [receive_some, announced]
    split
    · have hover := lasts_commitLaw.walks_startOver (s := s.heeding signal) (w := w)
      have hmade := (made_startOver _ w).andThen hover.keeps (made_handleSignal signal _ _)
      exact hmade.of_keeps hkeeps
    · split
      · rename_i hreset
        rw [hreset]
        exact (made_startOver _ w).of_keeps (hreset ▸ hkeeps)
      · exact (made_handleSignal signal _ w).of_keeps hkeeps

theorem made_advanceTimedEvents (hs : s.Listed) (deltaMs : UInt32) (w : World) :
    s.Made ((s.raised deltaMs).map fun id => .signal (.timedEventTriggered id))
      (s.advanceTimedEvents deltaMs w).journal := by
  have haside := aside_tickEvents deltaMs s.state.timedEvents.toList s
  have hlists := lists_tickEvents deltaMs s.state.timedEvents.toList s
  have hlisted := hs.of_eq hlists haside.keeps.store
  have hmade := made_handleSignals hlisted ((s.raised deltaMs).map .timedEventTriggered) w
  rw [List.map_map] at hmade
  exact hmade.of_keeps haside.keeps.toKeeps

theorem made_commit (s : Script) (w : World) :
    ∃ late : List Signal, s.Made (late.map .signal) (s.commit w).journal ∧
      (s.state.staged.reset = true ∧ late = [.reset] ∨
        s.state.staged.reset = false ∧ late = []) := by
  cases hreset : s.state.staged.reset with
  | true =>
    refine ⟨[.reset], ?_, .inl ⟨rfl, rfl⟩⟩
    have hover := (made_startOver s.commitState w).of_keeps (keeps_commitState s)
    have hjournal : (s.commit w).journal = (s.commitState.startOver w).journal := by
      rw [commit_of_requested hreset]
      simp [settle]
    rw [hjournal]
    exact hover
  | false =>
    refine ⟨[], ?_, .inr ⟨rfl, rfl⟩⟩
    rw [commit_of_unrequested hreset]
    exact made_nil s

theorem made_advanceList (hs : s.Listed) {id : UInt32} {runner : ListRunner}
    (hrunner : s.lists[id]? = some runner) (deltaMs : UInt32) (inCombat : Bool) (w : World) :
    s.Made [.list id] (s.advanceList deltaMs inCombat id w).journal := by
  have hcandidates : s.candidates (.list id) = runner.rules.rules := by
    rw [candidates, rulesBy, hs id runner hrunner]
    exact List.filter_eq_self.mpr fun _ _ => rfl
  have hrules := runner.rules_advance deltaMs inCombat s.rng
  have hsteps := runner.steps_advance deltaMs inCombat s.rng
  obtain ⟨due, runner', rng, hadvance, hjournal, -⟩ :=
    advanceList_eq hrunner deltaMs inCombat w
  rw [hadvance] at hrules hsteps
  dsimp only at hrules hsteps
  have hdirect := direct_inTurn (direct_fireStep runner') due
    { s with rng, lists := s.lists.insert id runner' } w
  rw [hrules] at hdirect
  rw [hjournal]
  apply made_segment rfl
  rw [hcandidates]
  exact hdirect.mono hsteps

theorem made_lists (hs : s.Listed) {ids : List UInt32} (hids : ids.Nodup)
    (hrun : ∀ id ∈ ids, s.lists[id]?.isSome = true) (deltaMs : UInt32) (inCombat : Bool)
    (w : World) :
    s.Made (ids.map .list) (inTurn (advanceList deltaMs inCombat) ids s w).journal := by
  induction ids generalizing s w with
  | nil => exact made_nil s
  | cons id ids ih =>
    obtain ⟨hid, hids⟩ := List.nodup_cons.mp hids
    obtain ⟨runner, hrunner⟩ := Option.isSome_iff_exists.mp (hrun id List.mem_cons_self)
    have hwalks := lasts_listLaw.walks_advanceList (w := w) hs deltaMs inCombat id
    have hothers : ∀ id' ∈ ids,
        (s.advanceList deltaMs inCombat id w).script.lists[id']?.isSome = true := by
      intro id' hid'
      have hne : id ≠ id' := fun heq => hid (heq ▸ hid')
      rw [lists_advanceList_of_ne hne]
      exact hrun id' (List.mem_cons_of_mem _ hid')
    rw [inTurn_cons]
    exact (made_advanceList hs hrunner deltaMs inCombat w).andThen hwalks.keeps
      (ih hwalks.listed hids hothers _)

theorem made_advanceLists (hs : s.Listed) (deltaMs : UInt32) (w : World) :
    s.Made (s.lists.keys.map .list) (s.advanceLists deltaMs w).journal := by
  apply made_lists hs s.lists.nodup_keys
  intro id hid
  exact Std.ExtTreeMap.isSome_getElem?_iff_mem.mpr (Std.ExtTreeMap.mem_keys.mp hid)

/-- No rule without a chance fires, unless it is forced. -/
theorem chanced_firingLaw :
    FiringLaw false fun _ _ p => ∀ rule depth commands,
      Incident.fired rule depth commands ∈ p.journal → rule.spec.chance ≠ 0 where
  join _ h h' rule depth commands hmem := by
    rw [Progress.journal_andThen] at hmem
    exact (List.mem_append.mp hmem).elim (h rule depth commands) (h' rule depth commands)
  aside _ _ _ _ _ hmem := nomatch hmem
  shot := by
    intro s set forced rule w o depth _ _ hforced hthrough x d n hmem hchance
    obtain ⟨m, hjournal⟩ := journal_shoot set o depth forced rule s w
    rw [hjournal, List.mem_singleton] at hmem
    cases hmem
    cases forced with
    | true => cases hforced rfl
    | false =>
      have hlucky := hthrough.lucky
      unfold losesChance at hlucky
      rw [hchance] at hlucky
      simp at hlucky
  timed _ _ _ _ _ _ _ hmem := nomatch hmem
  noted := by
    intro i s w hi _ _ rule depth commands hmem
    rw [← List.mem_singleton.mp hmem] at hi
    cases hi

theorem chance_ne_zero_of_fired (hs : s.Listed) (hd : s.despawned = false) (deltaMs : UInt32)
    {signal : Option Signal} (hsig : signal ≠ some .despawn) (w : World) {rule : Rule}
    {depth commands : Nat}
    (h : Incident.fired rule depth commands ∈ (s.advance deltaMs signal w).journal) :
    rule.spec.chance ≠ 0 := by
  have hcommit : CommitLaw _ :=
    { toLaw := chanced_firingLaw.law
      renewed := fun _ _ _ _ _ hmem => nomatch List.mem_singleton.mp hmem
      settled := fun _ _ _ _ _ hmem => nomatch hmem }
  have hstages := chanced_firingLaw.walks_stages hcommit.renewed hs deltaMs signal w
  rw [advance_eq hd deltaMs hsig] at h
  rcases List.mem_append.mp h with h | h
  · exact hstages.law rule depth commands h
  · exact (hcommit.walks_commit hstages.listed).law rule depth commands h

/-- The causes of a pass in their order, when these timed events are raised and these signals come
with the commit. -/
def causesOf (signal : Option Signal) (ids : List UInt32) (late : List Signal) (s : Script) :
    List Cause :=
  s.state.deferred.map .signal ++ (announced signal).map .signal ++
    ids.map (fun id => .signal (.timedEventTriggered id)) ++ [.turns] ++
    (s.listsLeft signal).keys.map .list ++ late.map .signal

theorem made_hear (hs : s.Listed) (deltaMs : UInt32) (signal : Option Signal) (w : World) :
    ∃ ids, Raises deltaMs (s.eventsLeft signal) ids ∧
      s.Made (s.state.deferred.map .signal ++ (announced signal).map .signal ++
        ids.map fun id => .signal (.timedEventTriggered id)) (s.hear deltaMs signal w).journal ∧
      (s.hear deltaMs signal w).script.lists = s.listsLeft signal := by
  have hdeferred := lasts_commitLaw.walks_handleDeferred (w := w) hs
  have hmade := made_handleDeferred hs w
  have hschedule : (s.handleDeferred w).script.schedule = s.schedule :=
    schedule_handleSignals s.state.deferred s.taken w
  generalize hp : s.handleDeferred w = p at hdeferred hmade hschedule
  have hreceived := lasts_commitLaw.walks_join hdeferred
    (lasts_commitLaw.walks_receive hdeferred.listed signal)
  have hkeeps := (keeps_taken s).trans hdeferred.keeps
  have hmade' := hmade.andThen hkeeps (made_receive p.script signal p.world)
  have hschedule' : (p.andThen (receive signal)).script.schedule =
      (s.listsLeft signal, s.eventsLeft signal) := by
    obtain ⟨hlists, hevents⟩ := left_of_schedule hschedule signal
    rw [Progress.script_andThen, schedule_receive, hlists, hevents]
  generalize hq : p.andThen (receive signal) = q at hreceived hmade' hschedule'
  obtain ⟨hlists, hevents⟩ := Prod.mk.inj hschedule'
  unfold hear
  rw [hp, hq]
  refine ⟨q.script.raised deltaMs, ?_, ?_, ?_⟩
  · rw [← hevents]
    exact raises_raised deltaMs q.script
  · exact hmade'.andThen ((keeps_taken s).trans hreceived.keeps)
      (made_advanceTimedEvents hreceived.listed deltaMs q.world)
  · rw [← hlists]
    exact lists_advanceTimedEvents deltaMs q.script q.world

theorem made_stages (hs : s.Listed) (deltaMs : UInt32) (signal : Option Signal) (w : World) :
    ∃ ids, Raises deltaMs (s.eventsLeft signal) ids ∧
      s.Made (s.causesOf signal ids []) (s.stages deltaMs signal w).journal := by
  obtain ⟨ids, hraises, hmade, hlists⟩ := made_hear hs deltaMs signal w
  have hheard := lasts_commitLaw.walks_hear (w := w) hs deltaMs signal
  have hkeeps := (keeps_taken s).trans hheard.keeps
  refine ⟨ids, hraises, ?_⟩
  unfold stages causesOf
  generalize s.hear deltaMs signal w = p at hmade hlists hheard hkeeps ⊢
  have hpolled := lasts_advancePolled (w := p.world) hheard.listed deltaMs
  have hlists' : (p.andThen (advancePolled deltaMs)).script.lists = s.listsLeft signal := by
    rw [Progress.script_andThen, lists_advancePolled, hlists]
  have hmade' := hmade.andThen hkeeps (made_advancePolled deltaMs p.script p.world)
  rw [List.map_nil, List.append_nil, ← hlists']
  exact hmade'.andThen (hkeeps.trans hpolled.keeps) (made_advanceLists hpolled.listed deltaMs _)

/-- The rules that fired directly in a segment are triggered by its cause, and they stand at
increasing places among the rules of the cause. -/
structure InOrder (s : Script) (g : Segment) : Prop where
  records : (g.fired.filter (·.depth = 0)).map (fun f => (f.link, f.ruleId)) =
    (heads g.firings).map fun rule => (rule.link, rule.id)
  places : ∃ places : List (Fin (s.rulesBy g.cause).length), places.Pairwise (· < ·) ∧
    heads g.firings = places.map ((s.rulesBy g.cause)[·])
  triggered : ∀ rule ∈ heads g.firings, g.cause.triggers rule = true
  distinct : ((s.rulesBy g.cause).map (·.id)).Nodup → ((heads g.firings).map (·.id)).Nodup
  unlinked : (∀ id, g.cause ≠ .list id) → ∀ rule ∈ heads g.firings, rule.event ≠ .link

theorem inOrder_of_sublist {g : Segment} (h : (heads g.firings).Sublist (s.candidates g.cause)) :
    s.InOrder g := by
  have hrules : (heads g.firings).Sublist (s.rulesBy g.cause) := h.trans List.filter_sublist
  have htriggered : ∀ rule ∈ heads g.firings, g.cause.triggers rule = true :=
    fun _ hr => (List.mem_filter.mp (h.subset hr)).2
  obtain ⟨places, heq, hplaces⟩ := List.sublist_eq_map_getElem hrules
  exact
    { records := g.direct_fired
      places := ⟨places, hplaces, heq⟩
      triggered := htriggered
      distinct := fun hids => hids.sublist (hrules.map _)
      unlinked := fun hlist _ hr => Cause.event_ne_link (htriggered _ hr) hlist }

theorem fired_eq_of_journal {js : List Incident} {segments : List Segment}
    (h : js.filter (· ≠ .reset) = segments.flatMap Segment.journal) :
    js.filterMap Incident.record? = segments.flatMap Segment.fired := by
  have hresets : (js.filter (· ≠ .reset)).filterMap Incident.record? =
      js.filterMap Incident.record? := by
    rw [List.filterMap_filter]
    congr 1
    funext i
    cases i <;> rfl
  rw [← hresets, h, List.filterMap_flatMap]
  congr 1
  funext g
  exact g.fired_journal

/-- What fires in a pass is a row of segments: one for each deferred signal, for a reset that comes
with the signal of the pass, for that signal, for each timed event that is raised, for the turns of
the own rules, for each running list and for the reset of the commit, if one is requested. In each
of them the rules that fire directly are triggered by its cause and come in their order. -/
theorem pass_is_segmented (hs : s.Reachable) (hd : s.despawned = false) {signal : Option Signal}
    (hsig : signal ≠ some .despawn) (deltaMs : UInt32) (w : World) :
    ∃ (ids : List UInt32) (late : List Signal) (segments : List Segment),
      (s.advance deltaMs signal w).fired = segments.flatMap Segment.fired ∧
      (s.advance deltaMs signal w).journal.filter (· ≠ .reset) =
        segments.flatMap Segment.journal ∧
      segments.map (·.cause) = s.causesOf signal ids late ∧
      Raises deltaMs (s.eventsLeft signal) ids ∧
      (s.listsLeft signal).keys.Pairwise (· < ·) ∧
      ((s.stages deltaMs signal w).script.state.staged.reset = true ∧ late = [.reset] ∨
        (s.stages deltaMs signal w).script.state.staged.reset = false ∧ late = []) ∧
      ((s.stages deltaMs signal w).script.state.staged.reset = true ↔
        Asked (s.stages deltaMs signal w).journal) ∧
      (∀ g ∈ segments, s.InOrder g) ∧
      ∀ rule depth commands,
        Incident.fired rule depth commands ∈ (s.advance deltaMs signal w).journal →
          rule.spec.chance ≠ 0 := by
  have hl := hs.sound.listed
  obtain ⟨ids, hraises, hstages⟩ := made_stages hl deltaMs signal w
  obtain ⟨late, hcommit, hlate⟩ := made_commit (s.stages deltaMs signal w).script
    (s.stages deltaMs signal w).world
  have hkeeps := (keeps_taken s).trans (lasts_stages (w := w) hl deltaMs signal).keeps
  have hmade : s.Made (s.causesOf signal ids late) (s.advance deltaMs signal w).journal := by
    have hjoined := hstages.andThen hkeeps hcommit
    rw [← advance_eq hd deltaMs hsig] at hjoined
    simpa [causesOf] using hjoined
  obtain ⟨segments, hcauses, hjournal, hheads⟩ := hmade
  refine ⟨ids, late, segments, fired_eq_of_journal hjournal, hjournal, hcauses, hraises,
    ascending_keys _, hlate, ?_, ?_, ?_⟩
  · exact (Commits.advance deltaMs hsig).requested_iff hs.sound
  · exact fun g hg => inOrder_of_sublist (hheads g hg)
  · exact fun _ _ _ => chance_ne_zero_of_fired hl hd deltaMs hsig w

private def certain (id : RuleId) (event : Event) (actions : List Action) (linkTo : Option RuleId) :
    Rule where
  link := .creature 100
  id
  spec :=
    { event, phase := .always, flags := .none, chance := 100, cooldownMin := 0, cooldownMax := 0 }
  actions := actions.map fun action => { action }
  target := { target := .none }
  linkTo
  comment := ""

private def busyRules : RuleSet where
  link := .creature 100
  rules :=
    [certain 1 .aiInit
        [.setEventPhase 1, .createTimedEvent 7 5 5 0 0 100, .callTimedActionList 50 .any false]
        none,
      certain 2 (.eventPhaseChange (.single 1)) [.callScriptReset] (some 6),
      certain 3 .aggro [] none, certain 4 (.update 5 5) [] none,
      certain 5 (.timedEventTriggered 7) [] none, certain 6 .link [] none,
      certain 7 .reset [] none]

private def busySteps : RuleSet where
  link := .timedList 50
  rules := [{ certain 1 (.update 0 0) [] none with link := .timedList 50 }]

private def calm : World := (World.empty.spawn .creature 100 .origin).2

private def busy : Script :=
  ((fresh 1 busyRules ((∅ : Store).insert (.timedList 50) busySteps) {}
    { key := .replicate 8 0 }).advance 0 (some .aiInit) calm).script

/-- A pass with a segment of every kind. The rule that hears of the phase links to another one and
asks for a reset. -/
theorem busy_pass_has_six_segments :
    busy.Reachable ∧ busy.despawned = false ∧ some (Signal.aggro 2) ≠ some .despawn ∧
      ((busy.advance 5 (some (.aggro 2)) calm).fired.map fun f => (f.ruleId, f.depth)) =
        [(2, 0), (6, 1), (3, 0), (5, 0), (4, 0), (1, 0), (7, 0)] ∧
      ∃ segments : List Segment,
        (busy.advance 5 (some (.aggro 2)) calm).fired =
          segments.flatMap Segment.fired ∧
        segments.map (·.cause) =
          [.signal (.eventPhaseChange (.single 1)), .signal (.aggro 2),
            .signal (.timedEventTriggered 7), .turns, .list 50, .signal .reset] ∧
        ∀ g ∈ segments, busy.InOrder g := by
  have hreach : busy.Reachable := .operate calm (.advance 0 (some .aiInit)) (.fresh 1 _ _ {} _)
  have hsig : some (Signal.aggro 2) ≠ some .despawn := by simp
  refine ⟨hreach, rfl, hsig, by decide +kernel, ?_⟩
  obtain ⟨ids, late, segments, hfired, -, hcauses, hraises, -, hlate, -, horder, -⟩ :=
    pass_is_segmented hreach rfl hsig 5 calm
  have hids : ids = [7] :=
    hraises.eq_singleton (e := ⟨0, 5, none, 100⟩) (by decide +kernel) (by decide) (by decide)
  have hreset : (busy.stages 5 (some (.aggro 2)) calm).script.state.staged.reset = true := by
    decide +kernel
  have hlate : late = [.reset] := by
    simpa [hreset] using hlate
  refine ⟨segments, hfired, ?_, horder⟩
  rw [hcauses, hids, hlate]
  decide +kernel

end Script

end TriggerScript
