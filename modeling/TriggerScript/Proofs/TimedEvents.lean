import TriggerScript.Proofs.ListRequests
import TriggerScript.Proofs.StagedChanges

/-!
# Timed events

The timed events of a script change in two places of a call. The clock of a pass lets time pass for
each of them; one that is due is attempted and then dropped or given a further delay, whether it is
raised or not. The commit carries out the changes that the actions of the fired rules ask for, in
order.
-/

namespace TriggerScript

def Script.event? (s : Script) (id : UInt32) : Option TimedEvent := s.state.timedEvents[id]?

theorem TimedEvent.isDueIn_iff (e : TimedEvent) (deltaMs : UInt32) :
    e.IsDueIn deltaMs ↔ e.nextFireAt.toNat ≤ e.elapsed.toNat + deltaMs.toNat := by
  have hsum := toNat_addSat e.elapsed deltaMs
  have hlt := e.nextFireAt.toNat_lt
  unfold IsDueIn
  rw [UInt32.le_iff_toNat_le, hsum]
  simp only [UInt32.size]
  omega

/-- What becomes of a timed event, if there is one, when time passes. -/
inductive TimedEvent.Ticks (deltaMs : UInt32) : Option TimedEvent → Option TimedEvent → Prop
  | absent : Ticks deltaMs none none
  | waits {e} : ¬e.IsDueIn deltaMs →
      Ticks deltaMs (some e) (some { e with elapsed := addSat e.elapsed deltaMs })
  | ends {e} : e.IsDueIn deltaMs → e.repeats = none → Ticks deltaMs (some e) none
  | again {e min max} (g : Rng) : e.IsDueIn deltaMs → e.repeats = some (min, max) →
      Ticks deltaMs (some e) (some { e with elapsed := 0, nextFireAt := (g.roll min max).1 })

namespace Script

variable {deltaMs : UInt32} {events : List (UInt32 × TimedEvent)} {id id' : UInt32}
  {e : TimedEvent} {s : Script} {w : World} {op : Operation} {p : Progress} {tables : List Table}

theorem ticks_tickEvent (deltaMs : UInt32) (e : TimedEvent) (g : Rng) :
    TimedEvent.Ticks deltaMs (some e) (tickEvent deltaMs e g).2.1 := by
  unfold tickEvent
  dsimp only
  by_cases hearly : addSat e.elapsed deltaMs < e.nextFireAt
  · rw [if_pos hearly]
    exact .waits (UInt32.not_le.mpr hearly)
  · have hdue : e.IsDueIn deltaMs := UInt32.not_lt.mp hearly
    rw [if_neg hearly]
    generalize (if e.chance ≥ 100 then (true, g) else _) = drawn
    have hagain : ∀ range, e.repeats = some range → TimedEvent.Ticks deltaMs (some e)
        (some { e with elapsed := 0, nextFireAt := (drawn.2.roll range.1 range.2).1 }) :=
      fun range hrange => .again drawn.2 hdue hrange
    cases hrepeats : e.repeats with
    | none => exact .ends hdue hrepeats
    | some range =>
      have hrange := hagain range hrepeats
      rw [hrepeats] at hrange
      exact hrange

theorem event?_tickEvents_concat (deltaMs : UInt32) (events : List (UInt32 × TimedEvent))
    (id' : UInt32) (e : TimedEvent) (s : Script) (id : UInt32) :
    (tickEvents deltaMs (events ++ [(id', e)]) s).2.event? id =
      if id' = id then (tickEvent deltaMs e (tickEvents deltaMs events s).2.rng).2.1
      else (tickEvents deltaMs events s).2.event? id := by
  unfold tickEvents event?
  rw [List.foldl_append]
  generalize events.foldl _ ([], s) = q
  rw [List.foldl_cons, List.foldl_nil]
  dsimp only
  cases (tickEvent deltaMs e q.2.rng).2.1 with
  | none =>
    show (q.2.state.timedEvents.erase id')[id]? = _
    rw [Std.ExtTreeMap.getElem?_erase]
    simp
  | some e =>
    show (q.2.state.timedEvents.insert id' e)[id]? = _
    rw [Std.ExtTreeMap.getElem?_insert]
    simp

theorem event?_tickEvents_of_not_mem (h : id ∉ events.map Prod.fst) :
    (tickEvents deltaMs events s).2.event? id = s.event? id := by
  induction events using List.reverseRecOn with
  | nil => rfl
  | append_singleton events event ih =>
    rw [List.map_append, List.mem_append, not_or] at h
    have hne : event.1 ≠ id := fun heq => h.2 (heq ▸ List.mem_cons_self)
    rw [event?_tickEvents_concat, if_neg hne]
    exact ih h.1

theorem ticks_tickEvents (hmem : (id, e) ∈ events) (hids : (events.map Prod.fst).Nodup) :
    TimedEvent.Ticks deltaMs (some e) ((tickEvents deltaMs events s).2.event? id) := by
  induction events using List.reverseRecOn with
  | nil => cases hmem
  | append_singleton events event ih =>
    rw [List.map_append, List.nodup_append] at hids
    rw [event?_tickEvents_concat]
    rcases List.mem_append.mp hmem with hbefore | hlast
    · have hne : event.1 ≠ id := fun heq =>
        hids.2.2 id (List.mem_map_of_mem hbefore) event.1 List.mem_cons_self heq.symm
      rw [if_neg hne]
      exact ih hbefore hids.1
    · cases List.mem_singleton.mp hlast
      rw [if_pos rfl]
      exact ticks_tickEvent deltaMs e _

theorem ticks_clock (deltaMs : UInt32) (s : Script) (id : UInt32) :
    TimedEvent.Ticks deltaMs (s.event? id)
      ((tickEvents deltaMs s.state.timedEvents.toList s).2.event? id) := by
  have hids : (s.state.timedEvents.toList.map Prod.fst).Nodup := by
    rw [Std.ExtTreeMap.map_fst_toList_eq_keys]
    exact Std.ExtTreeMap.nodup_keys
  cases he : s.event? id with
  | none =>
    have hmem : id ∉ s.state.timedEvents.toList.map Prod.fst := by
      rw [Std.ExtTreeMap.map_fst_toList_eq_keys, Std.ExtTreeMap.mem_keys,
        Std.ExtTreeMap.mem_iff_isSome_getElem?]
      show ¬(s.event? id).isSome = true
      rw [he]
      exact Bool.false_ne_true
    rw [event?_tickEvents_of_not_mem hmem, he]
    exact .absent
  | some e =>
    exact ticks_tickEvents (Std.ExtTreeMap.mem_toList_iff_getElem?_eq_some.mpr he) hids

theorem event?_of_schedule {t : Script} (h : t.schedule = s.schedule) (id : UInt32) :
    t.event? id = s.event? id := congrArg (·.2[id]?) h

theorem event?_advanceTimedEvents (deltaMs : UInt32) (s : Script) (w : World) (id : UInt32) :
    (s.advanceTimedEvents deltaMs w).script.event? id =
      (tickEvents deltaMs s.state.timedEvents.toList s).2.event? id :=
  event?_of_schedule (schedule_handleSignals ((s.raised deltaMs).map .timedEventTriggered) _ w) id

theorem schedule_poll (deltaMs : UInt32) (inCombat : Bool) (rule : Rule) (s : Script) (w : World) :
    (s.poll deltaMs inCombat rule w).script.schedule = s.schedule := by
  rcases poll_cases deltaMs inCombat rule s w with h | ⟨-, h | ⟨-, o, h⟩⟩
  · rw [h]
  · rw [h]
    rfl
  · rw [h, schedule_attempt]
    rfl

theorem event?_advancePolled (deltaMs : UInt32) (s : Script) (w : World) (id : UInt32) :
    (s.advancePolled deltaMs w).script.event? id = s.event? id :=
  event?_of_schedule (unchanged_inTurn schedule (schedule_poll deltaMs _) s.rules.rules s w) id

theorem event?_advanceList (id : UInt32) (deltaMs : UInt32) (inCombat : Bool) (listId : UInt32)
    (s : Script) (w : World) :
    (s.advanceList deltaMs inCombat listId w).script.event? id = s.event? id := by
  have hsteps : ∀ (runner : ListRunner) due (t : Script) v,
      (inTurn (fireStep runner) due t v).script.event? id = t.event? id :=
    fun runner due t v =>
      event?_of_schedule (unchanged_inTurn schedule (schedule_fireStep runner) due t v) id
  unfold advanceList
  cases s.lists[listId]? with
  | none => rfl
  | some runner =>
    dsimp only
    split
    · exact hsteps _ _ _ w
    · exact hsteps _ _ _ w

theorem event?_advanceLists (deltaMs : UInt32) (s : Script) (w : World) (id : UInt32) :
    (s.advanceLists deltaMs w).script.event? id = s.event? id :=
  unchanged_inTurn (·.event? id) (event?_advanceList id deltaMs _) _ s w

theorem mem_reset_startOver (s : Script) (w : World) :
    Incident.reset ∈ (s.startOver w).journal := List.mem_cons_self

theorem mem_reset_receive {signal : Option Signal} (h : renews signal = true) (s : Script)
    (w : World) : Incident.reset ∈ (s.receive signal w).journal := by
  cases signal with
  | none => cases h
  | some signal =>
    rw [receive_some]
    by_cases hresets : signal.resetsScript = true
    · rw [if_pos hresets]
      exact List.mem_append_left _ (mem_reset_startOver _ w)
    · have hreset : signal = .reset := by simpa [renews, hresets] using h
      rw [if_neg hresets, if_pos hreset]
      exact mem_reset_startOver _ w

theorem renews_of_stages {signal : Option Signal}
    (hreset : Incident.reset ∉ (s.stages deltaMs signal w).journal) : renews signal = false := by
  rw [← Bool.not_eq_true]
  intro h
  have hmem := mem_reset_receive h (s.handleDeferred w).script (s.handleDeferred w).world
  unfold stages hear at hreset
  simp only [Progress.journal_andThen, List.mem_append, not_or] at hreset
  exact hreset.1.1.1.2 hmem

theorem event?_received {signal : Option Signal} (hrenews : renews signal = false) (s : Script)
    (w : World) (id : UInt32) :
    ((s.handleDeferred w).andThen (receive signal)).script.event? id = s.event? id := by
  have htold : (s.handleDeferred w).script.schedule = s.schedule :=
    schedule_handleSignals s.state.deferred s.taken w
  have hreceived := schedule_receive signal (s.handleDeferred w).script (s.handleDeferred w).world
  have hleft : s.eventsLeft signal = s.state.timedEvents := by
    unfold eventsLeft
    rw [hrenews, if_neg Bool.false_ne_true]
  rw [(left_of_schedule htold signal).2, hleft] at hreceived
  exact congrArg (·.2[id]?) hreceived

/-- Up to its commit a pass without resets does to a timed event what the clock does. -/
theorem ticks_stages {signal : Option Signal}
    (hreset : Incident.reset ∉ (s.stages deltaMs signal w).journal) (id : UInt32) :
    TimedEvent.Ticks deltaMs (s.event? id) ((s.stages deltaMs signal w).script.event? id) := by
  unfold stages hear
  rw [Progress.script_andThen, event?_advanceLists, Progress.script_andThen, event?_advancePolled,
    Progress.script_andThen, event?_advanceTimedEvents,
    ← event?_received (renews_of_stages hreset) s w id]
  exact ticks_clock deltaMs _ id

end Script

def Action.eventId? : Action → Option UInt32
  | .createTimedEvent id .. => some id
  | .triggerTimedEvent id => some id
  | .removeTimedEvent id => some id
  | _ => .none

def actionsOn (id : UInt32) (js : List Incident) : List Action :=
  (actionsOf js).filter (·.eventId? = some id)

@[simp] theorem actionsOn_append (id : UInt32) (js ks : List Incident) :
    actionsOn id (js ++ ks) = actionsOn id js ++ actionsOn id ks := by
  unfold actionsOn
  rw [actionsOf_append, List.filter_append]

inductive Action.Changes : Action → Option TimedEvent → Option TimedEvent → Prop
  | created {id initialMin initialMax repeatMin repeatMax chance delay} (before) :
      initialMin ≤ delay → delay ≤ initialMax →
      Changes (.createTimedEvent id initialMin initialMax repeatMin repeatMax chance) before
        (some
          { elapsed := 0, nextFireAt := delay
            repeats := if repeatMax = 0 then .none else some (repeatMin, repeatMax), chance })
  | triggered {id} (before : Option TimedEvent) :
      Changes (.triggerTimedEvent id) before
        (before.map fun e => { e with elapsed := e.nextFireAt })
  | removed {id} (before) : Changes (.removeTimedEvent id) before .none

inductive ChangesInTurn : List Action → Option TimedEvent → Option TimedEvent → Prop
  | nil (e) : ChangesInTurn [] e e
  | cons {a as before between after} : a.Changes before between → ChangesInTurn as between after →
      ChangesInTurn (a :: as) before after

theorem ChangesInTurn.eq_of_nil {before after : Option TimedEvent}
    (h : ChangesInTurn [] before after) : after = before := by
  cases h
  rfl

theorem ChangesInTurn.append {as bs : List Action} {before between after : Option TimedEvent}
    (h : ChangesInTurn as before between) (h' : ChangesInTurn bs between after) :
    ChangesInTurn (as ++ bs) before after := by
  induction h with
  | nil => exact h'
  | cons ha _ ih => exact .cons ha (ih h')

theorem ChangesInTurn.last {as : List Action} {a : Action} {before after : Option TimedEvent}
    (h : ChangesInTurn as before after) (ha : as.getLast? = some a) :
    ∃ between, a.Changes between after := by
  induction h with
  | nil => cases ha
  | @cons b bs before between after hb hbs ih =>
    cases bs with
    | nil =>
      cases ha
      cases hbs
      exact ⟨before, hb⟩
    | cons => exact ih (by simpa using ha)

def Staged.event? (events : Std.ExtTreeMap UInt32 TimedEvent) (id : UInt32) (st : Staged) :
    Option TimedEvent :=
  (st.timedEvents.foldl TimedEventOp.apply events)[id]?

theorem Staged.event?_change (events : Std.ExtTreeMap UInt32 TimedEvent) (id : UInt32)
    (op : TimedEventOp) (st : Staged) :
    (st.changeTimedEvent op).event? events id =
      (op.apply (st.timedEvents.foldl TimedEventOp.apply events))[id]? := by
  unfold Staged.event? Staged.changeTimedEvent
  rw [List.foldl_append]
  rfl

theorem Action.event?_staging_of_ne {a : Action} {id : UInt32} (ha : a.eventId? ≠ some id)
    (events : Std.ExtTreeMap UInt32 TimedEvent) (invoker : Option Handle) (pending : PhaseMask)
    (g : Rng) (st : Staged) :
    ((a.staging invoker pending g).1 st).event? events id = st.event? events id := by
  cases a with
  | createTimedEvent id' =>
    have hne : id' ≠ id := fun heq => ha (congrArg some heq)
    show (st.changeTimedEvent (.create id' _)).event? events id = _
    rw [Staged.event?_change, TimedEventOp.apply, Std.ExtTreeMap.getElem?_insert,
      if_neg (by simpa using hne)]
    rfl
  | triggerTimedEvent id' =>
    have hne : id' ≠ id := fun heq => ha (congrArg some heq)
    show (st.changeTimedEvent (.trigger id')).event? events id = _
    rw [Staged.event?_change, TimedEventOp.apply, Std.ExtTreeMap.getElem?_modify,
      if_neg (by simpa using hne)]
    rfl
  | removeTimedEvent id' =>
    have hne : id' ≠ id := fun heq => ha (congrArg some heq)
    show (st.changeTimedEvent (.remove id')).event? events id = _
    rw [Staged.event?_change, TimedEventOp.apply, Std.ExtTreeMap.getElem?_erase,
      if_neg (by simpa using hne)]
    rfl
  | randomPhase phases =>
    show ((g.choose phases).1.elim (fun x => x) Staged.enterPhase st).event? events id = _
    cases (g.choose phases).1 with
    | none => rfl
    | some phase => rfl
  | callRandomTimedActionList lists =>
    show ((g.choose lists).1.elim (fun x => x) _ st).event? events id = _
    cases (g.choose lists).1 with
    | none => rfl
    | some listId => rfl
  | _ => rfl

theorem Action.changes_staging {a : Action} {id : UInt32} (hid : a.eventId? = some id)
    (ha : a.InBounds) (events : Std.ExtTreeMap UInt32 TimedEvent) (invoker : Option Handle)
    (pending : PhaseMask) (g : Rng) (st : Staged) :
    a.Changes (st.event? events id) (((a.staging invoker pending g).1 st).event? events id) := by
  cases a with
  | createTimedEvent id' initialMin initialMax repeatMin repeatMax chance =>
    cases hid
    obtain ⟨hmin, hmax⟩ := g.roll_bounds initialMin initialMax
    show Action.Changes _ _ ((st.changeTimedEvent (.create id _)).event? events id)
    rw [Staged.event?_change, TimedEventOp.apply, Std.ExtTreeMap.getElem?_insert_self]
    exact .created _ (UInt32.le_iff_toNat_le.mpr hmin) (UInt32.le_iff_toNat_le.mpr (hmax ha.1))
  | triggerTimedEvent id' =>
    cases hid
    show Action.Changes _ _ ((st.changeTimedEvent (.trigger id)).event? events id)
    rw [Staged.event?_change, TimedEventOp.apply, Std.ExtTreeMap.getElem?_modify_self]
    exact .triggered _
  | removeTimedEvent id' =>
    cases hid
    show Action.Changes _ _ ((st.changeTimedEvent (.remove id)).event? events id)
    rw [Staged.event?_change, TimedEventOp.apply, Std.ExtTreeMap.getElem?_erase_self]
    exact .removed _
  | _ => cases hid

theorem StagedInTurn.changes {phase : PhaseMask} {as : List Action} {st st' : Staged}
    (h : StagedInTurn phase as st st') (hbounds : ∀ a ∈ as, a.InBounds)
    (events : Std.ExtTreeMap UInt32 TimedEvent) (id : UInt32) :
    ChangesInTurn (as.filter (·.eventId? = some id)) (st.event? events id)
      (st'.event? events id) := by
  induction h with
  | nil st => exact .nil _
  | @cons a as st _ invoker g _ ih =>
    have hrest := ih fun b hb => hbounds b (List.mem_cons_of_mem a hb)
    by_cases hid : a.eventId? = some id
    · rw [List.filter_cons_of_pos (by simpa using hid)]
      exact .cons (a.changes_staging hid (hbounds a List.mem_cons_self) events invoker _ g st) hrest
    · rw [List.filter_cons_of_neg (by simpa using hid)]
      rw [Action.event?_staging_of_ne hid] at hrest
      exact hrest

/-- What an operation makes of a timed event before its commit. -/
def Operation.Ticks : Operation → Option TimedEvent → Option TimedEvent → Prop
  | .advance deltaMs _, before, after => TimedEvent.Ticks deltaMs before after
  | _, before, after => after = before

namespace ScriptState

theorem timedEvents_commit (s : ScriptState) :
    s.commit.timedEvents = s.staged.timedEvents.foldl TimedEventOp.apply s.timedEvents := by
  have hphase : ∀ (t : ScriptState) phase, (t.commitPhase phase).timedEvents = t.timedEvents := by
    intro t phase
    cases phase with
    | none => rfl
    | some phase =>
      unfold commitPhase
      dsimp only
      split <;> rfl
  have hcounters : ∀ (ops : List CounterOp) (t : ScriptState),
      (ops.foldl commitCounter t).timedEvents = t.timedEvents := by
    intro ops
    induction ops with
    | nil => exact fun _ => rfl
    | cons op ops ih => exact fun t => ih (t.commitCounter op)
  show s.staged.timedEvents.foldl TimedEventOp.apply
    (s.staged.counters.foldl commitCounter _).timedEvents = _
  rw [hcounters, hphase]

end ScriptState

namespace Script

variable {id : UInt32} {s : Script} {w : World} {op : Operation} {p : Progress}
  {tables : List Table}

theorem event?_commitState (s : Script) (id : UInt32) :
    s.commitState.event? id = s.state.staged.event? s.state.timedEvents id := by
  have hstate : s.commitState.state = s.state.commit :=
    foldl_startList state state_startList { s with state := s.state.commit } s.state.staged.lists
  unfold event?
  rw [hstate, ScriptState.timedEvents_commit]
  rfl

theorem Commits.ticks (h : Commits s w op p) (hcalm : Undisturbed p.journal) (id : UInt32) :
    op.Ticks (s.event? id) (p.script.event? id) := by
  cases h with
  | advance deltaMs _ => exact ticks_stages hcalm.1 id
  | reset => exact absurd (mem_reset_startOver s w) hcalm.1
  | @forceFire _ rule _ =>
    exact event?_of_schedule (schedule_fire s.rules { owner := s.owner } _ 0 true rule s w) id

/-- What a call does to a timed event: time passes for it, and the actions of the fired rules change
it in order. -/
structure Alters (id : UInt32) (s : Script) (c : Call) (between : Option TimedEvent) : Prop where
  ticks : c.op.Ticks (s.event? id) between
  changes : ChangesInTurn (actionsOn id (s.operate c.world c.op).journal) between
    ((s.operate c.world c.op).script.event? id)
  committed : ∀ p, Commits s c.world c.op p → p.script.event? id = between

theorem alters_of_undisturbed (hs : s.Sound) (hbuilt : s.BuiltFrom tables)
    (hd : s.despawned = false) {c : Call}
    (hcalm : Undisturbed (s.operate c.world c.op).journal) (id : UInt32) :
    ∃ between, Alters id s c between := by
  rcases commits_of_undisturbed hs.listed hd hcalm with ⟨ruleId, hop, hunknown⟩ |
    ⟨p, hcommits, hp, heq⟩
  · obtain ⟨w, op⟩ := c
    dsimp only at hop
    subst hop
    refine ⟨s.event? id, rfl, ?_, ?_⟩
    · rw [operate_of_unknown hunknown]
      exact .nil _
    · rintro p (_ | _ | hfind)
      rw [hunknown] at hfind
      cases hfind
  · obtain ⟨-, hstaged⟩ := hcommits.stagesActions hs hp.1
    have hchanges := hstaged.changes (hcommits.inBounds hs.listed hbuilt)
      p.script.state.timedEvents id
    have hjournal : (p.andThen settle).journal = p.journal := List.append_nil _
    refine ⟨p.script.event? id, hcommits.ticks hp id, ?_, ?_⟩
    · rw [heq, hjournal, Progress.script_andThen]
      show ChangesInTurn _ _ (p.script.commitState.event? id)
      rw [event?_commitState]
      exact hchanges
    · intro q hq
      rw [hcommits.unique hq]

end Script

end TriggerScript
