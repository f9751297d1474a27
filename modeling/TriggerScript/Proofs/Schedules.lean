import Mathlib.Data.List.Induction
import Mathlib.Data.List.Nodup
import TriggerScript.Proofs.FiringLaws

/-!
# Schedules

A script schedules timed action lists and timed events. Rules only ask for changes of the schedule,
which wait for the commit. Until then a pass finds it as the signal of the pass left it.
-/

namespace TriggerScript

theorem flatMap_range' {α : Type} (xs : List α) (first count : Nat) :
    ((List.range' first count).flatMap fun i => xs[i]?.toList) = (xs.drop first).take count := by
  induction count generalizing first with
  | zero => rfl
  | succ count ih =>
    rw [List.range'_succ, List.flatMap_cons, ih]
    by_cases hfirst : first < xs.length
    · rw [List.drop_eq_getElem_cons hfirst, List.getElem?_eq_getElem hfirst]
      rfl
    · have hnone : xs[first]? = none := List.getElem?_eq_none (Nat.le_of_not_lt hfirst)
      rw [hnone, List.drop_eq_nil_of_le (by omega), List.drop_eq_nil_of_le (by omega)]
      simp

namespace ListRunner

theorem due_takeDue (steps : Nat) (r : ListRunner) (g : Rng) :
    ∃ count, (takeDue steps r g).1 = List.range' r.cursor count := by
  induction steps generalizing r g with
  | zero => exact ⟨0, rfl⟩
  | succ steps ih =>
    unfold takeDue
    split
    · exact ⟨0, rfl⟩
    · obtain ⟨count, hcount⟩ := ih
        (rollDelay { r with elapsed := r.elapsed - r.nextDelay, cursor := r.cursor + 1 } g).1
        (rollDelay { r with elapsed := r.elapsed - r.nextDelay, cursor := r.cursor + 1 } g).2
      refine ⟨count + 1, ?_⟩
      rw [List.range'_succ]
      exact congrArg (r.cursor :: ·) hcount

theorem steps_advance (r : ListRunner) (deltaMs : UInt32) (inCombat : Bool) (g : Rng) :
    ((r.advance deltaMs inCombat g).1.flatMap fun i => r.rules.rules[i]?.toList).Sublist
      r.rules.rules := by
  have hdue : ∃ first count, (r.advance deltaMs inCombat g).1 = List.range' first count := by
    unfold advance
    split
    · obtain ⟨count, hcount⟩ := due_takeDue (r.rules.size - r.cursor)
        { r with elapsed := addSat r.elapsed deltaMs } g
      exact ⟨_, count, hcount⟩
    · exact ⟨0, 0, rfl⟩
  obtain ⟨first, count, hdue⟩ := hdue
  rw [hdue, flatMap_range']
  exact (List.take_sublist count _).trans (List.drop_sublist first _)

end ListRunner

def TimedEvent.IsDueIn (e : TimedEvent) (deltaMs : UInt32) : Prop :=
  e.nextFireAt ≤ addSat e.elapsed deltaMs

instance (e : TimedEvent) (deltaMs : UInt32) : Decidable (e.IsDueIn deltaMs) :=
  inferInstanceAs (Decidable (e.nextFireAt ≤ addSat e.elapsed deltaMs))

namespace Script

variable {s t : Script}

def schedule (s : Script) : Std.ExtTreeMap UInt32 ListRunner × Std.ExtTreeMap UInt32 TimedEvent :=
  (s.lists, s.state.timedEvents)

@[simp] theorem schedule_losesChance (forced : Bool) (rule : Rule) (s : Script) :
    (s.losesChance forced rule).2.schedule = s.schedule := by
  unfold losesChance
  split <;> rfl

@[simp] theorem schedule_mark (set : RuleSet) (rule : Rule) (s : Script) :
    (s.mark set rule).schedule = s.schedule := by
  unfold mark
  split <;> rfl

@[simp] theorem schedule_perform (rule : Rule) (o : Occasion) (depth : Nat) (s : Script)
    (w : World) : (s.perform rule o depth w).script.schedule = s.schedule := by
  have h := Dispatch.leads_execute o rule { world := w, state := s.state, rng := s.rng }
  exact congrArg (Prod.mk s.lists) (congrArg ScriptState.timedEvents h.state :)

theorem schedule_fire (set : RuleSet) (o : Occasion) (links depth : Nat) (forced : Bool)
    (rule : Rule) (s : Script) (w : World) :
    (fire set o links depth forced rule s w).2.script.schedule = s.schedule := by
  induction links using Nat.strongRecOn generalizing depth forced rule s w with
  | ind links ih =>
    have hshot : (shoot set o depth forced rule s w).script.schedule = s.schedule := by
      unfold shoot
      rw [schedule_perform, schedule_mark, schedule_losesChance]
    rcases fire_cases set o links depth forced rule s w with ⟨-, h⟩ | ⟨-, -, h⟩ | ⟨-, h⟩
    · rw [h]
    · rw [h]
      exact schedule_losesChance forced rule s
    · rw [h]
      rcases follow_cases set o links depth rule (shoot set o depth forced rule s w) with
        ⟨-, hend⟩ | ⟨left, next, rfl, -, hgo⟩
      · rw [hend]
        exact hshot
      · rw [hgo, Progress.script_andThen, ih left (Nat.lt_succ_self left)]
        exact hshot

theorem schedule_attempt (o : Occasion) (rule : Rule) (s : Script) (w : World) :
    (s.attempt o rule w).script.schedule = s.schedule := by
  have hfire : (fireHead s.rules o false rule s w).2.script.schedule = s.schedule :=
    schedule_fire s.rules o _ 0 false rule s w
  rw [attempt_eq]
  dsimp only
  split
  · exact hfire
  · rw [← hfire]
    unfold rollCooldown
    dsimp only
    split <;> rfl

theorem unchanged_inTurn {α β : Type} {stage : α → Script → World → Progress} (read : Script → β)
    (h : ∀ x s w, read (stage x s w).script = read s) (xs : List α) (s : Script) (w : World) :
    read (inTurn stage xs s w).script = read s := by
  induction xs generalizing s w with
  | nil => rfl
  | cons x xs ih => rw [inTurn_cons, Progress.script_andThen, ih, h]

theorem schedule_react (signal : Signal) (rule : Rule) (s : Script) (w : World) :
    (s.react signal rule w).script.schedule = s.schedule := by
  unfold react
  split
  · exact schedule_attempt _ rule s w
  · rfl

theorem schedule_handleSignal (signal : Signal) (s : Script) (w : World) :
    (s.handleSignal signal w).script.schedule = s.schedule :=
  unchanged_inTurn schedule (schedule_react signal) s.rules.rules s w

theorem schedule_handleSignals (signals : List Signal) (s : Script) (w : World) :
    (s.handleSignals signals w).script.schedule = s.schedule :=
  unchanged_inTurn schedule schedule_handleSignal signals s w

theorem schedule_fireStep (runner : ListRunner) (index : Nat) (s : Script) (w : World) :
    (s.fireStep runner index w).script.schedule = s.schedule := by
  unfold fireStep
  split
  · exact schedule_fire _ _ _ 0 false _ s w
  · rfl

theorem lists_advanceTimedEvents (deltaMs : UInt32) (s : Script) (w : World) :
    (s.advanceTimedEvents deltaMs w).script.lists = s.lists := by
  have hlists := lists_tickEvents deltaMs s.state.timedEvents.toList s
  rw [← hlists]
  exact congrArg Prod.fst (schedule_handleSignals _ (tickEvents deltaMs _ s).2 w)

theorem lists_advancePolled (deltaMs : UInt32) (s : Script) (w : World) :
    (s.advancePolled deltaMs w).script.lists = s.lists := by
  have hpoll : ∀ rule (t : Script) v,
      (t.poll deltaMs (w.inCombat s.owner) rule v).script.lists = t.lists :=
    fun rule t v => (keeps_poll deltaMs _ rule t v).2.1
  exact unchanged_inTurn lists hpoll s.rules.rules s w

def renews (signal : Option Signal) : Bool := signal.any fun x => x.resetsScript || x = .reset

/-- The running lists that are left when the signal of a pass was heard. -/
def listsLeft (signal : Option Signal) (s : Script) : Std.ExtTreeMap UInt32 ListRunner :=
  if renews signal then ∅
  else if signal.any (·.endsCombat) then s.endCombat.lists
  else s.lists

def eventsLeft (signal : Option Signal) (s : Script) : Std.ExtTreeMap UInt32 TimedEvent :=
  if renews signal then ∅ else s.state.timedEvents

theorem left_of_schedule (h : t.schedule = s.schedule) (signal : Option Signal) :
    t.listsLeft signal = s.listsLeft signal ∧ t.eventsLeft signal = s.eventsLeft signal := by
  obtain ⟨hlists, hevents⟩ := Prod.mk.inj h
  unfold listsLeft eventsLeft endCombat
  rw [hlists, hevents]
  exact ⟨rfl, rfl⟩

theorem schedule_startOver (s : Script) (w : World) : (s.startOver w).script.schedule = (∅, ∅) := by
  have hreset : s.resetState.schedule = (∅, ∅) := by
    unfold schedule
    rw [resetState_eq]
    rfl
  rw [← hreset]
  exact schedule_handleSignal .reset s.resetState w

theorem schedule_receive (signal : Option Signal) (s : Script) (w : World) :
    (s.receive signal w).script.schedule = (s.listsLeft signal, s.eventsLeft signal) := by
  cases signal with
  | none => rfl
  | some signal =>
    have hheeds : (s.heeding signal).schedule =
        (if signal.endsCombat then s.endCombat.lists else s.lists, s.state.timedEvents) := by
      unfold heeding
      split <;> rfl
    rw [receive_some]
    unfold listsLeft eventsLeft renews
    by_cases hresets : signal.resetsScript = true
    · rw [if_pos hresets, Progress.script_andThen, schedule_handleSignal, schedule_startOver]
      simp [hresets]
    · rw [if_neg hresets]
      by_cases hreset : signal = .reset
      · rw [if_pos hreset, schedule_startOver]
        simp [hreset]
      · rw [if_neg hreset, schedule_handleSignal, hheeds]
        simp [hresets, hreset]

/-- A running list in its turn: its steps that are due fire, and then it is dropped if it is
finished. -/
theorem advanceList_eq {id : UInt32} {runner : ListRunner} (hrunner : s.lists[id]? = some runner)
    (deltaMs : UInt32) (inCombat : Bool) (w : World) :
    ∃ due runner' rng, runner.advance deltaMs inCombat s.rng = (due, runner', rng) ∧
      (s.advanceList deltaMs inCombat id w).journal = .resumed id due ::
        (inTurn (fireStep runner') due { s with rng, lists := s.lists.insert id runner' }
          w).journal ∧
      (s.advanceList deltaMs inCombat id w).script.lists =
        if runner'.isFinished then (s.lists.insert id runner').erase id
        else s.lists.insert id runner' := by
  unfold advanceList
  rw [hrunner]
  dsimp only
  generalize runner.advance deltaMs inCombat s.rng = adv
  obtain ⟨due, runner', rng⟩ := adv
  refine ⟨due, runner', rng, rfl, ?_⟩
  have hlists := congrArg Prod.fst (unchanged_inTurn schedule (schedule_fireStep runner') due
    { s with rng, lists := s.lists.insert id runner' } w)
  by_cases hfinished : runner'.isFinished = true
  · rw [if_pos hfinished, if_pos hfinished]
    exact ⟨List.append_nil _, congrArg (·.erase id) hlists⟩
  · rw [if_neg hfinished, if_neg hfinished]
    exact ⟨rfl, hlists⟩

theorem lists_advanceList_of_ne {id id' : UInt32} (hne : id ≠ id') (deltaMs : UInt32)
    (inCombat : Bool) (s : Script) (w : World) :
    (s.advanceList deltaMs inCombat id w).script.lists[id']? = s.lists[id']? := by
  cases hrunner : s.lists[id]? with
  | none =>
    unfold advanceList
    rw [hrunner]
  | some runner =>
    obtain ⟨due, runner', rng, -, -, hlists⟩ := advanceList_eq hrunner deltaMs inCombat w
    rw [hlists]
    split
    · rw [Std.ExtTreeMap.getElem?_erase, if_neg (by simpa using hne),
        Std.ExtTreeMap.getElem?_insert, if_neg (by simpa using hne)]
    · rw [Std.ExtTreeMap.getElem?_insert, if_neg (by simpa using hne)]

/-- The ids of the timed events that are raised when time passes. -/
def raised (deltaMs : UInt32) (s : Script) : List UInt32 :=
  (tickEvents deltaMs s.state.timedEvents.toList s).1

theorem due_of_raised {deltaMs : UInt32} {e : TimedEvent} {g : Rng}
    (h : (tickEvent deltaMs e g).1 = true) : e.IsDueIn deltaMs := by
  by_cases hearly : addSat e.elapsed deltaMs < e.nextFireAt
  · unfold tickEvent at h
    dsimp only at h
    rw [if_pos hearly] at h
    cases h
  · exact UInt32.not_lt.mp hearly

theorem raised_of_certain {deltaMs : UInt32} {e : TimedEvent} (hdue : e.IsDueIn deltaMs)
    (hcertain : 100 ≤ e.chance) (g : Rng) : (tickEvent deltaMs e g).1 = true := by
  unfold tickEvent
  dsimp only
  rw [if_neg (UInt32.not_lt.mpr hdue), if_pos hcertain]
  cases e.repeats <;> rfl

theorem raised_concat (deltaMs : UInt32) (events : List (UInt32 × TimedEvent)) (id : UInt32)
    (e : TimedEvent) (s : Script) :
    (tickEvents deltaMs (events ++ [(id, e)]) s).1 =
      if (tickEvent deltaMs e (tickEvents deltaMs events s).2.rng).1 then
        (tickEvents deltaMs events s).1 ++ [id]
      else (tickEvents deltaMs events s).1 := by
  unfold tickEvents
  rw [List.foldl_append]
  rfl

theorem raised_tickEvents (deltaMs : UInt32) (events : List (UInt32 × TimedEvent)) (s : Script) :
    ∃ hits : List (UInt32 × TimedEvent), (tickEvents deltaMs events s).1 = hits.map Prod.fst ∧
      hits.Sublist events ∧ (∀ e ∈ hits, e.2.IsDueIn deltaMs) ∧
      ∀ e ∈ events, e.2.IsDueIn deltaMs → 100 ≤ e.2.chance → e ∈ hits := by
  induction events using List.reverseRecOn with
  | nil => exact ⟨[], rfl, .slnil, by simp, by simp⟩
  | append_singleton events event ih =>
    obtain ⟨hits, hids, hsub, hdue, hcertain⟩ := ih
    obtain ⟨id, e⟩ := event
    rw [raised_concat, hids]
    cases hraised : (tickEvent deltaMs e (tickEvents deltaMs events s).2.rng).1 with
    | true =>
      refine ⟨hits ++ [(id, e)], by simp, hsub.append (.refl _), ?_, ?_⟩
      · intro x hx
        rcases List.mem_append.mp hx with hx | hx
        · exact hdue x hx
        · rw [List.mem_singleton.mp hx]
          exact due_of_raised hraised
      · intro x hx hxdue hxcertain
        rcases List.mem_append.mp hx with hx | hx
        · exact List.mem_append_left _ (hcertain x hx hxdue hxcertain)
        · exact List.mem_append_right _ hx
    | false =>
      refine ⟨hits, by simp, hsub.trans (List.sublist_append_left _ _), hdue, ?_⟩
      intro x hx hxdue hxcertain
      rcases List.mem_append.mp hx with hx | hx
      · exact hcertain x hx hxdue hxcertain
      · rw [List.mem_singleton.mp hx] at hxdue hxcertain
        rw [raised_of_certain hxdue hxcertain] at hraised
        cases hraised

theorem ascending_keys {α : Type} (m : Std.ExtTreeMap UInt32 α) : m.keys.Pairwise (· < ·) :=
  Std.ExtTreeMap.ordered_keys.imp Std.compare_eq_lt.mp

/-- Of these timed events these are raised when time passes: events that are due, in the order of
their ids, and all those among them that are certain. -/
structure Raises (deltaMs : UInt32) (events : Std.ExtTreeMap UInt32 TimedEvent)
    (ids : List UInt32) : Prop where
  ascending : ids.Pairwise (· < ·)
  due : ∀ id ∈ ids, ∃ e, events[id]? = some e ∧ e.IsDueIn deltaMs
  certain : ∀ id e, events[id]? = some e → e.IsDueIn deltaMs → 100 ≤ e.chance → id ∈ ids

theorem raises_raised (deltaMs : UInt32) (s : Script) :
    Raises deltaMs s.state.timedEvents (s.raised deltaMs) := by
  obtain ⟨hits, hids, hsub, hdue, hcertain⟩ :=
    raised_tickEvents deltaMs s.state.timedEvents.toList s
  have hraised : s.raised deltaMs = hits.map Prod.fst := hids
  rw [hraised]
  constructor
  · have hkeys : (hits.map Prod.fst).Sublist s.state.timedEvents.keys := by
      rw [← Std.ExtTreeMap.map_fst_toList_eq_keys]
      exact hsub.map Prod.fst
    exact (ascending_keys _).sublist hkeys
  · intro id hid
    obtain ⟨⟨_, e⟩, he, rfl⟩ := List.mem_map.mp hid
    exact ⟨e, Std.ExtTreeMap.mem_toList_iff_getElem?_eq_some.mp (hsub.subset he), hdue _ he⟩
  · intro id e he hedue hecertain
    have hmem := hcertain (id, e) (Std.ExtTreeMap.mem_toList_iff_getElem?_eq_some.mpr he) hedue
      hecertain
    exact List.mem_map.mpr ⟨(id, e), hmem, rfl⟩

theorem Raises.eq_singleton {deltaMs : UInt32} {events : Std.ExtTreeMap UInt32 TimedEvent}
    {ids : List UInt32} {id : UInt32} {e : TimedEvent} (h : Raises deltaMs events ids)
    (hsole : events.toList = [(id, e)]) (hdue : e.IsDueIn deltaMs) (hcertain : 100 ≤ e.chance) :
    ids = [id] := by
  have hlookup : ∀ id' e', events[id']? = some e' ↔ (id', e') = (id, e) := by
    intro id' e'
    rw [← Std.ExtTreeMap.mem_toList_iff_getElem?_eq_some, hsole, List.mem_singleton]
  have hmem : id ∈ ids := h.certain id e ((hlookup id e).mpr rfl) hdue hcertain
  have honly : ∀ id' ∈ ids, id' = id := by
    intro id' hid'
    obtain ⟨e', he', -⟩ := h.due id' hid'
    exact (Prod.mk.inj ((hlookup id' e').mp he')).1
  have hnodup : ids.Nodup := h.ascending.imp UInt32.ne_of_lt
  apply List.perm_singleton.mp
  apply (List.perm_ext_iff_of_nodup hnodup (List.nodup_singleton id)).mpr
  intro id'
  rw [List.mem_singleton]
  exact ⟨honly id', fun heq => heq ▸ hmem⟩

end Script

end TriggerScript
