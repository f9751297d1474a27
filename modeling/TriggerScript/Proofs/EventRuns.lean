import TriggerScript.Proofs.Hearing
import TriggerScript.Proofs.TimedEvents

/-!
# Runs of timed events

A timed event is attempted in the first pass by which its delay has passed, and never in the call
that creates it. An event that comes once is gone with its attempt, and one that repeats waits for
its least interval. An action that triggers an event has the next pass attempt it, and one that
removes it leaves nothing to attempt.
-/

namespace TriggerScript

def Call.time (c : Call) : Nat :=
  match c.op with
  | .advance deltaMs _ => deltaMs.toNat
  | _ => 0

def timeOf : List Call → Nat
  | [] => 0
  | c :: cs => c.time + timeOf cs

def Call.IsPass (c : Call) : Prop := ∃ deltaMs signal, c.op = .advance deltaMs signal

@[simp] theorem timeOf_nil : timeOf [] = 0 := rfl

@[simp] theorem timeOf_cons (c : Call) (cs : List Call) :
    timeOf (c :: cs) = c.time + timeOf cs := rfl

theorem timeOf_concat (cs : List Call) (d : Call) : timeOf (cs ++ [d]) = timeOf cs + d.time := by
  induction cs with
  | nil => simp
  | cons c cs ih => rw [List.cons_append, timeOf_cons, timeOf_cons, ih, Nat.add_assoc]

def Action.createsEvent : Action → Bool
  | .createTimedEvent .. => true
  | _ => false

def Action.removesEvent : Action → Bool
  | .removeTimedEvent .. => true
  | _ => false

namespace Script

variable {tables : List Table} {id : UInt32} {e : TimedEvent} {s : Script} {w : World}
  {op : Operation} {c d : Call} {cs : List Call}

/-- A call attempts a timed event if it is a pass in which the event is due. -/
def AttemptsEvent (s : Script) (id : UInt32) (c : Call) : Prop :=
  ∃ deltaMs signal e, c.op = .advance deltaMs signal ∧ s.event? id = some e ∧ e.IsDueIn deltaMs

def Unattempted (id : UInt32) (s : Script) : List Call → Prop
  | [] => True
  | c :: cs => ¬s.AttemptsEvent id c ∧ Unattempted id (s.operate c.world c.op).script cs

theorem not_attemptsEvent_of_absent (h : s.event? id = none) (c : Call) :
    ¬s.AttemptsEvent id c := by
  rintro ⟨deltaMs, signal, e, -, he, -⟩
  rw [h] at he
  cases he

theorem exists_of_attemptsEvent (h : s.AttemptsEvent id c) : ∃ e, s.event? id = some e := by
  obtain ⟨deltaMs, signal, e, -, he, -⟩ := h
  exact ⟨e, he⟩

theorem attemptsEvent_iff (he : s.event? id = some e) (c : Call) :
    s.AttemptsEvent id c ↔ c.IsPass ∧ e.nextFireAt.toNat ≤ e.elapsed.toNat + c.time := by
  constructor
  · rintro ⟨deltaMs, signal, e', hop, he', hdue⟩
    rw [he] at he'
    cases he'
    refine ⟨⟨deltaMs, signal, hop⟩, ?_⟩
    rw [Call.time, hop]
    exact (e.isDueIn_iff deltaMs).mp hdue
  · rintro ⟨⟨deltaMs, signal, hop⟩, hdue⟩
    rw [Call.time, hop] at hdue
    exact ⟨deltaMs, signal, e, hop, he, (e.isDueIn_iff deltaMs).mpr hdue⟩

structure Live (tables : List Table) (s : Script) : Prop where
  sound : s.Sound
  built : s.BuiltFrom tables
  alive : s.despawned = false

theorem Live.operate (h : s.Live tables) (hcalm : Undisturbed (s.operate w op).journal) :
    (s.operate w op).script.Live tables := by
  obtain ⟨hkeeps, hsound⟩ := sound_operate h.sound w op
  exact ⟨hsound, h.built.of_keeps hkeeps, alive_of_undisturbed h.sound.listed h.alive hcalm⟩

theorem Live.alters (h : s.Live tables) (hcalm : Undisturbed (s.operate c.world c.op).journal)
    (id : UInt32) : ∃ between, Alters id s c between :=
  alters_of_undisturbed h.sound h.built h.alive hcalm id

theorem Live.calls (h : s.Live tables) (hcalm : Undisturbed (s.calls cs).2) :
    (s.calls cs).1.Live tables := by
  induction cs generalizing s with
  | nil => exact h
  | cons c cs ih =>
    rw [calls_cons, undisturbed_append] at hcalm
    exact ih (h.operate hcalm.1) hcalm.2

/-- A property of a timed event and of the time that passed that is kept by the clock and by actions
of some kind. -/
structure EventLaw (permitted : Action → Prop) (holds : Nat → Option TimedEvent → Prop) : Prop where
  tick : ∀ {time deltaMs before after}, holds time before →
    TimedEvent.Ticks deltaMs before after → holds (time + deltaMs.toNat) after
  change : ∀ {time a before after}, permitted a → holds time before →
    a.Changes before after → holds time after

section

variable {permitted : Action → Prop} {holds : Nat → Option TimedEvent → Prop}
  {before after : Option TimedEvent}

theorem EventLaw.operation (L : EventLaw permitted holds) {time : Nat} (h : holds time before)
    (hticks : c.op.Ticks before after) : holds (time + c.time) after := by
  unfold Call.time
  cases hop : c.op with
  | advance deltaMs signal =>
    rw [hop] at hticks
    exact L.tick h hticks
  | _ =>
    rw [hop] at hticks
    cases hticks
    exact h

theorem EventLaw.changesInTurn (L : EventLaw permitted holds) {as : List Action} (time : Nat)
    (h : holds time before) (has : ∀ a ∈ as, permitted a)
    (hchanges : ChangesInTurn as before after) : holds time after := by
  induction hchanges with
  | nil => exact h
  | cons hchange _ ih =>
    obtain ⟨ha, has⟩ := List.forall_mem_cons.mp has
    exact ih (L.change ha h hchange) has

theorem EventLaw.calls (L : EventLaw permitted holds) (hs : s.Live tables) (time : Nat)
    (h : holds time (s.event? id)) (hcalm : Undisturbed (s.calls cs).2)
    (hacts : ∀ a ∈ actionsOn id (s.calls cs).2, permitted a) :
    holds (time + timeOf cs) ((s.calls cs).1.event? id) := by
  induction cs generalizing s time with
  | nil => exact h
  | cons c cs ih =>
    rw [calls_cons, undisturbed_append] at hcalm
    rw [calls_cons, actionsOn_append, List.forall_mem_append] at hacts
    obtain ⟨between, halters⟩ := hs.alters hcalm.1 id
    have hbetween := L.operation h halters.ticks
    have hafter := L.changesInTurn _ hbetween hacts.1 halters.changes
    have hrest := ih (hs.operate hcalm.1) _ hafter hcalm.2 hacts.2
    rw [timeOf_cons, ← Nat.add_assoc]
    exact hrest

end

theorem absent_eventLaw : EventLaw (·.createsEvent = false) fun _ e => e = none where
  tick h hticks := by
    subst h
    cases hticks
    rfl
  change ha h hchange := by
    subst h
    cases hchange with
    | created => cases ha
    | triggered => rfl
    | removed => rfl

theorem not_attemptsEvent_of_calls (hs : s.Live tables) (habsent : s.event? id = none)
    (hcalm : Undisturbed (s.calls cs).2)
    (hacts : ∀ a ∈ actionsOn id (s.calls cs).2, a.createsEvent = false) (d : Call) :
    ¬(s.calls cs).1.AttemptsEvent id d :=
  not_attemptsEvent_of_absent (absent_eventLaw.calls hs 0 habsent hcalm hacts) d

theorem kept_eventLaw (repeats : Option (UInt32 × UInt32)) (chance : UInt32) :
    EventLaw (·.createsEvent = false) fun _ e =>
      ∀ x, e = some x → x.repeats = repeats ∧ x.chance = chance where
  tick h hticks := by
    cases hticks with
    | absent => exact h
    | ends => exact fun _ hx => nomatch hx
    | @waits e =>
      rintro x ⟨⟩
      exact h e rfl
    | @again e =>
      rintro x ⟨⟩
      exact h e rfl
  change ha h hchange := by
    cases hchange with
    | created => cases ha
    | removed => exact fun _ hx => nomatch hx
    | triggered before =>
      intro x hx
      obtain ⟨y, hy, rfl⟩ := Option.map_eq_some_iff.mp hx
      exact h y hy

/-- A repeating event was started over when it was attempted and waits for its least interval. -/
theorem spaced_eventLaw (repeatMin repeatMax : UInt32) :
    EventLaw (·.removesEvent = true) fun time e =>
      ∀ x, e = some x → x.repeats = some (repeatMin, repeatMax) ∧ x.elapsed.toNat ≤ time ∧
        repeatMin.toNat ≤ x.nextFireAt.toNat where
  tick {time deltaMs before after} h hticks := by
    cases hticks with
    | absent => exact fun _ hx => nomatch hx
    | ends => exact fun _ hx => nomatch hx
    | @waits e _ =>
      rintro x ⟨⟩
      obtain ⟨hrepeats, helapsed, hdelay⟩ := h e rfl
      refine ⟨hrepeats, ?_, hdelay⟩
      have hsum := toNat_addSat e.elapsed deltaMs
      show (addSat e.elapsed deltaMs).toNat ≤ time + deltaMs.toNat
      omega
    | @again e min max g _ hrange =>
      rintro x ⟨⟩
      obtain ⟨hrepeats, -, -⟩ := h e rfl
      refine ⟨hrepeats, Nat.zero_le _, ?_⟩
      rw [hrange] at hrepeats
      cases hrepeats
      exact (g.roll_bounds repeatMin repeatMax).1
  change ha _ hchange := by
    cases hchange with
    | created => cases ha
    | triggered => cases ha
    | removed => exact fun _ hx => nomatch hx

theorem waits_of_not_attemptsEvent (he : s.event? id = some e) (hnot : ¬s.AttemptsEvent id c)
    {between : Option TimedEvent} (hticks : c.op.Ticks (some e) between) :
    ∃ e', between = some e' ∧ e'.nextFireAt = e.nextFireAt ∧
      e'.elapsed.toNat = min (e.elapsed.toNat + c.time) (UInt32.size - 1) := by
  unfold Call.time
  cases hop : c.op with
  | advance deltaMs signal =>
    have hearly : ¬e.IsDueIn deltaMs := fun hdue => hnot ⟨deltaMs, signal, e, hop, he, hdue⟩
    rw [hop] at hticks
    cases hticks with
    | waits => exact ⟨_, rfl, rfl, toNat_addSat e.elapsed deltaMs⟩
    | ends hdue => exact absurd hdue hearly
    | again _ hdue => exact absurd hdue hearly
  | _ =>
    rw [hop] at hticks
    cases hticks
    have hlt := e.elapsed.toNat_lt
    refine ⟨e, rfl, rfl, ?_⟩
    simp only [UInt32.size]
    omega

/-- An event that no action changes and no call attempts waits. -/
theorem event_of_unattempted (hs : s.Live tables) (he : s.event? id = some e)
    (hcalm : Undisturbed (s.calls cs).2) (hacts : actionsOn id (s.calls cs).2 = [])
    (hcs : Unattempted id s cs) :
    ∃ e', (s.calls cs).1.event? id = some e' ∧ e'.nextFireAt = e.nextFireAt ∧
      e'.elapsed.toNat = min (e.elapsed.toNat + timeOf cs) (UInt32.size - 1) := by
  induction cs generalizing s e with
  | nil =>
    have hlt := e.elapsed.toNat_lt
    refine ⟨e, he, rfl, ?_⟩
    simp only [timeOf_nil, UInt32.size]
    omega
  | cons c cs ih =>
    rw [calls_cons, undisturbed_append] at hcalm
    rw [calls_cons, actionsOn_append, List.append_eq_nil_iff] at hacts
    obtain ⟨between, hticks, hchanges, -⟩ := hs.alters hcalm.1 id
    rw [he] at hticks
    obtain ⟨e', rfl, hdelay, helapsed⟩ := waits_of_not_attemptsEvent he hcs.1 hticks
    have he' : (s.operate c.world c.op).script.event? id = some e' := by
      rw [hacts.1] at hchanges
      exact hchanges.eq_of_nil
    obtain ⟨e'', he'', hdelay', helapsed'⟩ := ih (hs.operate hcalm.1) he' hcalm.2 hacts.2 hcs.2
    refine ⟨e'', he'', hdelay'.trans hdelay, ?_⟩
    rw [helapsed', helapsed, timeOf_cons]
    omega

theorem changes_of_calls (hs : s.Live tables) (hcalm : Undisturbed (s.calls cs).2)
    (hcs : ∀ c ∈ cs, ¬c.IsPass) (id : UInt32) :
    ChangesInTurn (actionsOn id (s.calls cs).2) (s.event? id) ((s.calls cs).1.event? id) := by
  induction cs generalizing s with
  | nil => exact .nil _
  | cons c cs ih =>
    rw [calls_cons, undisturbed_append] at hcalm
    obtain ⟨between, hticks, hchanges, -⟩ := hs.alters hcalm.1 id
    have hsame : between = s.event? id := by
      have hpass := hcs c List.mem_cons_self
      cases hop : c.op with
      | advance deltaMs signal => exact absurd ⟨deltaMs, signal, hop⟩ hpass
      | _ =>
        rw [hop] at hticks
        exact hticks
    rw [hsame] at hchanges
    rw [calls_cons, actionsOn_append]
    exact hchanges.append (ih (hs.operate hcalm.1) hcalm.2
      fun d hd => hcs d (List.mem_cons_of_mem c hd))

def told (s : Script) : Operation → List Signal
  | .advance _ signal => s.state.deferred ++ announced signal
  | _ => []

/-- The timed events that a call raises come last of all signals. Each of them was there before the
call and is attempted once; one that is attempted and certain is raised. The commit, which creates
events, raises none. -/
structure RaisesOnce (s : Script) (c : Call) : Prop where
  heard : ∃ raised : List UInt32,
    (s.operate c.world c.op).heard = s.told c.op ++ raised.map .timedEventTriggered ∧
    raised.Pairwise (· < ·) ∧ (∀ id ∈ raised, s.AttemptsEvent id c) ∧
    ∀ (id : UInt32) (e : TimedEvent), s.event? id = some e → s.AttemptsEvent id c →
      100 ≤ e.chance → id ∈ raised
  silent : ∀ p, Commits s c.world c.op p → (p.script.commit p.world).journal = []

theorem raisesOnce_of_undisturbed (hs : s.Live tables)
    (hcalm : Undisturbed (s.operate c.world c.op).journal) : s.RaisesOnce c where
  heard := by
    obtain ⟨w, op⟩ := c
    rcases commits_of_undisturbed hs.sound.listed hs.alive hcalm with ⟨ruleId, hop, hunknown⟩ |
      ⟨p, hcommits, hp, heq⟩
    · dsimp only at hop
      subst hop
      refine ⟨[], ?_, .nil, by simp, ?_⟩
      · rw [operate_of_unknown hunknown]
        rfl
      · rintro id e - ⟨deltaMs, signal, -, hop, -⟩
        cases hop
    · dsimp only at heq ⊢
      have hheard : (p.andThen settle).heard = p.heard := by
        rw [Progress.heard_andThen]
        exact List.append_nil _
      rw [heq, hheard]
      cases hcommits with
      | reset => exact absurd (mem_reset_startOver s w) hp.1
      | @forceFire ruleId rule hfind =>
        refine ⟨[], ?_, .nil, by simp, ?_⟩
        · exact heard_of_passed (fires_fireHead s.rules _ true rule s w).passed
        · rintro id e - ⟨deltaMs, signal, -, hop, -⟩
          cases hop
      | @advance signal deltaMs _ =>
        have hevents := event?_received (renews_of_stages hp.1) s w
        have hraises := raises_raised deltaMs
          ((s.handleDeferred w).andThen (receive signal)).script
        refine ⟨_, heard_stages deltaMs signal s w, hraises.ascending, ?_, ?_⟩
        · intro id hid
          obtain ⟨e, he, hdue⟩ := hraises.due id hid
          exact ⟨deltaMs, signal, e, rfl, (hevents id).symm.trans he, hdue⟩
        · rintro id e he ⟨_, _, e', ⟨⟩, he', hdue⟩ hcertain
          rw [he] at he'
          cases he'
          exact hraises.certain id e ((hevents id).trans he) hdue hcertain
  silent p hcommits := by
    have hoperate := hcommits.operate_eq hs.alive
    rw [hoperate, Progress.journal_andThen, undisturbed_append] at hcalm
    rw [commit_of_not_reset hcalm.2.1]
    rfl

/-- What becomes of a timed event in a call, some further calls and one more call. -/
structure OnSchedule (id : UInt32) (s : Script) (c : Call) (cs : List Call) (d : Call) :
    Prop where
  /-- An event that the call created is first attempted in the first pass by which its delay has
  passed, unless it is changed before. -/
  created : ∀ initialMin initialMax repeatMin repeatMax chance,
    (actionsOn id (s.operate c.world c.op).journal).getLast? =
      some (.createTimedEvent id initialMin initialMax repeatMin repeatMax chance) →
    ∃ e, (s.operate c.world c.op).script.event? id = some e ∧
      initialMin ≤ e.nextFireAt ∧ e.nextFireAt ≤ initialMax ∧
      e.repeats = (if repeatMax = 0 then none else some (repeatMin, repeatMax)) ∧
      e.chance = chance ∧
      (actionsOn id ((s.operate c.world c.op).script.calls cs).2 = [] →
        Unattempted id (s.operate c.world c.op).script cs →
        ((s.calls (c :: cs)).1.AttemptsEvent id d ↔
          d.IsPass ∧ e.nextFireAt.toNat ≤ timeOf (cs ++ [d])))
  kept : ∀ e', (s.calls (c :: cs)).1.event? id = some e' →
    (∀ a ∈ actionsOn id (s.calls (c :: cs)).2, a.createsEvent = false) →
    ∃ e, s.event? id = some e ∧ e'.repeats = e.repeats ∧ e'.chance = e.chance
  /-- An event that comes once is gone with its attempt, unless it is created again. -/
  once : ∀ e, s.event? id = some e → e.repeats = none → s.AttemptsEvent id c →
    (∀ p, Commits s c.world c.op p → p.script.event? id = none) ∧
    ((∀ a ∈ actionsOn id (s.calls (c :: cs)).2, a.createsEvent = false) →
      ¬(s.calls (c :: cs)).1.AttemptsEvent id d)
  /-- An event that repeats is not attempted again before its least interval has passed, unless it
  is created again or triggered. -/
  again : ∀ e repeatMin repeatMax, s.event? id = some e →
    e.repeats = some (repeatMin, repeatMax) → s.AttemptsEvent id c →
    (∀ p, Commits s c.world c.op p →
      ∃ e', p.script.event? id = some e' ∧ e'.elapsed = 0 ∧ repeatMin ≤ e'.nextFireAt) ∧
    ((∀ a ∈ actionsOn id (s.calls (c :: cs)).2, a.removesEvent = true) →
      (s.calls (c :: cs)).1.AttemptsEvent id d → repeatMin.toNat ≤ timeOf (cs ++ [d]))
  triggered : (∀ b ∈ cs, ¬b.IsPass) → d.IsPass →
    (actionsOn id (s.calls (c :: cs)).2).getLast? = some (.triggerTimedEvent id) →
    (s.calls (c :: cs)).1.event? id ≠ none → (s.calls (c :: cs)).1.AttemptsEvent id d
  removed : (actionsOn id (s.operate c.world c.op).journal).getLast? =
      some (.removeTimedEvent id) →
    (∀ a ∈ actionsOn id ((s.operate c.world c.op).script.calls cs).2, a.createsEvent = false) →
    ¬(s.calls (c :: cs)).1.AttemptsEvent id d

theorem first_attempt (hs : s.Live tables) (he : s.event? id = some e) (hnew : e.elapsed = 0)
    (hcalm : Undisturbed (s.calls cs).2) (hacts : actionsOn id (s.calls cs).2 = [])
    (hcs : Unattempted id s cs) (d : Call) :
    (s.calls cs).1.AttemptsEvent id d ↔ d.IsPass ∧ e.nextFireAt.toNat ≤ timeOf (cs ++ [d]) := by
  obtain ⟨e', he', hdelay, helapsed⟩ := event_of_unattempted hs he hcalm hacts hcs
  have hlt := e.nextFireAt.toNat_lt
  have hsum : e.nextFireAt.toNat ≤ min (0 + timeOf cs) (UInt32.size - 1) + d.time ↔
      e.nextFireAt.toNat ≤ timeOf cs + d.time := by
    simp only [UInt32.size]
    omega
  rw [attemptsEvent_iff he', hdelay, helapsed, hnew, timeOf_concat]
  exact and_congr_right fun _ => hsum

theorem kept_of_calls (hs : s.Live tables) (hcalm : Undisturbed (s.calls cs).2)
    (hacts : ∀ a ∈ actionsOn id (s.calls cs).2, a.createsEvent = false)
    (he : (s.calls cs).1.event? id = some e) :
    ∃ e₀, s.event? id = some e₀ ∧ e.repeats = e₀.repeats ∧ e.chance = e₀.chance := by
  cases he₀ : s.event? id with
  | none =>
    have habsent := absent_eventLaw.calls hs 0 he₀ hcalm hacts
    rw [he] at habsent
    cases habsent
  | some e₀ =>
    have hsame : ∀ x, s.event? id = some x → x.repeats = e₀.repeats ∧ x.chance = e₀.chance := by
      intro x hx
      rw [he₀] at hx
      cases hx
      exact ⟨rfl, rfl⟩
    exact ⟨e₀, rfl, (kept_eventLaw e₀.repeats e₀.chance).calls hs 0 hsame hcalm hacts e he⟩

theorem Alters.gone {between : Option TimedEvent} (h : Alters id s c between)
    (he : s.event? id = some e) (honce : e.repeats = none) (hattempts : s.AttemptsEvent id c) :
    between = none := by
  obtain ⟨deltaMs, signal, e', hop, he', hdue⟩ := hattempts
  have hticks := h.ticks
  rw [he] at he'
  cases he'
  rw [he, hop] at hticks
  cases hticks with
  | waits hearly => exact absurd hdue hearly
  | ends => rfl
  | again _ _ hrange =>
    rw [honce] at hrange
    cases hrange

theorem Alters.restarted {between : Option TimedEvent} {repeatMin repeatMax : UInt32}
    (h : Alters id s c between) (he : s.event? id = some e)
    (hrepeats : e.repeats = some (repeatMin, repeatMax)) (hattempts : s.AttemptsEvent id c) :
    ∃ e', between = some e' ∧ e'.repeats = some (repeatMin, repeatMax) ∧ e'.elapsed = 0 ∧
      repeatMin ≤ e'.nextFireAt := by
  obtain ⟨deltaMs, signal, e', hop, he', hdue⟩ := hattempts
  have hticks := h.ticks
  rw [he] at he'
  cases he'
  rw [he, hop] at hticks
  cases hticks with
  | waits hearly => exact absurd hdue hearly
  | ends _ honce =>
    rw [honce] at hrepeats
    cases hrepeats
  | again g _ hrange =>
    rw [hrepeats] at hrange
    cases hrange
    exact ⟨_, rfl, hrepeats, rfl, UInt32.le_iff_toNat_le.mpr (g.roll_bounds repeatMin repeatMax).1⟩

theorem onSchedule_of_undisturbed (hs : s.Live tables)
    (hcalm : Undisturbed (s.calls (c :: cs)).2) (id : UInt32) (d : Call) :
    OnSchedule id s c cs d := by
  have hboth := hcalm
  rw [calls_cons, undisturbed_append] at hcalm
  have ht := hs.operate hcalm.1
  obtain ⟨between, halters⟩ := hs.alters hcalm.1 id
  constructor
  · intro initialMin initialMax repeatMin repeatMax chance hlast
    obtain ⟨before, hcreated⟩ := halters.changes.last hlast
    generalize he : (s.operate c.world c.op).script.event? id = after at hcreated
    cases hcreated with
    | created _ hmin hmax =>
      exact ⟨_, rfl, hmin, hmax, rfl, rfl,
        fun hacts hcs => first_attempt ht he rfl hcalm.2 hacts hcs d⟩
  · exact fun e' he' hacts => kept_of_calls hs hboth hacts he'
  · intro e he honce hattempts
    have hgone := halters.gone he honce hattempts
    refine ⟨fun p hp => (halters.committed p hp).trans hgone, ?_⟩
    intro hacts
    rw [calls_cons, actionsOn_append, List.forall_mem_append] at hacts
    have habsent := absent_eventLaw.changesInTurn 0 hgone hacts.1 halters.changes
    exact not_attemptsEvent_of_calls ht habsent hcalm.2 hacts.2 d
  · intro e repeatMin repeatMax he hrepeats hattempts
    obtain ⟨e', rfl, hrepeats', hnew, hdelay⟩ := halters.restarted he hrepeats hattempts
    refine ⟨fun p hp => ⟨e', halters.committed p hp, hnew, hdelay⟩, ?_⟩
    intro hacts hattempts'
    rw [calls_cons, actionsOn_append, List.forall_mem_append] at hacts
    have hspaced := (spaced_eventLaw repeatMin repeatMax).changesInTurn 0
      (by rintro x ⟨⟩; exact ⟨hrepeats', by simp [hnew], UInt32.le_iff_toNat_le.mp hdelay⟩)
      hacts.1 halters.changes
    have hlater := (spaced_eventLaw repeatMin repeatMax).calls ht 0 hspaced hcalm.2 hacts.2
    obtain ⟨e'', he''⟩ : ∃ e'', ((s.operate c.world c.op).script.calls cs).1.event? id = some e'' :=
      exists_of_attemptsEvent hattempts'
    obtain ⟨-, helapsed, hmin⟩ := hlater e'' he''
    have hdue := ((attemptsEvent_iff he'' d).mp hattempts').2
    rw [timeOf_concat]
    omega
  · intro hcs hpass hlast hthere
    have hall := halters.changes.append (changes_of_calls ht hcalm.2 hcs id)
    rw [← actionsOn_append] at hall
    obtain ⟨before, htriggered⟩ := hall.last hlast
    generalize hafter : ((s.operate c.world c.op).script.calls cs).1.event? id = after at htriggered
    cases htriggered with
    | triggered before =>
      cases before with
      | none => exact absurd hafter hthere
      | some e =>
        rw [calls_cons, attemptsEvent_iff hafter]
        exact ⟨hpass, Nat.le_add_right _ _⟩
  · intro hlast hacts
    obtain ⟨before, hremoved⟩ := halters.changes.last hlast
    generalize hafter : (s.operate c.world c.op).script.event? id = after at hremoved
    cases hremoved with
    | removed => exact not_attemptsEvent_of_calls ht hafter hcalm.2 hacts d

/-- In a run without resets and despawning timed events are raised on schedule. The events that a
call raises were there before its commit and are due. One that the call created is first attempted
in the first pass by which its delay has passed; one that comes once is gone with its attempt; one
that repeats waits for its least interval after an attempt. An event that was triggered last is
attempted in the next pass, and one that was removed is not attempted. -/
theorem timed_events_are_raised_on_schedule (hs : s.Reachable) (hbuilt : s.BuiltFrom tables)
    (hd : s.despawned = false) (hcalm : Undisturbed (s.calls (c :: cs ++ [d])).2) :
    s.RaisesOnce c ∧ (s.calls (c :: cs)).1.RaisesOnce d ∧ ∀ id, OnSchedule id s c cs d := by
  have hlive : s.Live tables := ⟨hs.sound, hbuilt, hd⟩
  rw [journal_calls_concat, undisturbed_append] at hcalm
  have hfirst := hcalm.1
  rw [calls_cons, undisturbed_append] at hfirst
  exact ⟨raisesOnce_of_undisturbed hlive hfirst.1,
    raisesOnce_of_undisturbed (hlive.calls hcalm.1) hcalm.2,
    fun id => onSchedule_of_undisturbed hlive hcalm.1 id d⟩

private def alarmTables : List Table :=
  [.single 100 0 4 fun row =>
      { row with
        actionKind := 67
        actionParams := ((((row.actionParams.setIfInBounds 0 7).setIfInBounds 1 200).setIfInBounds 2
          200).setIfInBounds 3 50).setIfInBounds 4 50 },
    .single 100 0 59 fun row =>
      { row with
        id := 2, eventParams := row.eventParams.setIfInBounds 0 7, actionKind := 22
        actionParams := row.actionParams.setIfInBounds 0 1 }]

private def alarmSet : RuleSet := ((Store.build alarmTables).1.find? (.creature 100)).getD default

private def sentry : Script := create 1 alarmSet (Store.build alarmTables).1 {}

private def alert : Call := { world := .empty, op := .advance 0 (some (.aggro 2)) }

private def wait (deltaMs : UInt32) : Call := { world := .empty, op := .advance deltaMs none }

private def alarm : TimedEvent :=
  { elapsed := 0, nextFireAt := 200, repeats := some (50, 50), chance := 100 }

/-- The event is not attempted after 150 milliseconds, is attempted after 50 more, and the rule that
waits for it fires then. -/
theorem event_comes_after_its_delay :
    sentry.Reachable ∧ sentry.BuiltFrom alarmTables ∧ sentry.despawned = false ∧
      Undisturbed (sentry.calls (alert :: [wait 150] ++ [wait 50])).2 ∧
      (sentry.operate alert.world alert.op).script.event? 7 = some alarm ∧
      Unattempted 7 (sentry.operate alert.world alert.op).script [wait 150] ∧
      (sentry.calls (alert :: [wait 150])).1.AttemptsEvent 7 (wait 50) ∧
      (sentry.calls (alert :: [wait 150] ++ [wait 50])).2.filterMap Incident.record? =
        [⟨.creature 100, 1, 0, 0⟩, ⟨.creature 100, 2, 0, 0⟩] := by
  have hreach : sentry.Reachable := .fresh 1 alarmSet _ {} _
  have hbuilt : sentry.BuiltFrom alarmTables := builtFrom_create 1 {}
  have hcalm : Undisturbed (sentry.calls (alert :: [wait 150] ++ [wait 50])).2 := by
    unfold Undisturbed
    decide +kernel
  have halarm : (sentry.operate alert.world alert.op).script.event? 7 = some alarm := by
    decide +kernel
  have hlast : (actionsOn 7 (sentry.operate alert.world alert.op).journal).getLast? =
      some (.createTimedEvent 7 200 200 50 50 100) := by decide +kernel
  have hwaits : Unattempted 7 (sentry.operate alert.world alert.op).script [wait 150] := by
    refine ⟨?_, trivial⟩
    rw [attemptsEvent_iff halarm]
    exact fun h => absurd h.2 (by decide)
  have hidle : actionsOn 7 ((sentry.operate alert.world alert.op).script.calls [wait 150]).2 =
      [] := by decide +kernel
  obtain ⟨-, -, hschedule⟩ := timed_events_are_raised_on_schedule hreach hbuilt rfl hcalm
  obtain ⟨e, he, -, -, -, -, hfirst⟩ := (hschedule 7).created 200 200 50 50 100 hlast
  rw [halarm] at he
  cases he
  have hdue : (wait 50).IsPass ∧ alarm.nextFireAt.toNat ≤ timeOf ([wait 150] ++ [wait 50]) :=
    ⟨⟨50, none, rfl⟩, by decide⟩
  exact ⟨hreach, hbuilt, rfl, hcalm, halarm, hwaits, (hfirst hidle hwaits).mpr hdue,
    by decide +kernel⟩

end Script

end TriggerScript
