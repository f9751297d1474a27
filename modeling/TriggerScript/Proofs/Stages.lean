import TriggerScript.Proofs.Firing

/-!
# Stages of a pass

A pass is put together from stretches. A relation between the start of a stretch and what it comes
to is a law when it holds of the smallest stretches and of one stretch after another; then it holds
of whole stages, whatever the rules are.
-/

namespace TriggerScript

namespace Progress

@[simp] theorem script_andThen (p : Progress) (stage : Script → World → Progress) :
    (p.andThen stage).script = (stage p.script p.world).script := rfl

@[simp] theorem world_andThen (p : Progress) (stage : Script → World → Progress) :
    (p.andThen stage).world = (stage p.script p.world).world := rfl

@[simp] theorem journal_andThen (p : Progress) (stage : Script → World → Progress) :
    (p.andThen stage).journal = p.journal ++ (stage p.script p.world).journal := rfl

theorem andThen_andThen (p : Progress) (f g : Script → World → Progress) :
    (p.andThen f).andThen g = p.andThen fun s w => (f s w).andThen g := by
  simp only [andThen, List.append_assoc]

theorem andThen_start (p : Progress) :
    (p.andThen fun s w => { script := s, world := w }) = p := by
  simp only [andThen, List.append_nil]

end Progress

namespace ListRunner

private theorem rules_takeDue (steps : Nat) (r : ListRunner) (g : Rng) :
    (takeDue steps r g).2.1.rules = r.rules := by
  induction steps generalizing r g with
  | zero => rfl
  | succ steps ih =>
    unfold takeDue
    split
    · rfl
    · exact ih _ _

theorem rules_advance (r : ListRunner) (deltaMs : UInt32) (inCombat : Bool) (g : Rng) :
    (r.advance deltaMs inCombat g).2.1.rules = r.rules := by
  unfold advance
  split
  · exact rules_takeDue _ _ g
  · rfl

end ListRunner

namespace Script

section Turns

variable {α : Type} (stage : α → Script → World → Progress)

private theorem foldl_andThen (xs : List α) (p : Progress) :
    xs.foldl (fun p x => p.andThen (stage x)) p = p.andThen (inTurn stage xs) := by
  induction xs generalizing p with
  | nil => exact p.andThen_start.symm
  | cons x xs ih =>
    have hx : inTurn stage (x :: xs) = fun s w => (stage x s w).andThen (inTurn stage xs) := by
      funext s w
      exact ih _
    rw [List.foldl_cons, ih, hx, Progress.andThen_andThen]

@[simp] theorem inTurn_nil (s : Script) (w : World) :
    inTurn stage [] s w = { script := s, world := w } := rfl

theorem inTurn_cons (x : α) (xs : List α) (s : Script) (w : World) :
    inTurn stage (x :: xs) s w = (stage x s w).andThen (inTurn stage xs) :=
  foldl_andThen stage xs _

theorem inTurn_append (xs ys : List α) (s : Script) (w : World) :
    inTurn stage (xs ++ ys) s w = (inTurn stage xs s w).andThen (inTurn stage ys) := by
  simp only [inTurn, List.foldl_append]
  exact foldl_andThen stage ys _

theorem inTurn_middle (xs : List α) (y : α) (zs : List α) (s : Script) (w : World) :
    inTurn stage (xs ++ y :: zs) s w =
      (inTurn stage xs s w).andThen fun t v => (stage y t v).andThen (inTurn stage zs) := by
  rw [inTurn_append]
  congr 1
  funext t v
  exact inTurn_cons stage y zs t v

end Turns

/-- Every running list has its steps from the store. -/
def Listed (s : Script) : Prop :=
  ∀ id runner, s.lists[id]? = some runner → s.store.timedList? id = some runner.rules

theorem Listed.of_eq {s t : Script} (h : s.Listed) (hl : t.lists = s.lists)
    (hst : t.store = s.store) : t.Listed := by
  intro id runner
  rw [hl, hst]
  exact h id runner

theorem Listed.insert {s : Script} (h : s.Listed) {id : UInt32} {runner : ListRunner}
    (hr : s.store.timedList? id = some runner.rules) (rng : Rng) :
    ({ s with rng, lists := s.lists.insert id runner } : Script).Listed := by
  intro id' runner' hr'
  change (s.lists.insert id runner)[id']? = some runner' at hr'
  rw [Std.ExtTreeMap.getElem?_insert] at hr'
  split at hr'
  · rename_i hid
    cases hr'
    rw [← Std.LawfulEqOrd.eq_of_compare hid]
    exact hr
  · exact h id' runner' hr'

theorem Listed.erase {s : Script} (h : s.Listed) (id : UInt32) :
    ({ s with lists := s.lists.erase id } : Script).Listed := by
  intro id' runner' hr'
  change (s.lists.erase id)[id']? = some runner' at hr'
  rw [Std.ExtTreeMap.getElem?_erase] at hr'
  split at hr'
  · cases hr'
  · exact h id' runner' hr'

/-- `t` is `s` with other draws, timed events and running lists. -/
def Aside (s t : Script) : Prop :=
  t = { s with
    rng := t.rng, lists := t.lists, state := { s.state with timedEvents := t.state.timedEvents } }

theorem Aside.refl (s : Script) : s.Aside s := rfl

theorem Aside.keeps {s t : Script} (h : s.Aside t) : s.KeepsVisible t := by
  rw [h]
  exact ⟨⟨rfl, rfl, rfl, rfl⟩, rfl, rfl, rfl, rfl⟩

theorem Aside.trans {s t u : Script} (h : s.Aside t) (h' : t.Aside u) : s.Aside u := by
  rw [Aside, h', h]

theorem aside_tickEvents (deltaMs : UInt32) (events : List (UInt32 × TimedEvent)) (s : Script) :
    s.Aside (tickEvents deltaMs events s).2 := by
  unfold tickEvents
  apply List.foldlRecOn (motive := fun q : List UInt32 × Script => s.Aside q.2)
  · exact .refl s
  · intro q hq e _
    exact hq.trans rfl

theorem lists_tickEvents (deltaMs : UInt32) (events : List (UInt32 × TimedEvent)) (s : Script) :
    (tickEvents deltaMs events s).2.lists = s.lists := by
  unfold tickEvents
  apply List.foldlRecOn (motive := fun q : List UInt32 × Script => q.2.lists = s.lists)
  · rfl
  · intro q hq e _
    exact hq

/-- A relation between the start of a stretch and its outcome that is kept when stretches are
joined. -/
structure Chains (R : Script → World → Progress → Prop) : Prop where
  join : ∀ {s w p stage}, s.Keeps p.script → R s w p →
    R p.script p.world (stage p.script p.world) → R s w (p.andThen stage)
  aside : ∀ {s t} (w), s.Aside t → R s w { script := t, world := w }

structure Law (R : Script → World → Progress → Prop) : Prop extends Chains R where
  heard : ∀ s w signal, R s w { script := s, world := w, journal := [.heard signal] }
  react : ∀ {s rule} (w signal), s.Listed → rule ∈ s.rules.rules → R s w (react signal rule s w)

structure ListLaw (R : Script → World → Progress → Prop) : Prop extends Chains R where
  resumed : ∀ s w id due, R s w { script := s, world := w, journal := [.resumed id due] }
  step : ∀ {s id runner} (w index), s.Listed → s.store.timedList? id = some runner.rules →
    R s w (fireStep runner index s w)

structure HearingLaw (R : Script → World → Progress → Prop) : Prop extends Law R where
  renewed : ∀ s w, R s w { script := s.resetState, world := w, journal := [.reset] }

structure CommitLaw (R : Script → World → Progress → Prop) : Prop extends HearingLaw R where
  settled : ∀ s w, R s w (settle s w)

/-- A stretch that obeys a law, keeps what the script has for life, and keeps its lists within the
store. -/
structure Walks (R : Script → World → Progress → Prop) (s : Script) (w : World) (p : Progress) :
    Prop where
  keeps : s.Keeps p.script
  listed : p.script.Listed
  law : R s w p

section Walks

variable {R : Script → World → Progress → Prop} {s : Script} {w : World}

namespace Chains

theorem and {R' : Script → World → Progress → Prop} (L : Chains R) (L' : Chains R') :
    Chains fun s w p => R s w p ∧ R' s w p where
  join hk h h' := ⟨L.join hk h.1 h'.1, L'.join hk h.2 h'.2⟩
  aside w h := ⟨L.aside w h, L'.aside w h⟩

theorem walks_join (L : Chains R) {p : Progress} {stage : Script → World → Progress}
    (h : Walks R s w p) (h' : Walks R p.script p.world (stage p.script p.world)) :
    Walks R s w (p.andThen stage) :=
  ⟨h.keeps.trans h'.keeps, h'.listed, L.join h.keeps h.law h'.law⟩

theorem walks_start (L : Chains R) (hs : s.Listed) :
    Walks R s w { script := s, world := w } :=
  ⟨.refl s, hs, L.aside w (.refl s)⟩

theorem walks_from (L : Chains R) {t : Script} {v : World} {p : Progress}
    (h : Walks R s w { script := t, world := v }) (h' : Walks R t v p) : Walks R s w p :=
  ⟨h.keeps.trans h'.keeps, h'.listed,
    @Chains.join R L s w { script := t, world := v } (fun _ _ => p) h.keeps h.law h'.law⟩

theorem walks_aside (L : Chains R) (hs : s.Listed) {t : Script} (h : s.Aside t)
    (ht : t.lists = s.lists) : Walks R s w { script := t, world := w } :=
  ⟨h.keeps.toKeeps, hs.of_eq ht h.keeps.store, L.aside w h⟩

theorem walks_inTurn (L : Chains R) {α : Type} {stage : α → Script → World → Progress}
    {xs : List α} (hs : s.Listed)
    (h : ∀ x ∈ xs, ∀ t v, s.Keeps t → t.Listed → Walks R t v (stage x t v)) :
    Walks R s w (inTurn stage xs s w) := by
  induction xs generalizing s w with
  | nil => exact L.walks_start hs
  | cons x xs ih =>
    rw [inTurn_cons]
    have hx := h x List.mem_cons_self s w (.refl s) hs
    apply L.walks_join hx
    apply ih hx.listed
    intro y hy t v ht
    exact h y (List.mem_cons_of_mem _ hy) t v (hx.keeps.trans ht)

end Chains

theorem keeps_tickTimer (deltaMs : UInt32) (rule : Rule) (s : Script) :
    s.KeepsVisible (s.tickTimer deltaMs rule) := ⟨⟨rfl, rfl, rfl, rfl⟩, rfl, rfl, rfl, rfl⟩

/-- In its turn a rule has its timer advanced, unless its gates are closed; only a polled rule that
is due is tried. -/
theorem poll_cases (deltaMs : UInt32) (inCombat : Bool) (rule : Rule) (s : Script) (w : World) :
    s.poll deltaMs inCombat rule w = { script := s, world := w } ∨
      (!rule.isPolled || s.runsTimer inCombat rule) = true ∧
        (s.poll deltaMs inCombat rule w = { script := s.tickTimer deltaMs rule, world := w } ∨
          ((s.tickTimer deltaMs rule).state.timers[rule.id]?.any (·.isDue)) = true ∧
            ∃ o, s.poll deltaMs inCombat rule w = (s.tickTimer deltaMs rule).attempt o rule w) := by
  unfold poll
  split
  · rename_i hpushed
    exact .inr ⟨by simp [hpushed], .inl rfl⟩
  · split
    · exact .inl rfl
    · rename_i hruns
      refine .inr ⟨by simp at hruns; simp [hruns], ?_⟩
      dsimp only
      split
      · rename_i hdue
        split
        · exact .inr ⟨hdue, _, rfl⟩
        · exact .inl rfl
      · exact .inl rfl

theorem keeps_poll (deltaMs : UInt32) (inCombat : Bool) (rule : Rule) (s : Script) (w : World) :
    s.KeepsVisible (s.poll deltaMs inCombat rule w).script ∧
      (s.poll deltaMs inCombat rule w).script.lists = s.lists ∧
      w.Becomes (s.poll deltaMs inCombat rule w).world := by
  have htick := keeps_tickTimer deltaMs rule s
  rcases poll_cases deltaMs inCombat rule s w with h | ⟨-, h | ⟨-, o, h⟩⟩
  · rw [h]
    exact ⟨.refl s, rfl, .refl w⟩
  · rw [h]
    exact ⟨htick, rfl, .refl w⟩
  · rw [h]
    have hattempt := attempts_attempt o rule (s.tickTimer deltaMs rule) w
    exact ⟨htick.trans hattempt.keeps, hattempt.lists, hattempt.world⟩

/-- The own rules take their turns in a law if each turn and the note before them are in it. -/
theorem Chains.walks_advancePolled (L : Chains R) (hs : s.Listed) (deltaMs : UInt32)
    (hnote : R s w
      { script := s, world := w
        journal := [.polled deltaMs s.state.phase (w.inCombat s.owner)] })
    (hpoll : ∀ rule ∈ s.rules.rules, ∀ t v, s.Keeps t →
      R t v (t.poll deltaMs (w.inCombat s.owner) rule v)) :
    Walks R s w (s.advancePolled deltaMs w) := by
  apply L.walks_join ⟨.refl s, hs, hnote⟩
  apply L.walks_inTurn hs
  intro rule hr t v hst hl
  obtain ⟨hk, hlists, -⟩ := keeps_poll deltaMs (w.inCombat s.owner) rule t v
  exact ⟨hk.toKeeps, hl.of_eq hlists hk.store, hpoll rule hr t v hst⟩

namespace Law

theorem walks_react (L : Law R) (hs : s.Listed) (signal : Signal) {rule : Rule}
    (hr : rule ∈ s.rules.rules) : Walks R s w (Script.react signal rule s w) := by
  refine ⟨?_, ?_, L.react w signal hs hr⟩
  all_goals
    unfold Script.react
    split
  · exact (attempts_attempt _ _ _ _).keeps.toKeeps
  · exact .refl s
  · have h := attempts_attempt
      { owner := s.owner, invoker := signal.invoker, position := signal.position } rule s w
    exact hs.of_eq h.lists h.keeps.store
  · exact hs

theorem walks_handleSignal (L : Law R) (hs : s.Listed) (signal : Signal) :
    Walks R s w (s.handleSignal signal w) := by
  apply L.walks_join ⟨.refl s, hs, L.heard s w signal⟩
  apply L.walks_inTurn hs
  intro rule hr t v ht hl
  apply L.walks_react hl
  rw [ht.rules]
  exact hr

theorem walks_handleSignals (L : Law R) (hs : s.Listed) (signals : List Signal) :
    Walks R s w (handleSignals signals s w) :=
  L.walks_inTurn hs fun signal _ _ _ _ hl => L.walks_handleSignal hl signal

theorem walks_advanceTimedEvents (L : Law R) (hs : s.Listed) (deltaMs : UInt32) :
    Walks R s w (s.advanceTimedEvents deltaMs w) := by
  have ha := aside_tickEvents deltaMs s.state.timedEvents.toList s
  have hl := lists_tickEvents deltaMs s.state.timedEvents.toList s
  have hfirst := L.walks_aside (w := w) hs ha hl
  exact L.walks_join hfirst (L.walks_handleSignals hfirst.listed _)

end Law

namespace ListLaw

theorem walks_fireStep (L : ListLaw R) (hs : s.Listed) {id : UInt32} {runner : ListRunner}
    (hr : s.store.timedList? id = some runner.rules) (index : Nat) :
    Walks R s w (s.fireStep runner index w) := by
  refine ⟨?_, ?_, L.step w index hs hr⟩
  all_goals
    unfold fireStep
    split
  · exact (fires_fireHead _ _ _ _ _ _).keeps.toKeeps
  · exact .refl s
  · rename_i rule _
    have h := fires_fireHead runner.rules { owner := s.owner, invoker := runner.invoker } false
      rule s w
    exact hs.of_eq h.keeps.lists h.keeps.store
  · exact hs

theorem walks_advanceList (L : ListLaw R) (hs : s.Listed) (deltaMs : UInt32) (inCombat : Bool)
    (id : UInt32) : Walks R s w (s.advanceList deltaMs inCombat id w) := by
  unfold advanceList
  split
  · exact L.walks_start hs
  · rename_i runner hrunner
    generalize hadv : runner.advance deltaMs inCombat s.rng = adv
    obtain ⟨due, runner', rng⟩ := adv
    dsimp only
    have hrules : runner'.rules = runner.rules := by
      have h := runner.rules_advance deltaMs inCombat s.rng
      rwa [hadv] at h
    have hstore : s.store.timedList? id = some runner'.rules := by
      rw [hrules]
      exact hs id runner hrunner
    have hfirst : Walks R s w
        { script := { s with rng, lists := s.lists.insert id runner' }, world := w } :=
      ⟨⟨rfl, rfl, rfl, rfl⟩, hs.insert hstore rng, L.aside w rfl⟩
    have hnoted : Walks R s w (Progress.andThen
        { script := { s with rng, lists := s.lists.insert id runner' }, world := w }
        fun s w => { script := s, world := w, journal := [.resumed id due] }) :=
      L.walks_join hfirst ⟨.refl _, hfirst.listed, L.resumed _ w id due⟩
    have hsteps : Walks R s w (Progress.andThen
        { script := { s with rng, lists := s.lists.insert id runner' }, world := w
          journal := [.resumed id due] }
        (inTurn (fireStep runner') due)) := by
      apply L.walks_join hnoted
      apply L.walks_inTurn hnoted.listed
      intro index _ t v ht hl
      exact L.walks_fireStep hl (ht.store ▸ hstore) index
    split
    · apply L.walks_join hsteps
      exact ⟨⟨rfl, rfl, rfl, rfl⟩, hsteps.listed.erase id, L.aside _ rfl⟩
    · exact hsteps

theorem walks_advanceLists (L : ListLaw R) (hs : s.Listed) (deltaMs : UInt32) :
    Walks R s w (s.advanceLists deltaMs w) :=
  L.walks_inTurn hs fun id _ _ _ _ hl => L.walks_advanceList hl deltaMs _ id

end ListLaw

end Walks

end Script

end TriggerScript
