import TriggerScript.Proofs.Reachability

/-!
# Laws of firing

Rules fire from the own set of a script and from timed action lists, directly and through links. A
law that holds of one rule that fires, of timers and of notes holds of every stage of a pass. One
that also holds of resets, commits and retirement holds of everything that can happen to a script.
-/

namespace TriggerScript

def RuleSet.next? (set : RuleSet) (rule : Rule) : Option Rule := rule.linkTo.bind set.find?

theorem RuleSet.mem_of_next? {set : RuleSet} {rule next : Rule} (h : set.next? rule = some next) :
    next ∈ set.rules := by
  obtain ⟨id, -, hid⟩ := Option.bind_eq_some_iff.mp h
  exact RuleSet.mem_of_find? hid

namespace Script

def shoot (set : RuleSet) (o : Occasion) (depth : Nat) (forced : Bool) (rule : Rule) (s : Script)
    (w : World) : Progress :=
  ((s.losesChance forced rule).2.mark set rule).perform rule o depth w

structure LetsThrough (s : Script) (w : World) (set : RuleSet) (forced : Bool) (rule : Rule) :
    Prop where
  unvetoed : s.isVetoed w set rule = false
  lucky : (s.losesChance forced rule).1 = false

def follow (set : RuleSet) (o : Occasion) (links depth : Nat) (rule : Rule) (p : Progress) :
    Progress :=
  match links, set.next? rule with
  | links + 1, some next =>
      p.andThen fun s w => (fire set o links (depth + 1) false next s w).2
  | _, _ => p

section

variable {set : RuleSet} {o : Occasion} {links depth : Nat} {forced : Bool} {rule next : Rule}
  {s : Script} {w : World}

theorem fire_of_vetoed (hv : s.isVetoed w set rule = true) :
    fire set o links depth forced rule s w = (.vetoed, { script := s, world := w }) := by
  unfold fire
  rw [if_pos hv]

theorem fire_of_unlucky (hv : s.isVetoed w set rule = false)
    (hl : (s.losesChance forced rule).1 = true) :
    fire set o links depth forced rule s w =
      (.chanceFailed, { script := (s.losesChance forced rule).2, world := w }) := by
  unfold fire
  rw [if_neg (by simp [hv]), if_pos hl]

theorem LetsThrough.fire_eq (h : s.LetsThrough w set forced rule) :
    fire set o links depth forced rule s w =
      (.fired, follow set o links depth rule (shoot set o depth forced rule s w)) := by
  unfold fire
  rw [if_neg (by simp [h.unvetoed]), if_neg (by simp [h.lucky])]
  cases links <;> rfl

theorem follow_of_stop {p : Progress} (h : links = 0 ∨ set.next? rule = none) :
    follow set o links depth rule p = p := by
  cases links with
  | zero => rfl
  | succ links =>
    have hnone : set.next? rule = none := h.resolve_left (Nat.succ_ne_zero links)
    unfold follow
    rw [hnone]

theorem follow_of_next {p : Progress} (h : set.next? rule = some next) :
    follow set o (links + 1) depth rule p =
      p.andThen fun s w => (fire set o links (depth + 1) false next s w).2 := by
  unfold follow
  rw [h]

end

/-- The three ways in which firing can end. -/
theorem fire_cases (set : RuleSet) (o : Occasion) (links depth : Nat) (forced : Bool) (rule : Rule)
    (s : Script) (w : World) :
    (s.isVetoed w set rule = true ∧
      fire set o links depth forced rule s w = (.vetoed, { script := s, world := w })) ∨
    (s.isVetoed w set rule = false ∧ (s.losesChance forced rule).1 = true ∧
      fire set o links depth forced rule s w =
        (.chanceFailed, { script := (s.losesChance forced rule).2, world := w })) ∨
    (s.LetsThrough w set forced rule ∧
      fire set o links depth forced rule s w =
        (.fired, follow set o links depth rule (shoot set o depth forced rule s w))) := by
  cases hv : s.isVetoed w set rule with
  | true => exact .inl ⟨rfl, fire_of_vetoed hv⟩
  | false =>
    right
    cases hl : (s.losesChance forced rule).1 with
    | true => exact .inl ⟨rfl, rfl, fire_of_unlucky hv hl⟩
    | false =>
      have hthrough : s.LetsThrough w set forced rule := ⟨hv, hl⟩
      exact .inr ⟨hthrough, hthrough.fire_eq⟩

theorem follow_cases (set : RuleSet) (o : Occasion) (links depth : Nat) (rule : Rule)
    (p : Progress) :
    (links = 0 ∨ set.next? rule = none) ∧ follow set o links depth rule p = p ∨
    ∃ left next, links = left + 1 ∧ set.next? rule = some next ∧
      follow set o links depth rule p =
        p.andThen fun s w => (fire set o left (depth + 1) false next s w).2 := by
  cases links with
  | zero => exact .inl ⟨.inl rfl, follow_of_stop (.inl rfl)⟩
  | succ left =>
    cases hnext : set.next? rule with
    | none => exact .inl ⟨.inr rfl, follow_of_stop (.inr hnext)⟩
    | some next => exact .inr ⟨left, next, rfl, rfl, follow_of_next hnext⟩

theorem aside_losesChance (forced : Bool) (rule : Rule) (s : Script) :
    s.Aside (s.losesChance forced rule).2 := by
  unfold losesChance
  split <;> rfl

/-- A set from which a script fires rules: its own or a timed action list of its store. -/
def Uses (s : Script) (set : RuleSet) : Prop :=
  set = s.rules ∨ ∃ id, s.store.timedList? id = some set

theorem Uses.of_keeps {s t : Script} {set : RuleSet} (h : s.Uses set) (hk : s.Keeps t) :
    t.Uses set := by
  unfold Uses
  rw [hk.rules, hk.store]
  exact h

/-- A law that holds of one rule that fires, wherever it comes from; rules may be forced if
`forcing` says so. -/
structure FiringLaw (forcing : Bool) (R : Script → World → Progress → Prop) : Prop
    extends Chains R where
  shot : ∀ {s set forced rule} (w o depth), s.Uses set → rule ∈ set.rules →
    (forced = true → forcing = true) → s.LetsThrough w set forced rule →
    R s w (shoot set o depth forced rule s w)
  timed : ∀ s w rng timers,
    R s w { script := { s with rng, state := { s.state with timers } }, world := w }
  noted : ∀ {i : Incident} (s w), i.record? = none → i ≠ .reset → i ≠ .despawned →
    R s w { script := s, world := w, journal := [i] }

/-- A law of all that can happen to a script. -/
structure LifeLaw (R : Script → World → Progress → Prop) : Prop extends FiringLaw true R where
  taken : ∀ s w, R s w { script := s.taken, world := w }
  renewed : ∀ s w, R s w { script := s.resetState, world := w, journal := [.reset] }
  settled : ∀ s w, R s w (settle s w)
  retired : ∀ s w, R s w (retire s w)

section

variable {forcing : Bool} {R : Script → World → Progress → Prop} {s : Script} {set : RuleSet}

theorem keeps_shoot (set : RuleSet) (o : Occasion) (depth : Nat) (forced : Bool) (rule : Rule)
    (s : Script) (w : World) : s.KeepsOnFiring (shoot set o depth forced rule s w).script := by
  have hp := Dispatch.leads_execute o rule
    { world := w, state := ((s.losesChance forced rule).2.mark set rule).state
      rng := ((s.losesChance forced rule).2.mark set rule).rng }
  apply (keeps_losesChance forced rule s).trans
  apply (keeps_mark set rule _).trans
  exact ⟨⟨⟨rfl, rfl, rfl, rfl⟩, rfl, (congrArg ScriptState.phase hp.state :),
    (congrArg ScriptState.counters hp.state :), (congrArg ScriptState.deferred hp.state :)⟩, rfl,
    (congrArg ScriptState.timers hp.state :)⟩

theorem becomes_shoot (set : RuleSet) (o : Occasion) (depth : Nat) (forced : Bool) (rule : Rule)
    (s : Script) (w : World) : w.Becomes (shoot set o depth forced rule s w).world :=
  (Dispatch.leads_execute o rule
    { world := w, state := ((s.losesChance forced rule).2.mark set rule).state
      rng := ((s.losesChance forced rule).2.mark set rule).rng }).world

theorem journal_shoot (set : RuleSet) (o : Occasion) (depth : Nat) (forced : Bool) (rule : Rule)
    (s : Script) (w : World) :
    ∃ n, (shoot set o depth forced rule s w).journal = [.fired rule depth n] := ⟨_, rfl⟩

namespace FiringLaw

theorem fire (L : FiringLaw forcing R) {o : Occasion} {links depth : Nat} {forced : Bool}
    {rule : Rule} {w : World} (hset : s.Uses set) (hr : rule ∈ set.rules)
    (hf : forced = true → forcing = true) :
    R s w (Script.fire set o links depth forced rule s w).2 := by
  induction links using Nat.strongRecOn generalizing depth forced rule s w with
  | ind links ih =>
    rcases fire_cases set o links depth forced rule s w with
      ⟨-, h⟩ | ⟨-, -, h⟩ | ⟨hthrough, h⟩
    · rw [h]
      exact L.aside w (.refl s)
    · rw [h]
      exact L.aside w (aside_losesChance forced rule s)
    · rw [h]
      have hshot := L.shot w o depth hset hr hf hthrough
      have hkeeps := (keeps_shoot set o depth forced rule s w).toKeeps
      rcases follow_cases set o links depth rule (shoot set o depth forced rule s w) with
        ⟨-, hend⟩ | ⟨left, next, rfl, hnext, hgo⟩
      · rw [hend]
        exact hshot
      · have hrest : R (shoot set o depth forced rule s w).script
            (shoot set o depth forced rule s w).world
            (Script.fire set o left (depth + 1) false next
              (shoot set o depth forced rule s w).script
              (shoot set o depth forced rule s w).world).2 :=
          ih left (Nat.lt_succ_self left) (hset.of_keeps hkeeps) (RuleSet.mem_of_next? hnext)
            fun h => nomatch h
        rw [hgo]
        dsimp only
        exact L.join hkeeps hshot hrest

theorem attempt (L : FiringLaw forcing R) {rule : Rule} (hr : rule ∈ s.rules.rules) (o : Occasion)
    (w : World) : R s w (s.attempt o rule w) := by
  have hfire : R s w (fireHead s.rules o false rule s w).2 :=
    L.fire (.inl rfl) hr fun h => nomatch h
  have hkeeps := (fires_fireHead s.rules o false rule s w).keeps.toKeeps
  rw [attempt_eq]
  dsimp only
  split
  · exact hfire
  · generalize (fireHead s.rules o false rule s w).2 = p at hfire hkeeps ⊢
    have hcooled : R p.script p.world
        { script := p.script.rollCooldown rule (s.outcome o rule w), world := p.world } := by
      unfold rollCooldown
      dsimp only
      split
      · exact L.timed p.script p.world _ _
      · exact L.aside p.world (.refl p.script)
    have hboth := @Chains.join R L.toChains s w p
      (fun t v => { script := t.rollCooldown rule (s.outcome o rule w), world := v }) hkeeps hfire
      hcooled
    simpa [Progress.andThen] using hboth

theorem law (L : FiringLaw forcing R) : Law R where
  toChains := L.toChains
  heard s w signal := L.noted s w rfl (by simp) (by simp)
  react w signal _ hr := by
    unfold Script.react
    split
    · exact L.attempt hr _ w
    · exact L.aside w (.refl _)

theorem listLaw (L : FiringLaw forcing R) : ListLaw R where
  toChains := L.toChains
  resumed s w id due := L.noted s w rfl (by simp) (by simp)
  step w index _ hrunner := by
    unfold fireStep
    split
    · rename_i hrule
      exact L.fire (.inr ⟨_, hrunner⟩) (List.mem_of_getElem? hrule) fun h => nomatch h
    · exact L.aside w (.refl _)

theorem poll (L : FiringLaw forcing R) {rule : Rule} (hr : rule ∈ s.rules.rules)
    (deltaMs : UInt32) (inCombat : Bool) (w : World) :
    R s w (s.poll deltaMs inCombat rule w) := by
  have htick : R s w { script := s.tickTimer deltaMs rule, world := w } := L.timed s w _ _
  rcases poll_cases deltaMs inCombat rule s w with h | ⟨-, h | ⟨-, o, h⟩⟩
  · rw [h]
    exact L.aside w (.refl s)
  · rw [h]
    exact htick
  · have hmem : rule ∈ (s.tickTimer deltaMs rule).rules.rules := hr
    have hattempt := L.attempt hmem o w
    rw [h]
    exact @Chains.join R L.toChains s w { script := s.tickTimer deltaMs rule, world := w }
      (fun t v => t.attempt o rule v) (keeps_tickTimer deltaMs rule s).toKeeps htick hattempt

theorem walks_advancePolled (L : FiringLaw forcing R) (hs : s.Listed) (deltaMs : UInt32)
    (w : World) : Walks R s w (s.advancePolled deltaMs w) := by
  apply L.toChains.walks_advancePolled hs deltaMs (L.noted s w rfl (by simp) (by simp))
  intro rule hr t v hk
  apply L.poll
  rw [hk.rules]
  exact hr

theorem walks_stages (L : FiringLaw forcing R)
    (hrenewed : ∀ s w, R s w { script := s.resetState, world := w, journal := [.reset] })
    (hs : s.Listed) (deltaMs : UInt32) (signal : Option Signal) (w : World) :
    Walks R s.taken w (s.stages deltaMs signal w) := by
  have hearing : HearingLaw R := { toLaw := L.law, renewed := hrenewed }
  apply hearing.walks_stages hs
  · intro t v _ hl
    exact L.walks_advancePolled hl deltaMs v
  · intro t v _ hl
    exact L.listLaw.walks_advanceLists hl deltaMs

end FiringLaw

namespace LifeLaw

theorem commitLaw (L : LifeLaw R) : CommitLaw R where
  toLaw := L.toFiringLaw.law
  renewed := L.renewed
  settled := L.settled

theorem despawn (L : LifeLaw R) (hs : s.Listed) (w : World) : R s w (s.despawn w) := by
  unfold Script.despawn
  split
  · exact L.aside w (.refl s)
  · have htold := L.commitLaw.walks_handleSignal (w := w) hs .despawn
    exact L.join htold.keeps htold.law (L.retired _ _)

theorem advance (L : LifeLaw R) (hs : s.Listed) (deltaMs : UInt32) (signal : Option Signal)
    (w : World) : R s w (s.advance deltaMs signal w) := by
  have htaken : Walks R s w { script := s.taken, world := w } :=
    ⟨keeps_taken s, hs.of_eq rfl rfl, L.taken s w⟩
  cases hd : s.despawned with
  | true =>
    rw [advance_of_despawned hd]
    exact L.aside w (.refl s)
  | false =>
    by_cases hsig : signal = some .despawn
    · have htold := L.walks_from htaken (L.commitLaw.walks_handleDeferred (w := w) hs)
      rw [hsig, advance_despawn hd]
      exact L.join htold.keeps htold.law (L.despawn htold.listed _)
    · have hstages := L.walks_from htaken
        (L.toFiringLaw.walks_stages L.renewed hs deltaMs signal w)
      have hcommit := L.commitLaw.walks_commit (w := (s.stages deltaMs signal w).world)
        hstages.listed
      rw [advance_eq hd deltaMs hsig]
      exact L.join hstages.keeps hstages.law hcommit.law

/-- A law of all that can happen to a script holds of every operation. -/
theorem operate (L : LifeLaw R) (hs : s.Listed) (w : World) (op : Operation) :
    R s w (s.operate w op) := by
  cases op with
  | advance deltaMs signal => exact L.advance hs deltaMs signal w
  | reset =>
    change R s w (s.reset w)
    unfold reset
    split
    · exact L.aside w (.refl s)
    · have hover := L.commitLaw.walks_startOver (s := s) (w := w)
      exact L.join hover.keeps hover.law (L.commitLaw.walks_commit hover.listed).law
  | forceFire id =>
    change R s w ((s.forceFire? id w).getD { script := s, world := w })
    unfold forceFire?
    cases hfind : s.rules.find? id with
    | none => exact L.aside w (.refl s)
    | some rule =>
      rw [Option.map_some, Option.getD_some]
      split
      · exact L.aside w (.refl s)
      · have hfires := (fires_fireHead s.rules { owner := s.owner } true rule s w).keeps
        have hfire : R s w (fireHead s.rules { owner := s.owner } true rule s w).2 :=
          L.fire (.inl rfl) (RuleSet.mem_of_find? hfind) fun h => h
        have hlisted := hs.of_eq hfires.lists hfires.store
        exact L.join hfires.toKeeps hfire (L.commitLaw.walks_commit hlisted).law
  | despawn => exact L.despawn hs w

end LifeLaw

end

end Script

end TriggerScript
