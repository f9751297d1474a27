import TriggerScript.Proofs.BuiltSets
import TriggerScript.Proofs.Despawning

/-!
# Timetables

The timers of a live script are those of its own rules. Every polled rule has one, so that its turn
always finds it; any other rule has one only if it has a cooldown. Each timer counts to a delay that
its rule can draw, and only a polled rule without a repeat interval can be exhausted.
-/

namespace TriggerScript

/-- A delay that a rule can draw when its script spawns or is reset. -/
def Rule.StartsAfter (r : Rule) (delay : UInt32) : Prop :=
  match r.event.initialTimer with
  | some (min, max) => min ≤ delay ∧ delay ≤ max
  | none => delay = 0

/-- A delay that a rule can draw for its cooldown. -/
def Rule.RepeatsAfter (r : Rule) (delay : UInt32) : Prop :=
  r.spec.cooldownMin ≤ delay ∧ delay ≤ r.spec.cooldownMax

/-- What the timer of a rule can be. -/
structure Rule.Grants (r : Rule) (t : Timer) : Prop where
  polled : r.isPolled = true → r.StartsAfter t.nextFireAt ∨ r.RepeatsAfter t.nextFireAt
  pushed : r.isPolled = false →
    0 < r.spec.cooldownMax ∧ r.RepeatsAfter t.nextFireAt ∧ t.exhausted = false
  exhausted : t.exhausted = true → r.isPolled = true ∧ r.spec.cooldownMax = 0

structure Schedulable (rules : List Rule) : Prop where
  distinct : (rules.map (·.id)).Nodup
  cooldown : ∀ r ∈ rules, r.spec.cooldownMin ≤ r.spec.cooldownMax
  initial : ∀ r ∈ rules, ∀ min max, r.event.initialTimer = some (min, max) → min ≤ max

theorem Event.WellFormed.initial {e : Event} (h : e.WellFormed) {min max : UInt32}
    (hinitial : e.initialTimer = some (min, max)) : min ≤ max := by
  cases e with
  | updateIc | updateOoc | update =>
    cases hinitial
    exact h
  | _ => cases hinitial

theorem Store.schedulable_of_find? {tables : List Table} {link : Link} {set : RuleSet}
    (h : (Store.build tables).1.find? link = some set) : Schedulable set.rules where
  distinct := (built_of_find? h).distinct
  cooldown := by
    intro r hr
    obtain ⟨q, hq, linkTo, rfl⟩ := exists_wellFormed_of_find? h hr
    exact hq.spec.cooldown
  initial := by
    intro r hr min max hinitial
    obtain ⟨q, hq, linkTo, rfl⟩ := exists_wellFormed_of_find? h hr
    exact hq.spec.event.initial hinitial

namespace Rule

variable {r : Rule} {t : Timer}

theorem Grants.advance (h : r.Grants t) (deltaMs : UInt32) : r.Grants (t.advance deltaMs) :=
  ⟨h.polled, h.pushed, h.exhausted⟩

theorem SpawnTimer.exists_of_polled {timer : Option Timer} (h : r.SpawnTimer timer)
    (hp : r.isPolled = true) : ∃ t, timer = some t := by
  cases h with
  | scheduled => exact ⟨_, rfl⟩
  | atOnce => exact ⟨_, rfl⟩
  | pushed hpushed =>
    rw [hp] at hpushed
    cases hpushed

theorem SpawnTimer.grants {timer : Option Timer} (h : r.SpawnTimer timer)
    (hrange : ∀ min max, r.event.initialTimer = some (min, max) → min ≤ max)
    (ht : timer = some t) : r.Grants t := by
  have hgrants : ∀ delay, r.isPolled = true → r.StartsAfter delay → r.Grants (.dueIn delay) := by
    intro delay hp hstarts
    refine ⟨fun _ => .inl hstarts, ?_, nofun⟩
    intro hpushed
    rw [hp] at hpushed
    cases hpushed
  cases h with
  | @scheduled min max delay hinitial hmin hmax =>
    cases ht
    have hupdate : r.event.isUpdate = true := by
      rw [← Event.isSome_initialTimer, hinitial]
      rfl
    apply hgrants delay (Event.isPolled_of_isUpdate hupdate)
    unfold StartsAfter
    rw [hinitial]
    exact ⟨hmin, hmax (hrange min max hinitial)⟩
  | atOnce hp hupdate =>
    cases ht
    have hinitial : r.event.initialTimer = none := by
      rw [← Option.isNone_iff_eq_none, ← Option.not_isSome, Event.isSome_initialTimer, hupdate]
      rfl
    apply hgrants 0 hp
    unfold StartsAfter
    rw [hinitial]
  | pushed => cases ht

theorem grants_cooldown (hcools : Script.cools r = true)
    (hrange : r.spec.cooldownMin ≤ r.spec.cooldownMax) (g : Rng) (fired : Bool) :
    r.Grants
      { nextFireAt := (g.roll r.spec.cooldownMin r.spec.cooldownMax).1
        exhausted := r.isPolled && r.spec.cooldownMax == 0 && fired } := by
  obtain ⟨hmin, hmax⟩ := g.roll_bounds r.spec.cooldownMin r.spec.cooldownMax
  have hrepeats : r.RepeatsAfter (g.roll r.spec.cooldownMin r.spec.cooldownMax).1 :=
    ⟨UInt32.le_iff_toNat_le.mpr hmin, UInt32.le_iff_toNat_le.mpr (hmax hrange)⟩
  refine ⟨fun _ => .inr hrepeats, ?_, ?_⟩
  · intro hpushed
    have hmax : 0 < r.spec.cooldownMax := by simpa [Script.cools, hpushed] using hcools
    exact ⟨hmax, hrepeats, by simp [hpushed]⟩
  · intro hexhausted
    simp only [Bool.and_eq_true, beq_iff_eq] at hexhausted
    exact hexhausted.1

end Rule

/-- The timers are those that the rules need, and each is one that its rule grants. -/
structure Timetable (rules : List Rule) (timers : Std.ExtTreeMap RuleId Timer) : Prop where
  owned : ∀ id ∈ timers, ∃ r ∈ rules, r.id = id
  polled : ∀ r ∈ rules, r.isPolled = true → ∃ t, timers[r.id]? = some t
  granted : ∀ r ∈ rules, ∀ t, timers[r.id]? = some t → r.Grants t

namespace Timetable

variable {rules : List Rule} {timers : Std.ExtTreeMap RuleId Timer} {r : Rule}

theorem insert (h : Timetable rules timers) (hids : (rules.map (·.id)).Nodup) (hr : r ∈ rules)
    {t : Timer} (ht : r.Grants t) : Timetable rules (timers.insert r.id t) where
  owned := by
    intro id hid
    rcases Std.ExtTreeMap.mem_insert.mp hid with heq | hid
    · exact ⟨r, hr, Std.LawfulEqOrd.eq_of_compare heq⟩
    · exact h.owned id hid
  polled := by
    intro x hx hp
    rw [Std.ExtTreeMap.getElem?_insert]
    split
    · exact ⟨t, rfl⟩
    · exact h.polled x hx hp
  granted := by
    intro x hx t' ht'
    rw [Std.ExtTreeMap.getElem?_insert] at ht'
    split at ht'
    · rename_i heq
      have hxr : r = x :=
        List.inj_on_of_nodup_map hids hr hx (Std.LawfulEqOrd.eq_of_compare heq)
      cases ht'
      exact hxr ▸ ht
    · exact h.granted x hx t' ht'

theorem advance (h : Timetable rules timers) (id : RuleId) (deltaMs : UInt32) :
    Timetable rules (timers.modify id (·.advance deltaMs)) where
  owned := fun x hx => h.owned x (Std.ExtTreeMap.mem_modify.mp hx)
  polled := by
    intro x hx hp
    obtain ⟨t, ht⟩ := h.polled x hx hp
    rw [Std.ExtTreeMap.getElem?_modify]
    split
    · rename_i heq
      rw [Std.LawfulEqOrd.eq_of_compare heq, ht]
      exact ⟨_, rfl⟩
    · exact ⟨t, ht⟩
  granted := by
    intro x hx t ht
    rw [Std.ExtTreeMap.getElem?_modify] at ht
    split at ht
    · rename_i heq
      rw [Std.LawfulEqOrd.eq_of_compare heq] at ht
      obtain ⟨t', ht', rfl⟩ := Option.map_eq_some_iff.mp ht
      exact (h.granted x hx t' ht').advance deltaMs
    · exact h.granted x hx t ht

end Timetable

namespace Script

variable {s : Script} {w : World}

theorem schedulable_of_built {tables : List Table} (h : s.BuiltFrom tables) :
    Schedulable s.rules.rules := by
  rcases h.rules with hnil | hown
  · rw [hnil]
    exact ⟨List.nodup_nil, by simp, by simp⟩
  · rw [h.store] at hown
    exact Store.schedulable_of_find? hown

def Timetabled (s : Script) : Prop := Timetable s.rules.rules s.state.timers

theorem Timetabled.of_eq {t : Script} (h : s.Timetabled) (hrules : t.rules = s.rules)
    (htimers : t.state.timers = s.state.timers) : t.Timetabled := by
  unfold Timetabled
  rw [hrules, htimers]
  exact h

theorem mem_initTimers {rules : List Rule} {s : Script} {id : RuleId}
    (h : id ∈ (initTimers rules s).state.timers) :
    id ∈ s.state.timers ∨ ∃ r ∈ rules, r.id = id := by
  revert h
  unfold initTimers
  apply List.foldlRecOn (motive := fun t : Script =>
    id ∈ t.state.timers → id ∈ s.state.timers ∨ ∃ r ∈ rules, r.id = id)
  · exact .inl
  · intro t ih r hr hid
    unfold initTimer at hid
    split at hid
    · rcases Std.ExtTreeMap.mem_insert.mp hid with heq | hid
      · exact .inr ⟨r, hr, Std.LawfulEqOrd.eq_of_compare heq⟩
      · exact ih hid
    · exact ih (Std.ExtTreeMap.mem_erase.mp hid).2

theorem rules_fresh (owner : Handle) (rules : RuleSet) (store : Store) (config : EngineConfig)
    (rng : Rng) : (fresh owner rules store config rng).rules = rules := by
  unfold fresh
  rw [initTimers_eq]

theorem timetabled_fresh (owner : Handle) {rules : RuleSet} (hrules : Schedulable rules.rules)
    (store : Store) (config : EngineConfig) (rng : Rng) :
    (fresh owner rules store config rng).Timetabled := by
  have hspawn : ∀ r ∈ rules.rules,
      r.SpawnTimer ((fresh owner rules store config rng).timer? r) :=
    fun r hr => spawnTimer_initTimers hrules.distinct hr _
  unfold Timetabled
  rw [rules_fresh]
  constructor
  · intro id hid
    exact (mem_initTimers hid).resolve_left Std.ExtTreeMap.not_mem_empty
  · intro r hr hp
    exact (hspawn r hr).exists_of_polled hp
  · intro r hr t ht
    exact (hspawn r hr).grants (hrules.initial r hr) ht

theorem timetabled_resetState (h : s.Timetabled) (hrules : Schedulable s.rules.rules) :
    s.resetState.Timetabled := by
  have hrestores := restores_resetState hrules.distinct
  unfold Timetabled
  rw [(keeps_resetState s).rules]
  constructor
  · intro id hid
    rcases mem_initTimers hid with hid | ⟨r, hr, hrid⟩
    · exact h.owned id hid
    · exact ⟨r, (List.mem_filter.mp hr).1, hrid⟩
  · intro r hr hp
    cases hsurvives : r.survivesReset with
    | true =>
      obtain ⟨t, ht⟩ := h.polled r hr hp
      exact ⟨t, (hrestores.kept r hr hsurvives).2.trans ht⟩
    | false => exact (hrestores.renewed r hr hsurvives).2.exists_of_polled hp
  · intro r hr t ht
    cases hsurvives : r.survivesReset with
    | true => exact h.granted r hr t ((hrestores.kept r hr hsurvives).2.symm.trans ht)
    | false => exact (hrestores.renewed r hr hsurvives).2.grants (hrules.initial r hr) ht

theorem timetabled_attempt (h : s.Timetabled) (hrules : Schedulable s.rules.rules) {r : Rule}
    (hr : r ∈ s.rules.rules) (o : Occasion) (w : World) : (s.attempt o r w).script.Timetabled := by
  obtain ⟨g, hg⟩ := timers_attempt o r s w
  unfold Timetabled
  rw [(attempts_attempt o r s w).keeps.rules, hg]
  split
  · rename_i hcools
    exact h.insert hrules.distinct hr
      (Rule.grants_cooldown hcools.2 (hrules.cooldown r hr) g _)
  · exact h

theorem timetabled_poll (h : s.Timetabled) (hrules : Schedulable s.rules.rules) {r : Rule}
    (hr : r ∈ s.rules.rules) (deltaMs : UInt32) (inCombat : Bool) (w : World) :
    (s.poll deltaMs inCombat r w).script.Timetabled := by
  have hticked : (s.tickTimer deltaMs r).Timetabled := Timetable.advance h r.id deltaMs
  rcases poll_cases deltaMs inCombat r s w with hpoll | ⟨-, hpoll | ⟨-, o, hpoll⟩⟩
  · rw [hpoll]
    exact h
  · rw [hpoll]
    exact hticked
  · rw [hpoll]
    exact timetabled_attempt hticked hrules hr o w

def KeepsTimetable (s : Script) (_ : World) (p : Progress) : Prop :=
  Schedulable s.rules.rules → s.Timetabled → p.script.Timetabled

theorem keepsTimetable_chains : Chains KeepsTimetable where
  join hk h h' := fun hrules ht => h' (hk.rules ▸ hrules) (h hrules ht)
  aside _ haside := fun _ ht => ht.of_eq haside.keeps.rules (by rw [haside])

theorem keepsTimetable_commitLaw : CommitLaw KeepsTimetable where
  toChains := keepsTimetable_chains
  heard _ _ _ := fun _ ht => ht
  react {s r} w signal _ hr := by
    intro hrules ht
    unfold react
    split
    · exact timetabled_attempt ht hrules hr _ w
    · exact ht
  renewed _ _ := fun hrules ht => timetabled_resetState ht hrules
  settled s _ := fun _ ht => ht.of_eq (keeps_commitState s).rules (lasts_commitState s).timers

theorem keepsTimetable_listLaw : ListLaw KeepsTimetable where
  toChains := keepsTimetable_chains
  resumed _ _ _ _ := fun _ ht => ht
  step {s _ runner} w index _ _ := by
    intro _ ht
    unfold fireStep
    split
    · rename_i r _
      have hfires := fires_fireHead runner.rules { owner := s.owner, invoker := runner.invoker }
        false r s w
      exact ht.of_eq hfires.keeps.rules hfires.keeps.timers
    · exact ht

theorem keepsTimetable_polls {rules : List Rule} (hs : s.Listed)
    (hsub : ∀ r ∈ rules, r ∈ s.rules.rules) (deltaMs : UInt32) (inCombat : Bool) :
    Walks KeepsTimetable s w (inTurn (poll deltaMs inCombat) rules s w) := by
  apply keepsTimetable_chains.walks_inTurn hs
  intro r hr t v hkeeps hl
  obtain ⟨hk, hlists, -⟩ := keeps_poll deltaMs inCombat r t v
  refine ⟨hk.toKeeps, hl.of_eq hlists hk.store, ?_⟩
  intro hrules ht
  exact timetabled_poll ht hrules (hkeeps.rules ▸ hsub r hr) deltaMs inCombat v

theorem keepsTimetable_advancePolled (hs : s.Listed) (deltaMs : UInt32) :
    Walks KeepsTimetable s w (s.advancePolled deltaMs w) :=
  keepsTimetable_chains.walks_join ⟨.refl s, hs, fun _ ht => ht⟩
    (keepsTimetable_polls hs (fun _ hr => hr) deltaMs _)

theorem Commits.timetabled {op : Operation} {p : Progress} (h : Commits s w op p) (hs : s.Listed)
    (hrules : Schedulable s.rules.rules) (ht : s.Timetabled) : p.script.Timetabled := by
  cases h with
  | @advance signal deltaMs _ =>
    have hstages := keepsTimetable_commitLaw.walks_stages (w := w) hs deltaMs signal
      (fun _ _ _ hl => keepsTimetable_advancePolled hl deltaMs)
      (fun _ _ _ hl => keepsTimetable_listLaw.walks_advanceLists hl deltaMs)
    exact hstages.law hrules ht
  | reset => exact (keepsTimetable_commitLaw.walks_startOver (w := w)).law hrules ht
  | @forceFire _ rule _ =>
    have hfires := fires_fireHead s.rules { owner := s.owner } true rule s w
    exact ht.of_eq hfires.keeps.rules hfires.keeps.timers

theorem timetabled_operate (hs : s.Reachable) (hrules : Schedulable s.rules.rules)
    (ht : s.despawned = false → s.Timetabled) {op : Operation}
    (halive : (s.operate w op).script.despawned = false) :
    (s.operate w op).script.Timetabled := by
  cases hd : s.despawned with
  | true =>
    rw [operate_of_despawned hd, hd] at halive
    cases halive
  | false =>
    -- A call that leaves the script alive ends with a commit, if it does anything.
    have hlives : op.endsLife = false := by
      by_contra hends
      have hretired := (retired_operate hs w (by simpa using hends)).despawned
      rw [halive] at hretired
      cases hretired
    rcases commits_of_not_endsLife (w := w) hlives with ⟨p, hcommits⟩ | hidle
    · have hwalks := hcommits.walks hs.sound.listed
      have hp := hcommits.timetabled hs.sound.listed hrules (ht hd)
      rw [hcommits.operate_eq hd]
      exact (keepsTimetable_commitLaw.walks_commit (w := p.world) hwalks.listed).law
        (hwalks.keeps.rules ▸ hrules) hp
    · rw [hidle]
      exact ht hd

theorem Reachable.timetabled (hs : s.Reachable) (hrules : Schedulable s.rules.rules)
    (hd : s.despawned = false) : s.Timetabled := by
  induction hs with
  | fresh owner rules store config rng =>
    rw [rules_fresh] at hrules
    exact timetabled_fresh owner hrules store config rng
  | operate w op hs ih =>
    rw [(sound_operate hs.sound w op).1.rules] at hrules
    exact timetabled_operate hs hrules (ih hrules) hd

/-- A pass until some of the own rules have had their turns. -/
def untilTurn (front : List Rule) (deltaMs : UInt32) (signal : Option Signal) (s : Script)
    (w : World) : Progress :=
  let heard := s.hear deltaMs signal w
  let inCombat := heard.world.inCombat heard.script.owner
  (heard.andThen fun t v =>
    { script := t, world := v, journal := [.polled deltaMs t.state.phase inCombat] }).andThen
      (inTurn (poll deltaMs inCombat) front)

def afterTurn (back : List Rule) (deltaMs : UInt32) (inCombat : Bool) (s : Script) (w : World) :
    Progress :=
  ((inTurn (poll deltaMs inCombat) back s w).andThen (advanceLists deltaMs)).andThen commit

/-- A pass comes to the turn of each own rule. -/
theorem advance_turn (hs : s.Listed) (hd : s.despawned = false) (deltaMs : UInt32)
    {signal : Option Signal} (hsig : signal ≠ some .despawn) (w : World) {front back : List Rule}
    {r : Rule} (hsplit : s.rules.rules = front ++ r :: back) :
    let heard := s.hear deltaMs signal w
    let inCombat := heard.world.inCombat heard.script.owner
    s.advance deltaMs signal w =
      ((s.untilTurn front deltaMs signal w).andThen (poll deltaMs inCombat r)).andThen
        (afterTurn back deltaMs inCombat) := by
  have hhear := (lasts_commitLaw.walks_hear (w := w) hs deltaMs signal).keeps.rules
  have hrules : (s.hear deltaMs signal w).script.rules.rules = front ++ r :: back :=
    (congrArg RuleSet.rules hhear).trans hsplit
  rw [advance_eq hd deltaMs hsig]
  unfold stages untilTurn afterTurn
  generalize s.hear deltaMs signal w = heard at hrules ⊢
  simp only [Progress.andThen_andThen]
  unfold advancePolled
  simp only [Progress.andThen, hrules, inTurn_middle, List.append_assoc, List.cons_append,
    List.nil_append]

theorem timetabled_untilTurn (hs : s.Listed) (hrules : Schedulable s.rules.rules)
    (ht : s.Timetabled) (deltaMs : UInt32) (signal : Option Signal) (w : World) {front : List Rule}
    (hsub : ∀ r ∈ front, r ∈ s.rules.rules) :
    (s.untilTurn front deltaMs signal w).script.rules = s.rules ∧
      (s.untilTurn front deltaMs signal w).script.Timetabled := by
  have hhear := keepsTimetable_commitLaw.walks_hear (w := w) hs deltaMs signal
  have hturns := keepsTimetable_polls (w := (s.hear deltaMs signal w).world) hhear.listed
    (hhear.keeps.rules ▸ hsub) deltaMs
    ((s.hear deltaMs signal w).world.inCombat (s.hear deltaMs signal w).script.owner)
  refine ⟨hturns.keeps.rules.trans hhear.keeps.rules, ?_⟩
  exact hturns.law (hhear.keeps.rules ▸ hrules) (hhear.law hrules ht)

/-- The timers of a live script over a built store follow a timetable of its own rules, between
calls and whenever the turn of a rule comes. So a polled rule always finds its timer in its turn. -/
theorem timers_follow_rules {tables : List Table} (hs : s.Reachable) (hbuilt : s.BuiltFrom tables)
    (hd : s.despawned = false) :
    Timetable s.rules.rules s.state.timers ∧
      ∀ deltaMs signal w, signal ≠ some .despawn →
        ∀ front r back, s.rules.rules = front ++ r :: back →
          let heard := s.hear deltaMs signal w
          let inCombat := heard.world.inCombat heard.script.owner
          let p := s.untilTurn front deltaMs signal w
          s.advance deltaMs signal w =
              (p.andThen (poll deltaMs inCombat r)).andThen (afterTurn back deltaMs inCombat) ∧
            Timetable s.rules.rules p.script.state.timers ∧
            (r.isPolled = true → ∃ t, p.script.state.timers[r.id]? = some t) := by
  have hrules := schedulable_of_built hbuilt
  have ht := hs.timetabled hrules hd
  refine ⟨ht, ?_⟩
  intro deltaMs signal w hsig front r back hsplit heard inCombat p
  have hsub : ∀ x ∈ front, x ∈ s.rules.rules := by
    intro x hx
    rw [hsplit]
    exact List.mem_append_left _ hx
  have hr : r ∈ s.rules.rules := by
    rw [hsplit]
    exact List.mem_append_right _ List.mem_cons_self
  obtain ⟨hkeeps, hmidway⟩ := timetabled_untilTurn hs.sound.listed hrules ht deltaMs signal w hsub
  have htimers : Timetable s.rules.rules p.script.state.timers := hkeeps ▸ hmidway
  exact ⟨advance_turn hs.sound.listed hd deltaMs hsig w hsplit, htimers, htimers.polled r hr⟩

private def gateTables : List Table :=
  [.single 100 0 4 fun row => { row with cooldownMin := some 300, cooldownMax := some 300 },
    .single 100 0 60 fun row =>
      { row with
        id := 2
        eventParams := (row.eventParams.setIfInBounds 0 100).setIfInBounds 1 100 }]

private def gateSet : RuleSet := ((Store.build gateTables).1.find? (.creature 100)).getD default

private def gate : Script := create 1 gateSet (Store.build gateTables).1 {}

private def yard : World := (World.empty.spawn .creature 100 .origin).2

private def opened : Script := (gate.advance 100 (some (.aggro 2)) yard).script

private def greeting : Rule := gateSet.rules.headD default

private def knock : Rule := (gateSet.rules[1]?).getD default

/-- After 100 milliseconds of combat rule 1 rests and rule 2 is exhausted. In the next pass it finds
its timer as it left it. -/
theorem exhausted_rule_finds_timer :
    opened.Reachable ∧ opened.BuiltFrom gateTables ∧ opened.despawned = false ∧
      opened.state.timers.toList =
        [(1, { elapsed := 100, nextFireAt := 300 }), (2, { exhausted := true })] ∧
      Timetable opened.rules.rules opened.state.timers ∧
      opened.rules.rules = [greeting] ++ knock :: [] ∧
      ∃ t, (opened.untilTurn [greeting] 50 none yard).script.state.timers[knock.id]? = some t ∧
        t.exhausted = true := by
  have hreach : gate.Reachable := .fresh 1 gateSet _ {} _
  have hbuilt : gate.BuiltFrom gateTables := builtFrom_create 1 {}
  have hopened : opened.Reachable := hreach.operate yard (.advance 100 (some (.aggro 2)))
  have hkeeps : gate.Keeps opened := (sound_advance hreach.sound yard 100 (some (.aggro 2))).1
  have hbuilt' : opened.BuiltFrom gateTables := hbuilt.of_keeps hkeeps
  have hd : opened.despawned = false := by decide +kernel
  have hsplit : opened.rules.rules = [greeting] ++ knock :: [] := by
    rw [hkeeps.rules]
    decide +kernel
  obtain ⟨htimers, hturns⟩ := timers_follow_rules hopened hbuilt' hd
  obtain ⟨-, -, hfound⟩ := hturns 50 none yard (by simp) [greeting] knock [] hsplit
  obtain ⟨t, ht⟩ := hfound rfl
  have hexhausted : (opened.untilTurn [greeting] 50 none yard).script.state.timers[knock.id]?.all
      (·.exhausted) = true := by decide +kernel
  rw [ht] at hexhausted
  exact ⟨hopened, hbuilt', hd, by decide +kernel, htimers, hsplit, t, ht, hexhausted⟩

end Script

end TriggerScript
