import TriggerScript.Proofs.Calls

/-!
# Direct triggers

Only a direct trigger touches the cooldown of a rule. A rule that is forced, or that fires through
the links of other rules, leaves its timer; in a pass time may pass for it, and no more. Timers are
kept by the numbers of rules, so a rule that shares its number shares its timer, too.
-/

namespace TriggerScript.Script

variable {r : Rule} {s : Script} {w : World}

/-- Forcing a rule leaves its timer and those of all rules that it links to. -/
theorem timers_forceFire {id : RuleId} {p : Progress} (h : s.forceFire? id w = some p)
    (hreset : Incident.reset ∉ p.journal) : p.script.state.timers = s.state.timers := by
  obtain ⟨rule, -, rfl⟩ := Option.map_eq_some_iff.mp h
  by_cases hd : s.despawned = true
  · rw [if_pos hd]
  · rw [if_neg hd] at hreset ⊢
    rw [Progress.journal_andThen, List.mem_append, not_or] at hreset
    rw [Progress.script_andThen, commit_of_not_reset hreset.2]
    have hfires := fires_fireHead s.rules { owner := s.owner } true rule s w
    exact (lasts_commitState _).timers.trans hfires.keeps.timers

/-- No reset, and no record of the rule but through links. -/
def Untriggered (r : Rule) (js : List Incident) : Prop :=
  Incident.reset ∉ js ∧ ∀ n, Incident.fired r 0 n ∉ js

theorem untriggered_append {js ks : List Incident} :
    Untriggered r (js ++ ks) ↔ Untriggered r js ∧ Untriggered r ks := by
  unfold Untriggered
  simp only [List.mem_append, not_or, forall_and]
  tauto

theorem Untriggered.tail {i : Incident} {js : List Incident} (h : Untriggered r (i :: js)) :
    Untriggered r js :=
  (untriggered_append.mp (List.singleton_append ▸ h)).2

structure Certain (r : Rule) (s : Script) : Prop where
  mem : r ∈ s.rules.rules
  alone : (s.rules.rules.map (·.id)).count r.id = 1
  chance : 100 ≤ r.spec.chance

theorem Certain.of_keeps {t : Script} (h : Certain r s) (hk : s.Keeps t) : Certain r t where
  mem := hk.rules ▸ h.mem
  alone := hk.rules ▸ h.alone
  chance := h.chance

theorem Certain.exists_split (h : Certain r s) :
    ∃ front back, s.rules.rules = front ++ r :: back ∧ ∀ x ∈ front ++ back, x.id ≠ r.id := by
  obtain ⟨front, back, hsplit⟩ := List.append_of_mem h.mem
  refine ⟨front, back, hsplit, fun x hx hid => ?_⟩
  have hcount := h.alone
  rw [hsplit, List.perm_middle.map _ |>.count_eq, List.map_cons, List.count_cons_self,
    Nat.add_eq_right, List.count_eq_zero] at hcount
  exact hcount (hid ▸ List.mem_map_of_mem hx)

theorem Certain.id_ne (h : Certain r s) {x : Rule} (hx : x ∈ s.rules.rules) (hne : x ≠ r) :
    x.id ≠ r.id := by
  obtain ⟨front, back, hsplit, hothers⟩ := h.exists_split
  rw [hsplit, List.perm_middle.mem_iff, List.mem_cons] at hx
  exact hothers x (hx.resolve_left hne)

/-- The stretch leaves the timer of the rule if it does not trigger the rule. -/
def Spares (r : Rule) (s : Script) (p : Progress) : Prop :=
  Untriggered r p.journal → p.script.timer? r = s.timer? r

theorem Spares.join {p : Progress} {stage : Script → World → Progress} (h : Spares r s p)
    (h' : Spares r p.script (stage p.script p.world)) : Spares r s (p.andThen stage) := by
  intro hj
  obtain ⟨hp, hq⟩ := untriggered_append.mp hj
  exact (h' hq).trans (h hp)

theorem spares_attempt (hc : 100 ≤ r.spec.chance) (o : Occasion) (s : Script) (w : World) :
    Spares r s (s.attempt o r w) := by
  intro hj
  rcases outcome_of_certain hc o s w with ho | ho
  · obtain ⟨n, linked, hfirst, -⟩ := (attempts_attempt o r s w).journal ho
    rw [hfirst] at hj
    exact absurd List.mem_cons_self (hj.2 n)
  · obtain ⟨g, hg⟩ := timers_attempt o r s w
    unfold timer?
    rw [hg, if_neg (fun hcools => hcools.1 ho)]

theorem spares_chains : Chains fun s _ p => Certain r s → Spares r s p where
  join hk h h' := fun hr => (h hr).join (h' (hr.of_keeps hk))
  aside _ haside := fun _ _ => timer?_aside haside

theorem spares_commitLaw : CommitLaw fun s _ p => Certain r s → Spares r s p where
  toChains := spares_chains
  heard _ _ _ := fun _ _ => rfl
  react {s x} w signal _ hx := by
    intro hr
    unfold react
    split
    · by_cases hxr : x = r
      · subst hxr
        exact spares_attempt hr.chance _ s w
      · exact fun _ => timer?_attempt_of_ne (hr.id_ne hx hxr) _ s w
    · exact fun _ => rfl
  renewed _ _ := fun _ hj => absurd List.mem_cons_self hj.1
  settled s w := fun _ _ => (still_settled s w).timer (.inr List.not_mem_nil)

/-- Time may have passed for the timer of the rule once. -/
def Elapses (r : Rule) (deltaMs : UInt32) (s t : Script) : Prop :=
  t.timer? r = s.timer? r ∨ t.timer? r = (s.timer? r).map (·.advance deltaMs)

theorem elapses_poll (hc : 100 ≤ r.spec.chance) {deltaMs : UInt32} {inCombat : Bool}
    (hj : Untriggered r (s.poll deltaMs inCombat r w).journal) :
    Elapses r deltaMs s (s.poll deltaMs inCombat r w).script := by
  have hticked := timer?_tickTimer_self (r := r) deltaMs s
  rcases poll_cases deltaMs inCombat r s w with hpoll | ⟨-, hpoll | ⟨-, o, hpoll⟩⟩
  · rw [hpoll]
    exact .inl rfl
  · rw [hpoll]
    exact .inr hticked
  · rw [hpoll] at hj ⊢
    exact .inr ((spares_attempt hc o _ w hj).trans hticked)

theorem timer?_poll_of_ne {x : Rule} (hne : x.id ≠ r.id) (deltaMs : UInt32) (inCombat : Bool)
    (s : Script) (w : World) : (s.poll deltaMs inCombat x w).script.timer? r = s.timer? r := by
  have hticked := timer?_tickTimer_of_ne hne deltaMs s
  rcases poll_cases deltaMs inCombat x s w with hpoll | ⟨-, hpoll | ⟨-, o, hpoll⟩⟩
  · rw [hpoll]
  · rw [hpoll]
    exact hticked
  · rw [hpoll]
    exact (timer?_attempt_of_ne hne o _ w).trans hticked

theorem timer?_polls_of_ne {rules : List Rule} (hne : ∀ x ∈ rules, x.id ≠ r.id)
    (deltaMs : UInt32) (inCombat : Bool) (s : Script) (w : World) :
    (inTurn (poll deltaMs inCombat) rules s w).script.timer? r = s.timer? r := by
  induction rules generalizing s w with
  | nil => rfl
  | cons x rules ih =>
    rw [inTurn_cons, Progress.script_andThen, ih fun y hy => hne y (List.mem_cons_of_mem x hy)]
    exact timer?_poll_of_ne (hne x List.mem_cons_self) deltaMs inCombat s w

theorem elapses_advancePolled (hr : Certain r s) {deltaMs : UInt32}
    (hj : Untriggered r (s.advancePolled deltaMs w).journal) :
    Elapses r deltaMs s (s.advancePolled deltaMs w).script := by
  -- The turns of the rules before and after it leave the timer; its own turn lets time pass.
  obtain ⟨front, back, hsplit, hne⟩ := hr.exists_split
  rw [journal_advancePolled] at hj
  have hturns := hj.tail
  unfold advancePolled
  rw [hsplit, inTurn_middle] at hturns
  rw [hsplit, Progress.script_andThen]
  dsimp only
  rw [inTurn_middle, Progress.script_andThen, Progress.script_andThen]
  have hbefore := timer?_polls_of_ne (fun x hx => hne x (List.mem_append_left _ hx)) deltaMs
    (w.inCombat s.owner) s w
  generalize inTurn (poll deltaMs (w.inCombat s.owner)) front s w = p at hturns hbefore ⊢
  have hturn := (untriggered_append.mp (untriggered_append.mp hturns).2).1
  have hafter := timer?_polls_of_ne (fun x hx => hne x (List.mem_append_right _ hx)) deltaMs
    (w.inCombat s.owner) (p.script.poll deltaMs (w.inCombat s.owner) r p.world).script
    (p.script.poll deltaMs (w.inCombat s.owner) r p.world).world
  unfold Elapses
  rw [hafter, ← hbefore]
  exact elapses_poll hr.chance hturn

/-- In a pass without reset and despawn a rule that does not fire directly has time pass for its
timer at most. -/
theorem elapses_advance (hs : s.Sound) (hr : Certain r s) {deltaMs : UInt32}
    {signal : Option Signal} (hcalm : Undisturbed (s.advance deltaMs signal w).journal)
    (hsilent : ∀ n, Incident.fired r 0 n ∉ (s.advance deltaMs signal w).journal) :
    Elapses r deltaMs s (s.advance deltaMs signal w).script := by
  cases hd : s.despawned with
  | true =>
    rw [advance_of_despawned hd]
    exact .inl rfl
  | false =>
    have hsig : signal ≠ some .despawn := by
      rintro rfl
      exact hcalm.2 (endsLife_advance hs.listed hd deltaMs w).noted
    obtain ⟨heard, polled, listed, committed, hc⟩ :=
      course_pass hs hd (a := { world := w, deltaMs, signal }) hsig
    have hj : Untriggered r (s.pass { world := w, deltaMs, signal }).journal :=
      ⟨hcalm.1, hsilent⟩
    rw [hc.journal, untriggered_append, untriggered_append, untriggered_append] at hj
    obtain ⟨hjheard, hjpolled, -, hjcommitted⟩ := hj
    have htaken := hr.of_keeps (keeps_taken s)
    have hrheard := htaken.of_keeps hc.afterHearing.keeps
    have hrlisted := (hrheard.of_keeps hc.afterPolling.keeps).of_keeps hc.afterLists.keeps
    have hheard : heard.script.timer? r = s.timer? r := by
      rw [hc.hear] at hjheard ⊢
      exact (spares_commitLaw.walks_hear hs.listed deltaMs signal).law htaken hjheard
    have hpolled : Elapses r deltaMs heard.script polled.script := by
      rw [hc.poll] at hjpolled ⊢
      exact elapses_advancePolled hrheard hjpolled
    have hlisted : listed.script.timer? r = polled.script.timer? r := by
      rw [hc.list]
      exact (untimed_listLaw.walks_advanceLists hc.afterPolling.listed deltaMs).law
    have hcommitted : committed.script.timer? r = listed.script.timer? r := by
      rw [hc.commit] at hjcommitted ⊢
      exact (spares_commitLaw.walks_commit hc.afterLists.listed).law hrlisted hjcommitted
    have hscript : (s.advance deltaMs signal w).script = committed.script := hc.script
    unfold Elapses at hpolled ⊢
    rw [hscript, hcommitted, hlisted, ← hheard]
    exact hpolled

/-- Only a direct trigger touches the cooldown of a rule. Forcing a rule without a reset leaves all
timers. In a pass without reset and despawn the timer of a rule that has its number for itself,
cannot lose its chance and does not fire directly stays or has the time of the pass added, however
often the rule fires through links. -/
theorem only_direct_triggers_touch_timers (hs : s.Reachable) :
    (∀ id w p, s.forceFire? id w = some p → Incident.reset ∉ p.journal →
      p.script.state.timers = s.state.timers) ∧
    ∀ deltaMs signal w,
      let p := s.advance deltaMs signal w
      Undisturbed p.journal →
        ∀ r ∈ s.rules.rules, (s.rules.rules.map (·.id)).count r.id = 1 → 100 ≤ r.spec.chance →
          (∀ n, Incident.fired r 0 n ∉ p.journal) →
          p.script.state.timers[r.id]? = s.state.timers[r.id]? ∨
            p.script.state.timers[r.id]? = s.state.timers[r.id]?.map (·.advance deltaMs) := by
  refine ⟨fun id w p h hreset => timers_forceFire h hreset, ?_⟩
  intro deltaMs signal w p hcalm r hr halone hc hsilent
  exact elapses_advance hs.sound ⟨hr, halone, hc⟩ hcalm hsilent

private def relayTables : List Table :=
  [.single 100 0 4 fun row => { row with linkTo := some 2 },
    .single 100 0 7 fun row =>
      { row with id := 2, cooldownMin := some 500, cooldownMax := some 500 }]

private def relaySet : RuleSet := ((Store.build relayTables).1.find? (.creature 100)).getD default

private def relaying : Rule := relaySet.rules.headD default

private def relayed : Rule := relaySet.rules[1]?.getD default

private def relay : Script :=
  ((create 1 relaySet (Store.build relayTables).1 {}).advance 0 (some .evade) .empty).script

private def forced : Progress := relay.operate .empty (.forceFire 2)

/-- Rule 2 rests. Forced it fires nevertheless, and no timer changes. In the next pass it fires
through the link of rule 1, and its timer goes on by the 100 milliseconds of the pass. -/
theorem linked_rule_keeps_resting :
    relay.Reachable ∧ (relay.rules.rules.map (·.id)).count relayed.id = 1 ∧
      relayed ∈ relay.rules.rules ∧ relayed.spec.chance = 100 ∧
      relay.state.timers[relayed.id]? = some { nextFireAt := 500 } ∧
      relay.forceFire? 2 .empty = some forced ∧ forced.journal = [.fired relayed 0 0] ∧
      forced.script.state.timers = relay.state.timers ∧
      Incident.fired relayed 1 0 ∈ (relay.advance 100 (some (.aggro 2)) .empty).journal ∧
      (relay.advance 100 (some (.aggro 2)) .empty).script.state.timers[relayed.id]? =
        some { elapsed := 100, nextFireAt := 500 } := by
  have hreach : relay.Reachable := .operate .empty (.advance 0 (some .evade)) (.fresh 1 _ _ {} _)
  have halone : (relay.rules.rules.map (·.id)).count relayed.id = 1 := by decide +kernel
  have hmem : relayed ∈ relay.rules.rules := by decide +kernel
  have htimer : relay.state.timers[relayed.id]? = some { nextFireAt := 500 } := by decide +kernel
  have hforce : relay.forceFire? 2 .empty = some forced := rfl
  have hforced : forced.journal = [.fired relayed 0 0] := by decide +kernel
  have hjournal : (relay.advance 100 (some (.aggro 2)) .empty).journal =
      [.heard (.aggro 2), .fired relaying 0 0, .fired relayed 1 0, .polled 100 .empty false] := by
    decide +kernel
  have hne : relayed ≠ relaying := by decide +kernel
  have hchanged : (relay.advance 100 (some (.aggro 2)) .empty).script.state.timers[relayed.id]? ≠
      relay.state.timers[relayed.id]? := by decide +kernel
  obtain ⟨hforces, hpasses⟩ := only_direct_triggers_touch_timers hreach
  have hpass := hpasses 100 (some (.aggro 2)) .empty (by rw [hjournal]; simp [Undisturbed])
    relayed hmem halone (by decide +kernel) (by rw [hjournal]; simp [hne])
  have hgoes := hpass.resolve_left hchanged
  rw [htimer] at hgoes
  refine ⟨hreach, halone, hmem, by decide +kernel, htimer, hforce, hforced, ?_, ?_, hgoes⟩
  · exact hforces 2 .empty forced hforce (by rw [hforced]; simp)
  · rw [hjournal]
    simp

private def twinRule (chance : UInt8) (cooldown : UInt32) : Rule where
  link := .creature 100
  id := 1
  spec :=
    { event := .aggro, phase := .always, flags := .none, chance, cooldownMin := cooldown
      cooldownMax := cooldown }
  actions := []
  target := { target := .none }
  linkTo := none
  comment := ""

private def luckless : Rule := twinRule 0 500

private def sure : Rule := twinRule 100 0

private def twins : Script :=
  fresh 1 { link := .creature 100, rules := [luckless, sure] } ∅ {} { key := .replicate 8 0 }

private def twinsRoused : Progress := twins.advance 0 (some (.aggro 2)) .empty

/-- Two rules have number 1. The first loses its chance and rests; so the second does, which had no
timer, and neither of them fires. -/
theorem rule_rests_for_its_namesake :
    (¬∀ s : Script, s.Reachable → ∀ deltaMs signal w,
      let p := s.advance deltaMs signal w
      Undisturbed p.journal →
        ∀ r ∈ s.rules.rules, 100 ≤ r.spec.chance → (∀ n, Incident.fired r 0 n ∉ p.journal) →
          p.script.state.timers[r.id]? = s.state.timers[r.id]? ∨
            p.script.state.timers[r.id]? = s.state.timers[r.id]?.map (·.advance deltaMs)) ∧
      twins.Reachable ∧ twinsRoused.journal = [.heard (.aggro 2), .polled 0 .empty false] ∧
      sure ∈ twins.rules.rules ∧ sure.spec.chance = 100 ∧
      twins.state.timers[sure.id]? = none ∧
      twinsRoused.script.state.timers[sure.id]? = some { nextFireAt := 500 } := by
  have hreach : twins.Reachable := .fresh 1 _ ∅ {} _
  have hjournal : twinsRoused.journal = [.heard (.aggro 2), .polled 0 .empty false] := by
    decide +kernel
  have hmem : sure ∈ twins.rules.rules := by decide +kernel
  have hbefore : twins.state.timers[sure.id]? = none := by decide +kernel
  have hafter : twinsRoused.script.state.timers[sure.id]? = some { nextFireAt := 500 } := by
    decide +kernel
  refine ⟨fun hclaim => ?_, hreach, hjournal, hmem, rfl, hbefore, hafter⟩
  have htimer := hclaim twins hreach 0 (some (.aggro 2)) .empty
    (by change Undisturbed twinsRoused.journal; rw [hjournal]; simp [Undisturbed]) sure hmem
    (by decide +kernel) (by change ∀ n, _ ∉ twinsRoused.journal; rw [hjournal]; simp)
  change twinsRoused.script.state.timers[sure.id]? = _ ∨
    twinsRoused.script.state.timers[sure.id]? = _ at htimer
  rw [hbefore, hafter] at htimer
  simp at htimer

end TriggerScript.Script
