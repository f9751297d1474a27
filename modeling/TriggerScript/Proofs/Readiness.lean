import TriggerScript.Proofs.Cooldowns

/-!
# Readiness

A timer that was set counts the time that passes for its rule exactly, until it is set again. So a
pushed rule that cannot lose its chance is ready again when that time has reached the delay that was
drawn, and not before.
-/

namespace TriggerScript.Script

variable {r : Rule} {d : UInt32}

/-- The timer of the rule counts to `d`, and has counted `ms` milliseconds. -/
def Counting (r : Rule) (d : UInt32) (ms : Nat) (s : Script) : Prop :=
  ∃ t, s.timer? r = some t ∧ t.nextFireAt = d ∧ t.exhausted = false ∧
    t.elapsed.toNat = min ms (UInt32.size - 1)

theorem Counting.of_timer {s t : Script} {ms : Nat} (h : Counting r d ms s)
    (ht : t.timer? r = s.timer? r) : Counting r d ms t := by
  obtain ⟨timer, htimer, hrest⟩ := h
  exact ⟨timer, ht.trans htimer, hrest⟩

theorem Counting.tick {s : Script} {ms : Nat} (h : Counting r d ms s) (deltaMs : UInt32) :
    Counting r d (ms + deltaMs.toNat) (s.tickTimer deltaMs r) := by
  obtain ⟨timer, htimer, hnext, hfresh, helapsed⟩ := h
  refine ⟨timer.advance deltaMs, ?_, hnext, hfresh, ?_⟩
  · rw [timer?_tickTimer_self, htimer]
    rfl
  · change (addSat timer.elapsed deltaMs).toNat = _
    rw [toNat_addSat]
    omega

theorem Counting.isDue_iff {s : Script} {ms : Nat} (h : Counting r d ms s) :
    ∃ t, s.state.timers[r.id]? = some t ∧ (t.isDue = true ↔ d.toNat ≤ ms) := by
  obtain ⟨timer, htimer, rfl, hfresh, helapsed⟩ := h
  refine ⟨timer, htimer, ?_⟩
  have hbound := timer.nextFireAt.toNat_lt
  simp only [Timer.isDue, hfresh, Bool.not_false, Bool.true_and, decide_eq_true_eq, ge_iff_le,
    UInt32.le_iff_toNat_le, helapsed, UInt32.size]
  omega

theorem Counting.isReady_iff {s : Script} {ms : Nat} (h : Counting r d ms s) :
    s.isReady r = true ↔ d.toNat ≤ ms := by
  obtain ⟨t, htimer, hdue⟩ := h.isDue_iff
  unfold isReady
  rw [htimer]
  exact hdue

theorem counting_attempt {s : Script} (ht : Timed r s) {o : Occasion} {w : World}
    (ho : s.outcome o r w = .fired) (hmax : r.isPolled = true → r.spec.cooldownMax ≠ 0) :
    ∃ d, r.spec.cooldownMin ≤ d ∧ d ≤ r.spec.cooldownMax ∧
      Counting r d 0 (s.attempt o r w).script := by
  obtain ⟨t, htimer, hmin, hbounds, helapsed, hexhausted⟩ :=
    timer?_attempt_self ht.starts o s w (by rw [ho]; simp)
  refine ⟨t.nextFireAt, UInt32.le_iff_toNat_le.mpr hmin,
    UInt32.le_iff_toNat_le.mpr (hbounds ht.bounds), t, htimer, rfl, ?_, ?_⟩
  · rw [hexhausted]
    cases hp : r.isPolled with
    | true => simp [hmax hp]
    | false => rfl
  · rw [helapsed]
    rfl

/-- A stretch lets the timer count on while the rule does not fire, and sets it when it fires. -/
structure CountsOn (r : Rule) (s : Script) (p : Progress) : Prop where
  goesOn : ∀ {d ms}, Counting r d ms s → r.Calm p.journal →
    (∀ n, Incident.fired r 0 n ∉ p.journal) → Counting r d (ms + r.clocked p.journal) p.script
  starts : ∀ {before n after}, p.journal = before ++ .fired r 0 n :: after → r.Calm after →
    (∀ m, Incident.fired r 0 m ∉ after) →
    ∃ d, r.spec.cooldownMin ≤ d ∧ d ≤ r.spec.cooldownMax ∧
      Counting r d (r.clocked after) p.script

theorem CountsOn.join {s : Script} {p : Progress} {stage : Script → World → Progress}
    (h : CountsOn r s p) (h' : CountsOn r p.script (stage p.script p.world)) :
    CountsOn r s (p.andThen stage) where
  goesOn := by
    intro d ms hms hcalm hsilent
    obtain ⟨hp, hq⟩ := Rule.calm_append.mp hcalm
    rw [Progress.journal_andThen, Rule.clocked_append, ← Nat.add_assoc]
    apply h'.goesOn (h.goesOn hms hp _) hq
    · exact fun n hn => hsilent n (List.mem_append_right _ hn)
    · exact fun n hn => hsilent n (List.mem_append_left _ hn)
  starts := by
    intro before n after hsplit hcalm hsilent
    rcases split_append hsplit with ⟨after', hp, rfl⟩ | ⟨before', -, hq⟩
    · obtain ⟨hcp, hcq⟩ := Rule.calm_append.mp hcalm
      obtain ⟨d, hmin, hmax, hd⟩ :=
        h.starts hp hcp fun m hm => hsilent m (List.mem_append_left _ hm)
      refine ⟨d, hmin, hmax, ?_⟩
      rw [Rule.clocked_append]
      exact h'.goesOn hd hcq fun m hm => hsilent m (List.mem_append_right _ hm)
    · exact h'.starts hq hcalm hsilent

theorem countsOn_of_silent {s : Script} {p : Progress}
    (hgoes : ∀ d ms, Counting r d ms s → r.Calm p.journal →
      Counting r d (ms + r.clocked p.journal) p.script)
    (hsilent : ∀ n, Incident.fired r 0 n ∉ p.journal) : CountsOn r s p where
  goesOn hms hcalm _ := hgoes _ _ hms hcalm
  starts := by
    intro before n after hsplit
    exact absurd (mem_of_split hsplit) (hsilent n)

theorem Still.countsOn {s : Script} {p : Progress} (h : Still r s p) : CountsOn r s p := by
  apply countsOn_of_silent _ h.silent
  intro d ms hms hcalm
  rw [h.unclocked]
  exact hms.of_timer (h.timer hcalm)

theorem countsOn_chains : Chains fun s _ p => Timed r s → CountsOn r s p where
  join hk h h' := fun ht => (h ht).join (h' (ht.of_keeps hk))
  aside w h := fun ht => (still_chains.aside w h ht).countsOn

theorem countsOn_attempt (hc : 100 ≤ r.spec.chance) (hp : r.isPolled = false) {s : Script}
    (ht : Timed r s) (o : Occasion) (w : World) : CountsOn r s (s.attempt o r w) := by
  have h := attempts_attempt o r s w
  by_cases hv : s.outcome o r w = .vetoed
  · apply Still.countsOn
    refine ⟨?_, ?_, h.unpolled.clocked r⟩
    · intro _
      obtain ⟨g, hg⟩ := timers_attempt o r s w
      rw [if_neg (fun hc => hc.1 hv)] at hg
      unfold timer?
      rw [hg]
    · rw [h.silent (by rw [hv]; simp)]
      simp
  · have ho : s.outcome o r w = .fired := (outcome_of_certain hc o s w).resolve_right hv
    obtain ⟨k, linked, hj, -⟩ := h.journal ho
    constructor
    · intro d ms _ _ hsilent
      apply absurd _ (hsilent k)
      rw [hj]
      exact List.mem_cons_self
    · intro before n after hsplit _ _
      obtain ⟨rfl, -⟩ := split_firing (h.journal ho) hsplit
      obtain ⟨d, hmin, hmax, hd⟩ := counting_attempt ht ho (by simp [hp])
      have hclocked := h.unpolled.clocked r
      rw [hsplit, List.nil_append, Rule.clocked_cons, Nat.add_eq_zero_iff] at hclocked
      rw [hclocked.2]
      exact ⟨d, hmin, hmax, hd⟩

theorem countsOn_commitLaw (hc : 100 ≤ r.spec.chance) (hp : r.isPolled = false) :
    CommitLaw fun s _ p => Timed r s → CountsOn r s p where
  toChains := countsOn_chains
  heard s w signal := fun _ => (still_heard s w signal).countsOn
  react {s x} w signal _ hx := by
    intro ht
    by_cases hxr : x = r
    · subst hxr
      unfold react
      split
      · exact countsOn_attempt hc hp ht _ w
      · exact (still_of_timer w rfl).countsOn
    · exact (still_react ht w signal hx hxr).countsOn
  renewed _ w := fun ht => (still_renewed ht w).countsOn
  settled s w := fun _ => (still_settled s w).countsOn

theorem poll_of_pushed (hp : r.isPolled = false) (deltaMs : UInt32) (inCombat : Bool) (s : Script)
    (w : World) :
    s.poll deltaMs inCombat r w = { script := s.tickTimer deltaMs r, world := w } := by
  unfold poll
  rw [if_pos (by simp [hp])]

theorem silent_advancePolled (hp : r.isPolled = false) {s : Script} (ht : Timed r s)
    (hs : s.Listed) (deltaMs : UInt32) (w : World) (n : Nat) :
    Incident.fired r 0 n ∉ (s.advancePolled deltaMs w).journal := by
  obtain ⟨p, turn, q, h⟩ := around_turn ht hs deltaMs w
  have hturn : turn.journal = [] := by rw [h.taken, poll_of_pushed hp]
  rw [h.whole, hturn]
  simp [h.spared.silent n, h.sparedAfter.silent n]

/-- Time passes for a pushed rule whenever the own rules take their turns. -/
theorem countsOn_advancePolled (hp : r.isPolled = false) {s : Script} (ht : Timed r s)
    (hs : s.Listed) (deltaMs : UInt32) (w : World) :
    CountsOn r s (s.advancePolled deltaMs w) := by
  apply countsOn_of_silent _ (silent_advancePolled hp ht hs deltaMs w)
  obtain ⟨p, turn, q, h⟩ := around_turn ht hs deltaMs w
  have hturn := h.taken
  rw [poll_of_pushed hp] at hturn
  subst hturn
  rw [h.whole]
  intro d ms hms hcalm
  dsimp only at hcalm ⊢
  obtain ⟨hbefore, hafter⟩ := Rule.calm_append.mp hcalm.tail
  have hticked := (hms.of_timer (h.spared.timer hbefore)).tick deltaMs
  have hcredit : r.credit (.polled deltaMs s.state.phase (w.inCombat s.owner)) = deltaMs.toNat :=
    if_pos (by simp [Rule.runsIn, hp])
  rw [Rule.clocked_cons, Rule.clocked_append, List.nil_append, hcredit, h.spared.unclocked,
    h.sparedAfter.unclocked]
  exact hticked.of_timer (h.sparedAfter.timer hafter)

theorem countsOn_advanceLists (hp : r.isPolled = false) {s : Script} (ht : Timed r s)
    (hs : s.Listed) (deltaMs : UInt32) (w : World) :
    CountsOn r s (s.advanceLists deltaMs w) := by
  have huntimed := (untimed_listLaw (r := r)).walks_advanceLists (w := w) hs deltaMs
  have hunpolled := (unpolled_listLaw.walks_advanceLists (w := w) hs deltaMs).law
  have hsilent := (silent_listLaw (ht.pushed hp)).walks_advanceLists (w := w) hs deltaMs
  apply countsOn_of_silent _ (hsilent.law ht)
  intro d ms hms _
  rw [hunpolled.clocked r]
  exact hms.of_timer huntimed.law

theorem countsOn_pass (hc : 100 ≤ r.spec.chance) (hp : r.isPolled = false) {s : Script}
    (ht : Timed r s) (hs : s.Sound) (hd : s.despawned = false) {a : Pass}
    (hsig : a.signal ≠ some .despawn) : CountsOn r s (s.pass a) := by
  have hpass := law_pass (countsOn_commitLaw hc hp) ht hs.listed hd hsig
    (fun t v ht hl => countsOn_advancePolled hp ht hl a.deltaMs v)
    (fun t v ht hl => countsOn_advanceLists hp ht hl a.deltaMs v)
  have htaken : Still r s { script := s.taken, world := a.world } := still_of_timer a.world rfl
  exact @CountsOn.join r s { script := s.taken, world := a.world } (fun _ _ => s.pass a)
    htaken.countsOn hpass

/-- As long as a pushed rule does not fire again, its timer counts the time of all passes. -/
theorem Counting.run (hc : 100 ≤ r.spec.chance) (hp : r.isPolled = false) {s : Script}
    (ht : Timed r s) (hs : s.Sound) {as : List Pass} (halive : (s.run as).1.despawned = false)
    {ms : Nat} (h : Counting r d ms s) (hcalm : r.Calm (s.run as).2)
    (hsilent : ∀ n, Incident.fired r 0 n ∉ (s.run as).2) :
    Counting r d (ms + totalMs as) (s.run as).1 := by
  have hgates : ∀ phase inCombat, r.runsIn phase inCombat = true := by
    intro phase inCombat
    simp [Rule.runsIn, hp]
  rw [← clocked_run hgates hs halive]
  induction as generalizing s ms with
  | nil => exact h
  | cons a as ih =>
    rw [run_cons] at halive hcalm hsilent ⊢
    obtain ⟨hcalm, hcalm'⟩ := Rule.calm_append.mp hcalm
    have hsound := hs.pass a
    obtain ⟨hd, hsig⟩ := ordinary_of_alive hs.listed (alive_of_run halive)
    have hpass := (countsOn_pass hc hp ht hs hd hsig).goesOn h hcalm
      fun n hn => hsilent n (List.mem_append_left _ hn)
    rw [Rule.clocked_append, ← Nat.add_assoc]
    exact ih (ht.of_keeps hsound.1) hsound.2 halive hpass hcalm'
      fun n hn => hsilent n (List.mem_append_right _ hn)

/-- When a pushed rule fires, a delay within its bounds is drawn; the rule is ready again exactly
when that much time has passed since. -/
theorem ready_iff_delay_over (hc : 100 ≤ r.spec.chance) (hp : r.isPolled = false) {s : Script}
    (ht : Timed r s) (hs : s.Sound) {a : Pass} {x after : List Incident} {n : Nat}
    (hsplit : (s.pass a).journal = x ++ .fired r 0 n :: after) (hcalm : r.Calm after)
    (hsilent : ∀ m, Incident.fired r 0 m ∉ after) :
    ∃ d : UInt32, r.spec.cooldownMin ≤ d ∧ d ≤ r.spec.cooldownMax ∧
      ∀ between, let mid := (s.pass a).script.run between
        mid.1.despawned = false → r.Calm mid.2 → (∀ m, Incident.fired r 0 m ∉ mid.2) →
        (mid.1.isReady r = true ↔ d.toNat ≤ r.clocked after + totalMs between) := by
  by_cases halive : (s.pass a).script.despawned = false
  · obtain ⟨hd, hsig⟩ := ordinary_of_alive hs.listed halive
    obtain ⟨d, hmin, hmax, hcounting⟩ :=
      (countsOn_pass hc hp ht hs hd hsig).starts hsplit hcalm hsilent
    refine ⟨d, hmin, hmax, ?_⟩
    intro between mid hmid hcalm' hsilent'
    have hsound := hs.pass a
    exact (hcounting.run hc hp (ht.of_keeps hsound.1) hsound.2 hmid hcalm' hsilent').isReady_iff
  · refine ⟨r.spec.cooldownMin, UInt32.le_refl _, ht.bounds, ?_⟩
    intro between mid hmid
    exact absurd (alive_of_run hmid) halive

end TriggerScript.Script
