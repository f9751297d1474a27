import TriggerScript.Proofs.Readiness

/-!
# Cooldowns of pushed rules

A pushed rule fires when signals are handled, before the own rules take their turns and time passes
for its timer. So the delta of the pass in which it fires counts for its cooldown, and that of the
pass in which it fires again does not.
-/

namespace TriggerScript

namespace Script

variable {r : Rule}

theorem journal_commit (s : Script) (w : World) :
    (s.commit w).journal = [] ∨ ∃ rest, (s.commit w).journal = .reset :: rest := by
  unfold commit
  split
  · exact .inr ⟨_, rfl⟩
  · exact .inl rfl

/-- Before a pushed rule fires in a pass, the own rules have not taken their turns since the pass
began or since the last reset. -/
theorem unpolled_before_fired (hp : r.isPolled = false) {s : Script} (ht : Timed r s)
    (hs : s.Sound) (a : Pass) {before after : List Incident} {n : Nat}
    (hsplit : (s.pass a).journal = before ++ .fired r 0 n :: after) :
    Unpolled before ∨ ∃ front back, before = front ++ .reset :: back ∧ Unpolled back := by
  by_cases h : s.despawned = true ∨ a.signal = some .despawn
  · have hpass := unpolled_pass hs h
    rw [hsplit] at hpass
    exact .inl hpass.left
  · rw [not_or, Bool.not_eq_true] at h
    obtain ⟨heard, polled, listed, committed, hc⟩ := course_pass hs h.1 h.2
    obtain ⟨hheard, hlater, -⟩ := hc.unpolled hs
    have htp := (ht.of_keeps (keeps_taken s)).of_keeps hc.afterHearing.keeps
    have htl := htp.of_keeps hc.afterPolling.keeps
    rw [hc.journal] at hsplit
    -- The rule fired in one of the stages: when signals were heard, or by a reset in the commit.
    rcases split_append hsplit with ⟨after', hj, -⟩ | ⟨later, rfl, hlaterSplit⟩
    · rw [hj] at hheard
      exact .inl hheard.left
    · rcases split_append hlaterSplit with ⟨after', hj, -⟩ | ⟨last, rfl, hlastSplit⟩
      · apply absurd _ (silent_advancePolled hp htp hc.afterHearing.listed a.deltaMs
          heard.world n)
        rw [← hc.poll, hj]
        exact List.mem_append_right _ List.mem_cons_self
      · rcases split_append hlastSplit with ⟨after', hj, -⟩ | ⟨reacting, rfl, hj⟩
        · have hlist := ((silent_listLaw (ht.pushed hp)).walks_advanceLists (w := polled.world)
            hc.afterPolling.listed a.deltaMs).law htl n
          apply absurd _ hlist
          rw [← hc.list, hj]
          exact List.mem_append_right _ List.mem_cons_self
        · rw [hj] at hlater
          have hcommit := journal_commit listed.script listed.world
          rw [← hc.commit, hj] at hcommit
          cases reacting with
          | nil => simp at hcommit
          | cons i back =>
            obtain ⟨rest, hcons⟩ := hcommit.resolve_left (by simp)
            rw [List.cons_append, List.cons.injEq] at hcons
            obtain ⟨rfl, -⟩ := hcons
            refine .inr ⟨heard.journal ++ (polled.journal ++ listed.journal), back, ?_, ?_⟩
            · simp only [List.append_assoc]
            · have hback := hlater.right.left
              intro d ph c hm
              exact hback d ph c (List.mem_cons_of_mem _ hm)

theorem Timed.counts {s : Script} (ht : Timed r s) (hp : r.isPolled = false)
    (before : List Incident) : r.Counts before :=
  fun hlink => absurd hlink (ht.pushed hp)

theorem cools_of_pos (hmin : 0 < r.spec.cooldownMin)
    (hbounds : r.spec.cooldownMin ≤ r.spec.cooldownMax) : cools r = true := by
  have hmax : 0 < r.spec.cooldownMax := UInt32.lt_of_lt_of_le hmin hbounds
  simp [cools, hmax]

theorem timed_of_pos {tables : List Table} {s : Script} (hstore : s.store = (Store.build tables).1)
    (hown : s.store.find? s.rules.link = some s.rules) (hr : r ∈ s.rules.rules)
    (hmin : 0 < r.spec.cooldownMin) : Timed r s := by
  apply timed_of_built hstore hown hr
  rw [hstore] at hown
  exact cools_of_pos hmin ((Store.built_of_find? hown).decoded r hr).cooldown

theorem not_mem_reset_cons {x l : List Incident} {n : Nat} {front back : List Incident}
    (h : x ++ .fired r 0 n :: l = front ++ .reset :: back) (hl : Incident.reset ∉ l) :
    ∃ pre, back = pre ++ l := by
  rcases split_append h with ⟨after', -, hback⟩ | ⟨before', -, hrest⟩
  · exact ⟨after' ++ [.fired r 0 n], by rw [hback]; simp⟩
  · cases before' with
    | nil => simp at hrest
    | cons i before' =>
      rw [List.cons_append, List.cons.injEq] at hrest
      exact absurd (hrest.2 ▸ List.mem_append_right _ List.mem_cons_self) hl

theorem rested_in_pass (hp : r.isPolled = false) {s : Script} (ht : Timed r s) (hs : s.Sound)
    (a : Pass) {x l y : List Incident} {n m : Nat}
    (hsplit : (s.pass a).journal = x ++ .fired r 0 n :: (l ++ .fired r 0 m :: y))
    (hcalm : r.Calm l) : r.spec.cooldownMin.toNat ≤ r.clocked l := by
  have hrun : (s.run [a]).2 = x ++ .fired r 0 n :: (l ++ .fired r 0 m :: y) := by
    rw [run_cons, hsplit]
    exact List.append_nil _
  exact (rested_between ht hs [a] hrun (ht.counts hp _) (ht.counts hp _) hcalm).1

/-- A pushed rule that fires twice in a pass was reached by a reset in between. -/
theorem reset_between_fired (hp : r.isPolled = false) {s : Script} (ht : Timed r s) (hs : s.Sound)
    (hmin : 0 < r.spec.cooldownMin) (a : Pass) {x l y : List Incident} {n m : Nat}
    (hsplit : (s.pass a).journal = x ++ .fired r 0 n :: (l ++ .fired r 0 m :: y)) :
    Incident.reset ∈ l := by
  apply Classical.byContradiction
  intro hreset
  have hle := rested_in_pass hp ht hs a hsplit (.inr hreset)
  have hlast : (s.pass a).journal = (x ++ .fired r 0 n :: l) ++ .fired r 0 m :: y := by
    rw [hsplit]
    simp
  have hunpolled : Unpolled l := by
    rcases unpolled_before_fired hp ht hs a hlast with h | ⟨front, back, hbefore, h⟩
    · intro d ph c hm
      exact h.right d ph c (List.mem_cons_of_mem _ hm)
    · obtain ⟨pre, rfl⟩ := not_mem_reset_cons hbefore hreset
      exact h.right
  have hpos := UInt32.lt_iff_toNat_lt.mp hmin
  rw [hunpolled.clocked r] at hle
  rw [UInt32.toNat_zero] at hpos
  omega

/-- So it is between two places of different passes. -/
theorem rested_over_passes (hp : r.isPolled = false) {s : Script} (ht : Timed r s) (hs : s.Sound)
    {a b : Pass} {between : List Pass} {x after before y : List Incident} {n m : Nat}
    (hfirst : (s.pass a).journal = x ++ .fired r 0 n :: after)
    (hlast : (((s.pass a).script.run between).1.pass b).journal = before ++ .fired r 0 m :: y)
    (hcalm : r.Calm (after ++ (((s.pass a).script.run between).2 ++ before))) :
    r.spec.cooldownMin.toNat ≤
      r.clocked (after ++ (((s.pass a).script.run between).2 ++ before)) := by
  have hrun : (s.run (a :: (between ++ [b]))).2 =
      x ++ .fired r 0 n :: (after ++ (((s.pass a).script.run between).2 ++ before) ++
        .fired r 0 m :: y) := by
    rw [run_cons, run_append, hfirst, run_cons, hlast]
    simp [run, calls]
  exact (rested_between ht hs _ hrun (ht.counts hp _) (ht.counts hp _) hcalm).1

theorem clocked_over_passes (hp : r.isPolled = false) {s : Script} (ht : Timed r s) (hs : s.Sound)
    {a b : Pass} {between : List Pass} {x after before y : List Incident} {n m : Nat}
    (hfirst : (s.pass a).journal = x ++ .fired r 0 n :: after)
    (hlast : (((s.pass a).script.run between).1.pass b).journal = before ++ .fired r 0 m :: y)
    (hreset : Incident.reset ∉ before) :
    r.clocked (after ++ (((s.pass a).script.run between).2 ++ before)) ≤
      a.deltaMs.toNat + totalMs between := by
  have hpass := hs.pass a
  have hmid := hpass.2.run between
  have ht' := (ht.of_keeps hpass.1).of_keeps hmid.1
  have hunpolled : Unpolled before := by
    rcases unpolled_before_fired hp ht' hmid.2 b hlast with h | ⟨front, back, rfl, -⟩
    · exact h
    · simp at hreset
  have hfirstLe := clocked_pass_le hs a r
  have hmidLe := clocked_run_le hpass.2 between r
  rw [hfirst] at hfirstLe
  simp only [Rule.clocked_append, Rule.clocked_cons, hunpolled.clocked] at hfirstLe ⊢
  omega

theorem clocked_after_fired (hp : r.isPolled = false) {s : Script} (ht : Timed r s) (hs : s.Sound)
    {a : Pass} {x after : List Incident} {n : Nat}
    (hsplit : (s.pass a).journal = x ++ .fired r 0 n :: after) (hreset : Incident.reset ∉ x)
    (halive : (s.pass a).script.despawned = false) : r.clocked after = a.deltaMs.toNat := by
  obtain ⟨hd, hsig⟩ := ordinary_of_alive hs.listed halive
  obtain ⟨phase, inCombat, hclocked⟩ := clocked_pass (r := r) hs hd hsig
  have hcredit : r.credit (.polled a.deltaMs phase inCombat) = a.deltaMs.toNat :=
    if_pos (by simp [Rule.runsIn, hp])
  have hx : r.clocked x = 0 := by
    rcases unpolled_before_fired hp ht hs a hsplit with h | ⟨front, back, rfl, -⟩
    · exact h.clocked r
    · simp at hreset
  have hfired : r.credit (.fired r 0 n) = 0 := rfl
  rw [hsplit, hcredit, Rule.clocked_append, Rule.clocked_cons, hx, hfired] at hclocked
  omega

/-- The cooldown of a pushed rule with a lower bound counts the time of the passes from the one in
which the rule fired up to, and without, the one in which it fires again. That is exactly what the
rule waits for, when it cannot lose its chance in between. -/
theorem pushed_rule_rests {tables : List Table} {s : Script} (hs : s.Reachable)
    (hstore : s.store = (Store.build tables).1)
    (hown : s.store.find? s.rules.link = some s.rules) (hr : r ∈ s.rules.rules)
    (hp : r.isPolled = false) (hmin : 0 < r.spec.cooldownMin) :
    (∀ a x n l m y, (s.pass a).journal = x ++ .fired r 0 n :: (l ++ .fired r 0 m :: y) →
      Incident.reset ∈ l ∧
        (r.survivesReset = true → r.spec.cooldownMin.toNat ≤ a.deltaMs.toNat)) ∧
    (∀ a between b x n after before m y,
      (s.pass a).journal = x ++ .fired r 0 n :: after →
      (((s.pass a).script.run between).1.pass b).journal = before ++ .fired r 0 m :: y →
      let l := after ++ (((s.pass a).script.run between).2 ++ before)
      (Incident.reset ∉ l ∨ r.survivesReset = true →
        r.spec.cooldownMin.toNat ≤ r.clocked l) ∧
      (Incident.reset ∉ l →
        r.spec.cooldownMin.toNat ≤ a.deltaMs.toNat + totalMs between ∧
        (a.deltaMs ≤ b.deltaMs →
          r.spec.cooldownMin.toNat ≤ totalMs between + b.deltaMs.toNat))) ∧
    (100 ≤ r.spec.chance → ∀ a x n after, (s.pass a).journal = x ++ .fired r 0 n :: after →
      Incident.reset ∉ x → r.Calm after → (∀ m, Incident.fired r 0 m ∉ after) →
      ∃ d : UInt32, r.spec.cooldownMin ≤ d ∧ d ≤ r.spec.cooldownMax ∧
        ∀ between, let mid := (s.pass a).script.run between
          mid.1.despawned = false → r.Calm mid.2 → (∀ m, Incident.fired r 0 m ∉ mid.2) →
          (mid.1.isReady r = true ↔ d.toNat ≤ a.deltaMs.toNat + totalMs between)) := by
  have ht := timed_of_pos hstore hown hr hmin
  have hsound := hs.sound
  refine ⟨?_, ?_, ?_⟩
  · intro a x n l m y hsplit
    refine ⟨reset_between_fired hp ht hsound hmin a hsplit, ?_⟩
    intro hsurvives
    have hrested := rested_in_pass hp ht hsound a hsplit (.inl hsurvives)
    have hle := clocked_pass_le hsound a r
    rw [hsplit] at hle
    simp only [Rule.clocked_append, Rule.clocked_cons] at hle
    omega
  · intro a between b x n after before m y hfirst hlast
    dsimp only
    refine ⟨fun h => rested_over_passes hp ht hsound hfirst hlast h.symm, ?_⟩
    intro hreset
    have hrested := rested_over_passes hp ht hsound hfirst hlast (.inr hreset)
    simp only [List.mem_append, not_or] at hreset
    have hle := clocked_over_passes hp ht hsound hfirst hlast hreset.2.2
    refine ⟨Nat.le_trans hrested hle, ?_⟩
    intro hdeltas
    have hdeltasLe := UInt32.le_iff_toNat_le.mp hdeltas
    omega
  · intro hc a x n after hsplit hreset hcalm hsilent
    obtain ⟨d, hlow, hhigh, hready⟩ :=
      ready_iff_delay_over hc hp ht hsound hsplit hcalm hsilent
    refine ⟨d, hlow, hhigh, ?_⟩
    intro between mid hmid hcalm' hsilent'
    rw [← clocked_after_fired hp ht hsound hsplit hreset (alive_of_run hmid)]
    exact hready between hmid hcalm' hsilent'

private def guardTables : List Table :=
  [.single 100 0 4 fun row => { row with cooldownMin := some 5000, cooldownMax := some 5000 }]

private def guardSet : RuleSet := ((Store.build guardTables).1.find? (.creature 100)).getD default

private def onAggro : Rule := guardSet.rules.headD default

private def guard : Script := create 1 guardSet (Store.build guardTables).1 {}

private def slowPass : Pass := { world := .empty, deltaMs := 5000, signal := some (.aggro 2) }

private def quickPass : Pass := { slowPass with deltaMs := 0 }

private theorem journal_slowPass :
    (guard.pass slowPass).journal =
      [.heard (.aggro 2)] ++ .fired onAggro 0 0 :: [.polled 5000 .empty false] := rfl

private theorem journal_quickPass :
    ((guard.pass slowPass).script.pass quickPass).journal =
      [.heard (.aggro 2)] ++ .fired onAggro 0 0 :: [.polled 0 .empty false] := rfl

/-- Five seconds of cooldown are over at once when the rule fires in a pass of five seconds. -/
theorem own_delta_counts :
    guard.Reachable ∧ guard.store.find? guard.rules.link = some guard.rules ∧
      onAggro ∈ guard.rules.rules ∧ onAggro.isPolled = false ∧ 0 < onAggro.spec.cooldownMin ∧
      onAggro.spec.cooldownMin.toNat ≤ slowPass.deltaMs.toNat + totalMs [] ∧
      (guard.pass slowPass).script.isReady onAggro = true := by
  have hreach : guard.Reachable := .fresh 1 guardSet _ {} _
  have hmem : onAggro ∈ guard.rules.rules := by decide +kernel
  have hpos : 0 < onAggro.spec.cooldownMin := by decide
  have hrests := pushed_rule_rests hreach rfl rfl hmem rfl hpos
  have hbetween := hrests.2.1 slowPass [] quickPass _ _ _ _ _ _ journal_slowPass journal_quickPass
  have hrested := (hbetween.2 (by simp [run, calls])).1
  obtain ⟨d, -, hmax, hready⟩ := hrests.2.2 (by decide +kernel) slowPass _ _ _ journal_slowPass
    (by simp) (.inr (by simp)) (by simp)
  have hd : d.toNat ≤ 5000 := UInt32.le_iff_toNat_le.mp hmax
  have hiff := hready [] rfl (.inr (fun h => nomatch h)) (fun _ h => nomatch h)
  exact ⟨hreach, rfl, hmem, rfl, hpos, hrested, hiff.mpr (Nat.le_trans hd (Nat.le_refl 5000))⟩

/-- The rule fires again although no time passed since it fired. -/
theorem fires_again_without_delay :
    Incident.fired onAggro 0 0 ∈ (guard.pass slowPass).journal ∧
      Incident.fired onAggro 0 0 ∈ ((guard.pass slowPass).script.pass quickPass).journal ∧
      Incident.reset ∉ (guard.pass slowPass).journal ∧
      Incident.reset ∉ ((guard.pass slowPass).script.pass quickPass).journal ∧
      totalMs [quickPass] < onAggro.spec.cooldownMin.toNat := by
  rw [journal_slowPass, journal_quickPass]
  refine ⟨by simp, by simp, by simp, by simp, ?_⟩
  decide

end Script

end TriggerScript
