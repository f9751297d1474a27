import TriggerScript.Proofs.Calls
import TriggerScript.Proofs.FiringLaws

/-!
# Despawning

Despawning is final. The rules hear of it once, in the call that ends the life of the script; that
call leaves nothing that could fire, and no later call changes anything.
-/

namespace TriggerScript

/-- Whether an operation asks for the end of a script. -/
def Operation.endsLife : Operation → Bool
  | .despawn => true
  | .advance _ signal => signal = some .despawn
  | _ => false

namespace Script

/-- The life of the script is over, and nothing of it is left to come. -/
structure Retired (s : Script) : Prop where
  despawned : s.despawned = true
  timers : s.state.timers = ∅
  timedEvents : s.state.timedEvents = ∅
  staged : s.state.staged = {}
  deferred : s.state.deferred = []
  lists : s.lists = ∅

theorem retired_retire (s : Script) (w : World) : (s.retire w).script.Retired :=
  ⟨rfl, rfl, rfl, rfl, rfl, rfl⟩

theorem despawn_not_mem_commit {s : ScriptState} (h : Signal.despawn ∉ s.deferred) :
    Signal.despawn ∉ s.commit.deferred := by
  have hcounters : ∀ ops counters, Signal.despawn ∉ counterNotices counters ops := by
    intro ops
    induction ops with
    | nil => simp [counterNotices]
    | cons op ops ih => simp [counterNotices, ih]
  have hphase : Signal.despawn ∉ phaseNotices s.phase s.commit.phase := by
    unfold phaseNotices
    split <;> simp
  rw [ScriptState.deferred_commit]
  simp [h, hphase, hcounters]

theorem undeferred_lifeLaw :
    LifeLaw fun s _ p => .despawn ∉ s.state.deferred → .despawn ∉ p.script.state.deferred where
  join _ h h' := h' ∘ h
  aside _ haside h := by
    rw [haside]
    exact h
  shot {s set forced rule} w o depth _ _ _ _ h := by
    rw [(keeps_shoot set o depth forced rule s w).deferred]
    exact h
  timed _ _ _ _ h := h
  noted _ _ _ _ _ h := h
  taken _ _ _ := List.not_mem_nil
  renewed s w _ := by
    rw [resetState_eq]
    exact List.not_mem_nil
  settled s w h := by
    show .despawn ∉ s.commitState.state.deferred
    rw [(commitState_eq s).2.2]
    exact despawn_not_mem_commit h
  retired _ _ _ := List.not_mem_nil

section

variable {s : Script} {w : World} {op : Operation} {p : Progress}

theorem retired_despawn (hd : s.despawned = false) (w : World) :
    (s.despawn w).script.Retired ∧ (s.despawn w).heard = [.despawn] := by
  unfold despawn
  rw [if_neg (by simp [hd]), Progress.script_andThen, Progress.heard_andThen, heard_handleSignal]
  exact ⟨retired_retire _ _, rfl⟩

theorem retired_of_endsLife (hs : s.Listed) (hd : s.despawned = false)
    (hdeferred : .despawn ∉ s.state.deferred) (hop : op.endsLife = true) :
    (s.operate w op).script.Retired ∧ (s.operate w op).heard.count .despawn = 1 := by
  cases op with
  | advance deltaMs signal =>
    obtain rfl : signal = some .despawn := of_decide_eq_true hop
    have halive : (s.handleDeferred w).script.despawned = false := by
      rw [(lasts_commitLaw.walks_handleDeferred (w := w) hs).law.despawned, despawned_taken, hd]
    have hends := retired_despawn halive (s.handleDeferred w).world
    have hop : s.operate w (.advance deltaMs (some .despawn)) =
        (s.handleDeferred w).andThen despawn := advance_despawn hd deltaMs w
    rw [hop, Progress.script_andThen, Progress.heard_andThen, heard_handleDeferred, hends.2,
      List.count_append, List.count_eq_zero.mpr hdeferred]
    exact ⟨hends.1, rfl⟩
  | despawn =>
    have hends := retired_despawn hd w
    show (s.despawn w).script.Retired ∧ (s.despawn w).heard.count .despawn = 1
    rw [hends.2]
    exact ⟨hends.1, rfl⟩
  | reset => cases hop
  | forceFire id => cases hop

theorem Commits.undespawned (h : Commits s w op p) (hdeferred : .despawn ∉ s.state.deferred) :
    .despawn ∉ p.heard := by
  cases h with
  | @advance signal deltaMs hsig =>
    have hannounced : .despawn ∉ announced signal := by
      cases signal with
      | none => simp [announced]
      | some signal =>
        have hne : Signal.despawn ≠ signal := fun h => hsig (congrArg some h.symm)
        rw [announced]
        split <;> simp [hne]
    rw [heard_stages]
    simp [hdeferred, hannounced]
  | reset => simp
  | @forceFire _ rule _ =>
    rw [heard_of_passed (fires_fireHead s.rules { owner := s.owner } true rule s w).passed]
    exact List.not_mem_nil

/-- Any other operation ends with a commit, or is for an unknown rule. -/
theorem commits_of_not_endsLife (hop : op.endsLife = false) :
    (∃ p, Commits s w op p) ∨ s.operate w op = { script := s, world := w } := by
  cases op with
  | advance deltaMs signal => exact .inl ⟨_, .advance deltaMs (of_decide_eq_false hop)⟩
  | reset => exact .inl ⟨_, .reset⟩
  | forceFire id =>
    cases hfind : s.rules.find? id with
    | none => exact .inr (operate_of_unknown hfind w)
    | some rule => exact .inl ⟨_, .forceFire hfind⟩
  | despawn => cases hop

/-- It leaves a script alive, and no rule hears of despawning. -/
theorem alive_of_not_endsLife (hs : s.Listed) (hd : s.despawned = false)
    (hdeferred : .despawn ∉ s.state.deferred) (hop : op.endsLife = false) :
    (s.operate w op).script.despawned = false ∧ .despawn ∉ (s.operate w op).heard := by
  rcases commits_of_not_endsLife (s := s) (w := w) hop with ⟨p, hp⟩ | hidle
  · have hwalks := hp.walks hs
    have hcommit := lasts_commitLaw.walks_commit (w := p.world) hwalks.listed
    rw [hp.operate_eq hd, Progress.heard_andThen, List.mem_append, heard_commit]
    refine ⟨hcommit.law.despawned.trans (hwalks.law.despawned.trans hd), ?_⟩
    rintro (hmem | hmem)
    · exact hp.undespawned hdeferred hmem
    · split at hmem <;> simp at hmem
  · rw [hidle]
    exact ⟨hd, List.not_mem_nil⟩

end

theorem Reachable.undeferred {s : Script} (hs : s.Reachable) : .despawn ∉ s.state.deferred := by
  induction hs with
  | fresh owner rules store config rng =>
    show .despawn ∉ (initTimers rules.rules { owner, store, rules, config, rng }).state.deferred
    rw [initTimers_eq]
    exact List.not_mem_nil
  | operate w op hs ih => exact undeferred_lifeLaw.operate hs.sound.listed w op ih

theorem Reachable.retired {s : Script} (hs : s.Reachable) (hd : s.despawned = true) :
    s.Retired := by
  induction hs with
  | fresh owner rules store config rng =>
    unfold Script.fresh at hd
    rw [initTimers_eq] at hd
    cases hd
  | @operate s w op hs ih =>
    cases halive : s.despawned with
    | true =>
      rw [operate_of_despawned halive]
      exact ih halive
    | false =>
      cases hop : op.endsLife with
      | true => exact (retired_of_endsLife hs.sound.listed halive hs.undeferred hop).1
      | false =>
        rw [(alive_of_not_endsLife hs.sound.listed halive hs.undeferred hop).1] at hd
        cases hd

/-- How often the rules hear of despawning tells whether the life of the script is over. -/
theorem count_despawn_operate {s : Script} (hs : s.Reachable) (w : World) (op : Operation) :
    s.despawned.toNat + (s.operate w op).heard.count .despawn =
      (s.operate w op).script.despawned.toNat := by
  cases halive : s.despawned with
  | true =>
    rw [operate_of_despawned halive, halive]
    rfl
  | false =>
    cases hop : op.endsLife with
    | true =>
      obtain ⟨hretired, hcount⟩ := retired_of_endsLife (w := w) hs.sound.listed halive
        hs.undeferred hop
      rw [hretired.despawned, hcount]
      rfl
    | false =>
      obtain ⟨hstays, hunheard⟩ := alive_of_not_endsLife (w := w) hs.sound.listed halive
        hs.undeferred hop
      rw [hstays, List.count_eq_zero.mpr hunheard]
      rfl

theorem count_despawn_calls {s : Script} (hs : s.Reachable) (cs : List Call) :
    s.despawned.toNat + ((s.calls cs).2.filterMap Incident.signal?).count .despawn =
      (s.calls cs).1.despawned.toNat := by
  induction cs generalizing s with
  | nil => rfl
  | cons c cs ih =>
    have hcall := count_despawn_operate hs c.world c.op
    have hrest := ih (hs.operate c.world c.op)
    rw [calls_cons, List.filterMap_append, List.count_append, ← Nat.add_assoc]
    exact (congrArg (· + _) hcall).trans hrest

theorem retired_operate {s : Script} (hs : s.Reachable) (w : World) {op : Operation}
    (hop : op.endsLife = true) : (s.operate w op).script.Retired := by
  cases hd : s.despawned with
  | true =>
    rw [operate_of_despawned hd]
    exact hs.retired hd
  | false => exact (retired_of_endsLife hs.sound.listed hd hs.undeferred hop).1

theorem forceFire?_of_despawned {s : Script} (hd : s.despawned = true) (w : World) (id : RuleId) :
    s.forceFire? id w =
      if ∃ r ∈ s.rules.rules, r.id = id then some { script := s, world := w } else none := by
  unfold forceFire?
  cases hfind : s.rules.find? id with
  | none =>
    have hno := RuleSet.find?_eq_none_iff.mp hfind
    rw [Option.map_none, if_neg fun ⟨r, hr, hid⟩ => hno r hr hid]
  | some rule =>
    rw [Option.map_some, if_pos hd,
      if_pos ⟨rule, RuleSet.mem_of_find? hfind, RuleSet.id_of_find? hfind⟩]

/-- In the life of a script its rules hear of despawning once it ends, and not before. What ends it
leaves nothing, and after that no call fires a rule, reaches the world or changes the script. -/
theorem despawn_is_final (owner : Handle) (rules : RuleSet) (store : Store) (config : EngineConfig)
    (rng : Rng) (cs : List Call) :
    let life := (fresh owner rules store config rng).calls cs
    (life.2.filterMap Incident.signal?).count .despawn = life.1.despawned.toNat ∧
      ∀ w op, op.endsLife = true →
        let gone := (life.1.operate w op).script
        gone.Retired ∧ (∀ ds, gone.calls ds = (gone, [])) ∧
          (∀ v op', gone.operate v op' = { script := gone, world := v }) ∧
          ∀ v id, gone.forceFire? id v =
            if ∃ r ∈ rules.rules, r.id = id then some { script := gone, world := v } else none := by
  have hfresh : (fresh owner rules store config rng).Reachable :=
    .fresh owner rules store config rng
  have hnew : (fresh owner rules store config rng).despawned = false ∧
      (fresh owner rules store config rng).rules = rules := by
    unfold fresh
    rw [initTimers_eq]
    exact ⟨rfl, rfl⟩
  have hlife := hfresh.calls cs
  refine ⟨?_, ?_⟩
  · have hcount := count_despawn_calls hfresh cs
    rw [hnew.1] at hcount
    exact (Nat.zero_add _).symm.trans hcount
  · intro w op hop
    have hretired := retired_operate hlife w hop
    have hkept : ((fresh owner rules store config rng).calls cs).1.rules = rules :=
      (hfresh.sound.calls cs).1.rules.trans hnew.2
    have hrules : (((fresh owner rules store config rng).calls cs).1.operate w op).script.rules =
        rules := (sound_operate hlife.sound w op).1.rules.trans hkept
    refine ⟨hretired, calls_of_despawned hretired.despawned,
      operate_of_despawned hretired.despawned, ?_⟩
    intro v id
    have hforce := forceFire?_of_despawned hretired.despawned v id
    rwa [hrules] at hforce

private def heraldRow (id eventKind eventParam actionKind actionParam : UInt32) : Table :=
  .single 100 0 eventKind fun row =>
    { row with
      id, actionKind
      eventParams := row.eventParams.setIfInBounds 0 eventParam
      actionParams := row.actionParams.setIfInBounds 0 actionParam }

private def heraldTables : List Table :=
  [heraldRow 1 4 0 22 1, heraldRow 2 66 1 67 7, heraldRow 3 86 0 22 2]

private def heraldSet : RuleSet :=
  ((Store.build heraldTables).1.find? (.creature 100)).getD default

private def herald : Script := fresh 1 heraldSet (Store.build heraldTables).1 {} (.ofSeed 0)

private def heraldCalls : List Call := [{ world := .empty, op := .advance 0 (some (.aggro 2)) }]

private def farewell : Operation := .advance 0 (some .despawn)

/-- The last call still fires a rule for a deferred signal before the one for despawning. What both
of them stage is lost. -/
theorem staged_work_is_lost :
    farewell.endsLife = true ∧
      ((herald.calls heraldCalls).1.operate .empty farewell).journal.filterMap Incident.record? =
        [⟨.creature 100, 2, 0, 0⟩, ⟨.creature 100, 3, 0, 0⟩] ∧
      ((herald.calls heraldCalls).1.operate .empty farewell).script.Retired ∧
      ((herald.calls heraldCalls).1.operate .empty farewell).script.calls heraldCalls =
        (((herald.calls heraldCalls).1.operate .empty farewell).script, []) := by
  obtain ⟨-, hgone⟩ :=
    despawn_is_final 1 heraldSet (Store.build heraldTables).1 {} (.ofSeed 0) heraldCalls
  have hends : farewell.endsLife = true := by decide
  obtain ⟨hretired, hcalls, -⟩ := hgone .empty farewell hends
  exact ⟨hends, by decide +kernel, hretired, hcalls heraldCalls⟩

end Script

end TriggerScript
