import TriggerScript.Proofs.Building
import TriggerScript.Proofs.Marks
import TriggerScript.Proofs.Staging
import TriggerScript.Proofs.Timers
import TriggerScript.Proofs.Visibility

/-!
# Resets

A reset takes a script back to its spawn state, except for the marks and timers of rules that
survive it and for the stored targets. A reset that a rule asks for waits for the commit of its
call, which carries it out once. A reset that comes first drops the request with all that is staged.
-/

namespace TriggerScript

inductive Rule.SpawnTimer (r : Rule) : Option Timer → Prop
  | scheduled {min max delay : UInt32} : r.event.initialTimer = some (min, max) → min ≤ delay →
      (min ≤ max → delay ≤ max) → SpawnTimer r (some (.dueIn delay))
  | atOnce : r.isPolled = true → r.event.isUpdate = false → SpawnTimer r (some (.dueIn 0))
  | pushed : r.isPolled = false → SpawnTimer r none

namespace Script

variable {r : Rule}

theorem spawnTimer_initTimer (r : Rule) (s : Script) : r.SpawnTimer ((s.initTimer r).timer? r) := by
  unfold initTimer
  split
  · rename_i hp
    change r.SpawnTimer (s.state.timers.insert r.id (.dueIn (s.rng.roll _ _).1))[r.id]?
    rw [Std.ExtTreeMap.getElem?_insert_self]
    cases hinitial : r.event.initialTimer with
    | none =>
      apply Rule.SpawnTimer.atOnce hp
      rw [← Event.isSome_initialTimer, hinitial]
      rfl
    | some range =>
      obtain ⟨hmin, hmax⟩ := Rng.roll_bounds range.1 range.2 s.rng
      apply Rule.SpawnTimer.scheduled hinitial
      · exact UInt32.le_iff_toNat_le.mpr hmin
      · exact fun hle => UInt32.le_iff_toNat_le.mpr (hmax hle)
  · rename_i hp
    change r.SpawnTimer (s.state.timers.erase r.id)[r.id]?
    rw [Std.ExtTreeMap.getElem?_erase_self]
    exact .pushed (by simpa using hp)

theorem spawnTimer_initTimers {rules : List Rule} (hids : (rules.map (·.id)).Nodup)
    (hr : r ∈ rules) (s : Script) : r.SpawnTimer ((initTimers rules s).timer? r) := by
  obtain ⟨before, after, rfl, hothers⟩ := exists_split_of_mem hids hr
  have hlater : ∀ x ∈ after, x.id ≠ r.id := fun x hx => hothers x (List.mem_append_right _ hx)
  have hsplit : initTimers (before ++ r :: after) s =
      initTimers after ((initTimers before s).initTimer r) := by
    unfold initTimers
    rw [List.foldl_append, List.foldl_cons]
  rw [hsplit, timer?_initTimers_of_ne hlater]
  exact spawnTimer_initTimer r _

structure Restores (s t : Script) : Prop where
  phase : t.state.phase = .empty
  counters : t.state.counters = ∅
  timedEvents : t.state.timedEvents = ∅
  staged : t.state.staged = {}
  deferred : t.state.deferred = []
  lists : t.lists = ∅
  stored : t.state.stored = s.state.stored
  renewed : ∀ r ∈ s.rules.rules, r.survivesReset = false →
    t.isMarked r = false ∧ r.SpawnTimer (t.timer? r)
  kept : ∀ r ∈ s.rules.rules, r.survivesReset = true →
    t.isMarked r = s.isMarked r ∧ t.timer? r = s.timer? r

theorem timer?_resetState_eq (s : Script) (r : Rule) :
    ∃ t : Script, s.resetState.timer? r =
      (initTimers (s.rules.rules.filter fun rule => !rule.survivesReset) t).timer? r :=
  ⟨_, rfl⟩

theorem restores_resetState {s : Script} (hids : (s.rules.rules.map (·.id)).Nodup) :
    s.Restores s.resetState where
  phase := by rw [resetState_eq]; rfl
  counters := by rw [resetState_eq]; rfl
  timedEvents := by rw [resetState_eq]; rfl
  staged := by rw [resetState_eq]; rfl
  deferred := by rw [resetState_eq]; rfl
  lists := by rw [resetState_eq]
  stored := by rw [resetState_eq]; rfl
  renewed r hr hrenewed := by
    obtain ⟨t, htimer⟩ := timer?_resetState_eq s r
    constructor
    · rw [isMarked_resetState hids hr, hrenewed, Bool.and_false]
    · rw [htimer]
      apply spawnTimer_initTimers
      · exact hids.sublist (List.filter_sublist.map _)
      · exact List.mem_filter.mpr ⟨hr, by simp [hrenewed]⟩
  kept r hr hsurvives := by
    constructor
    · rw [isMarked_resetState hids hr, hsurvives, Bool.and_true]
    · exact timer?_resetState hids hr hsurvives

/-- A rule fired that asked for a reset, and no reset came since. -/
def Asked (js : List Incident) : Prop :=
  ∃ before rule depth commands after, js = before ++ .fired rule depth commands :: after ∧
    rule.asksReset = true ∧ Incident.reset ∉ after

theorem not_asked_nil : ¬Asked [] := by
  rintro ⟨before, rule, depth, commands, after, hsplit, -⟩
  simp at hsplit

theorem asked_append {js ks : List Incident} :
    Asked (js ++ ks) ↔ Asked ks ∨ Asked js ∧ Incident.reset ∉ ks := by
  constructor
  · rintro ⟨before, rule, depth, commands, after, hsplit, hasks, hreset⟩
    rcases split_append hsplit with ⟨after', hjs, rfl⟩ | ⟨before', rfl, hks⟩
    · rw [List.mem_append, not_or] at hreset
      exact .inr ⟨⟨before, rule, depth, commands, after', hjs, hasks, hreset.1⟩, hreset.2⟩
    · exact .inl ⟨before', rule, depth, commands, after, hks, hasks, hreset⟩
  · rintro (⟨before, rule, depth, commands, after, rfl, hasks, hreset⟩ |
      ⟨⟨before, rule, depth, commands, after, rfl, hasks, hreset⟩, hks⟩)
    · exact ⟨js ++ before, rule, depth, commands, after, by simp, hasks, hreset⟩
    · exact ⟨before, rule, depth, commands, after ++ ks, by simp, hasks, by simp [hreset, hks]⟩

theorem asked_fired {rule : Rule} {depth commands : Nat} :
    Asked [.fired rule depth commands] ↔ rule.asksReset = true := by
  constructor
  · rintro ⟨before, rule', depth', commands', after, hsplit, hasks, -⟩
    have hmem := List.mem_singleton.mp (mem_of_split hsplit)
    cases hmem
    exact hasks
  · intro hasks
    exact ⟨[], rule, depth, commands, [], rfl, hasks, by simp⟩

theorem not_asked_note {i : Incident} (hi : i.record? = none) : ¬Asked [i] := by
  rintro ⟨before, rule, depth, commands, after, hsplit, -⟩
  have hmem := List.mem_singleton.mp (mem_of_split hsplit)
  rw [← hmem] at hi
  cases hi

/-- A reset is requested after a stretch as its journal tells. -/
def RequestFollows (s : Script) (p : Progress) : Prop :=
  p.script.state.staged.reset = true ↔
    Asked p.journal ∨ s.state.staged.reset = true ∧ Incident.reset ∉ p.journal

theorem requestFollows_firingLaw : FiringLaw true fun s _ p => RequestFollows s p where
  join {s w p stage} _ h h' := by
    unfold RequestFollows at h h' ⊢
    rw [Progress.script_andThen, Progress.journal_andThen, asked_append, h', h, List.mem_append,
      not_or]
    tauto
  aside {s t} w h := by
    unfold RequestFollows
    rw [h]
    simp [not_asked_nil]
  shot := by
    intro s set forced rule w o depth _ _ _ _
    obtain ⟨n, hjournal⟩ := journal_shoot set o depth forced rule s w
    unfold RequestFollows
    rw [hjournal, reset_shoot, asked_fired, Bool.or_eq_true, or_comm]
    simp
  timed s w rng timers := by
    unfold RequestFollows
    simp [not_asked_nil]
  noted := by
    intro i s w hi hreset _
    unfold RequestFollows
    simp [not_asked_note hi, hreset.symm]

theorem requestFollows_renewed (s : Script) (w : World) :
    RequestFollows s { script := s.resetState, world := w, journal := [.reset] } := by
  have hstaged : s.resetState.state.staged.reset = false := by
    rw [resetState_eq]
    rfl
  unfold RequestFollows
  simp [hstaged, not_asked_note (i := .reset) rfl]

theorem unreset_firingLaw : FiringLaw true fun _ _ p => Incident.reset ∉ p.journal where
  join _ h h' := by
    rw [Progress.journal_andThen, List.mem_append, not_or]
    exact ⟨h, h'⟩
  aside _ _ := List.not_mem_nil
  shot := by
    intro s set forced rule w o depth _ _ _ _
    obtain ⟨n, hjournal⟩ := journal_shoot set o depth forced rule s w
    rw [hjournal]
    simp
  timed _ _ _ _ := List.not_mem_nil
  noted _ _ _ hreset _ := by simpa using hreset.symm

/-- What an operation comes to before the commit that ends it. Despawning a script and forcing an
unknown rule commit nothing. -/
inductive Commits (s : Script) (w : World) : Operation → Progress → Prop
  | advance {signal} (deltaMs) : signal ≠ some .despawn →
      Commits s w (.advance deltaMs signal) (s.stages deltaMs signal w)
  | reset : Commits s w .reset (s.startOver w)
  | forceFire {id rule} : s.rules.find? id = some rule →
      Commits s w (.forceFire id) (fireHead s.rules { owner := s.owner } true rule s w).2

section

variable {s : Script} {w : World} {op : Operation} {p : Progress}

theorem Commits.operate_eq (h : Commits s w op p) (hd : s.despawned = false) :
    s.operate w op = p.andThen commit := by
  cases h with
  | advance deltaMs hsig => exact advance_eq hd deltaMs hsig w
  | reset =>
    change s.reset w = _
    unfold Script.reset
    rw [if_neg (by simp [hd])]
  | forceFire hfind =>
    change (s.forceFire? _ w).getD _ = _
    unfold forceFire?
    rw [hfind, Option.map_some, Option.getD_some, if_neg (by simp [hd])]

/-- Before the commit a reset is requested if a rule asked for one since the last reset. -/
theorem Commits.requested_iff (h : Commits s w op p) (hs : s.Sound) :
    p.script.state.staged.reset = true ↔ Asked p.journal := by
  have hlaw := requestFollows_firingLaw
  have hearing : HearingLaw fun s _ p => RequestFollows s p :=
    { toLaw := hlaw.law, renewed := requestFollows_renewed }
  have hfollows : ∃ t, t.state.staged = s.state.staged ∧ RequestFollows t p := by
    cases h with
    | advance deltaMs _ =>
      exact ⟨s.taken, rfl, (hlaw.walks_stages requestFollows_renewed hs.listed deltaMs _ w).law⟩
    | reset => exact ⟨s, rfl, hearing.walks_startOver.law⟩
    | forceFire hfind =>
      exact ⟨s, rfl, hlaw.fire (.inl rfl) (RuleSet.mem_of_find? hfind) fun h => h⟩
  obtain ⟨t, ht, hfollows⟩ := hfollows
  refine Iff.trans hfollows ?_
  rw [ht, hs.settled]
  simp

theorem commit_of_requested (h : s.state.staged.reset = true) :
    s.commit w = ((s.settle w).andThen startOver).andThen settle := if_pos h

theorem commit_of_unrequested (h : s.state.staged.reset = false) :
    s.commit w = s.settle w := by
  unfold commit
  rw [if_neg (by simp [h])]

/-- A commit that resets the script does so once. -/
theorem journal_of_requested (h : s.state.staged.reset = true) :
    ∃ rest, (s.commit w).journal = .reset :: .heard .reset :: rest ∧ Incident.reset ∉ rest := by
  have htold := unreset_firingLaw.law.walks_handleSignal (w := w)
    (listed_resetState s.commitState) .reset
  have hjournal : (s.commit w).journal =
      .reset :: (s.commitState.resetState.handleSignal .reset w).journal := by
    rw [commit_of_requested h]
    simp [settle, startOver]
  have hhandled : (s.commitState.resetState.handleSignal .reset w).journal = .heard .reset ::
      (inTurn (react .reset) s.commitState.resetState.rules.rules s.commitState.resetState
        w).journal := rfl
  have hrest := htold.law
  rw [hhandled, List.mem_cons, not_or] at hrest
  exact ⟨_, by rw [hjournal, hhandled], hrest.2⟩

/-- A reset takes a script back to its spawn state, except for what survives it. A reset that rules
ask for is carried out once by the commit of the call, unless a reset in the same call comes first
and drops the request; what the reset rules ask for then is dropped, too. -/
theorem reset_restores_and_requests_reset_once (hs : s.Reachable) (hd : s.despawned = false)
    (hids : (s.rules.rules.map (·.id)).Nodup) :
    (∀ t, s.Keeps t → t.Restores t.resetState) ∧
    (∀ rng, ∀ r ∈ s.rules.rules,
      r.SpawnTimer ((fresh s.owner s.rules s.store s.config rng).timer? r)) ∧
    ∀ w op p, Commits s w op p →
      s.operate w op = p.andThen commit ∧
      (Asked p.journal →
        p.script.commit p.world = ((p.script.settle p.world).andThen startOver).andThen settle ∧
        ∃ rest, (p.script.commit p.world).journal = .reset :: .heard .reset :: rest ∧
          Incident.reset ∉ rest) ∧
      (¬Asked p.journal → (p.script.commit p.world).journal = []) ∧
      (s.operate w op).script.state.staged = {} := by
  refine ⟨?_, ?_, ?_⟩
  · intro t hkeeps
    exact restores_resetState (hkeeps.rules ▸ hids)
  · intro rng r hr
    exact spawnTimer_initTimers hids hr _
  · intro w op p h
    have hrequested := h.requested_iff hs.sound
    refine ⟨h.operate_eq hd, ?_, ?_, (sound_operate hs.sound w op).2.settled⟩
    · intro hasked
      have hreset := hrequested.mpr hasked
      exact ⟨commit_of_requested hreset, journal_of_requested hreset⟩
    · intro hasked
      have hreset : p.script.state.staged.reset = false := by
        rw [← Bool.not_eq_true]
        exact fun h => hasked (hrequested.mp h)
      rw [commit_of_unrequested hreset]
      rfl

end

private def resetTables (onReset : UInt32) : List Table :=
  [.single 100 0 37 fun row =>
      { row with actionKind := 22, actionParams := row.actionParams.setIfInBounds 0 1 },
    .single 100 0 66 fun row =>
      { row with id := 2, eventParams := row.eventParams.setIfInBounds 0 1, actionKind := 78 },
    .single 100 0 25 fun row => { row with id := 3, actionKind := onReset }]

private def resetSet (onReset : UInt32) : RuleSet :=
  ((Store.build (resetTables onReset)).1.find? (.creature 100)).getD default

/-- A script that entered a phase in its first pass. Its second rule asks for a reset when it hears
of the phase, its third rule reacts to resets by an action of the given kind. -/
private def entered (onReset : UInt32) : Script :=
  ((create 1 (resetSet onReset) (Store.build (resetTables onReset)).1 {}).advance 0 (some .aiInit)
    .empty).script

private def asker : Rule := (resetSet 0).rules[1]?.getD default

private theorem reachable_entered (onReset : UInt32) : (entered onReset).Reachable :=
  .operate .empty (.advance 0 (some .aiInit)) (.fresh 1 _ _ {} _)

/-- The second pass resets the script once, although the rule that reacts to the reset asks for one
again. -/
theorem second_request_is_dropped :
    (entered 78).Reachable ∧ (entered 78).despawned = false ∧
      ((entered 78).rules.rules.map (·.id)).Nodup ∧
      (entered 78).Restores (entered 78).resetState ∧
      Asked ((entered 78).stages 0 none .empty).journal ∧
      ((entered 78).advance 0 none .empty).journal.count .reset = 1 ∧
      ((entered 78).advance 0 none .empty).script.state.staged = {} := by
  have hids : ((entered 78).rules.rules.map (·.id)).Nodup := by decide +kernel
  obtain ⟨hrestores, -, hcommits⟩ :=
    reset_restores_and_requests_reset_once (reachable_entered 78) rfl hids
  have hcommitted : Commits (entered 78) .empty (.advance 0 none) _ := .advance 0 (by simp)
  obtain ⟨hadvance, hcarried, -, hstaged⟩ := hcommits .empty _ _ hcommitted
  have hjournal : ((entered 78).stages 0 none .empty).journal =
      [.heard (.eventPhaseChange (.single 1))] ++
        .fired asker 0 0 :: [.polled 0 (.single 1) false] := by decide +kernel
  have hasked : Asked ((entered 78).stages 0 none .empty).journal :=
    ⟨_, _, _, _, _, hjournal, rfl, by simp⟩
  obtain ⟨-, rest, hrest, hreset⟩ := hcarried hasked
  refine ⟨reachable_entered 78, rfl, hids, hrestores _ (.refl _), hasked, ?_, hstaged⟩
  change ((entered 78).operate .empty (.advance 0 none)).journal.count .reset = 1
  rw [hadvance, Progress.journal_andThen, hjournal, hrest]
  simp [List.count_eq_zero.mpr hreset]

private def respawning : Progress := (entered 0).stages 0 (some .respawn) .empty

/-- The reset that comes with the signal of the pass drops the one that a deferred signal made a
rule ask for, so that the commit carries none out. -/
theorem respawn_drops_request :
    (entered 0).Reachable ∧ (entered 0).despawned = false ∧
      ((entered 0).rules.rules.map (·.id)).Nodup ∧
      Incident.fired asker 0 0 ∈ ((entered 0).handleDeferred .empty).journal ∧
      ((entered 0).handleDeferred .empty).script.state.staged.reset = true ∧
      (entered 0).advance 0 (some .respawn) .empty = respawning.andThen commit ∧
      Incident.fired asker 0 0 ∈ respawning.journal ∧
      (respawning.script.commit respawning.world).journal = [] := by
  exact ⟨reachable_entered 0, rfl, by decide +kernel, by decide +kernel, by decide +kernel,
    advance_eq rfl 0 (by simp) .empty, by decide +kernel, by decide +kernel⟩

end Script

end TriggerScript
