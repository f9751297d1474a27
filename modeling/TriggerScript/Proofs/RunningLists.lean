import TriggerScript.Proofs.BuiltSets
import TriggerScript.Proofs.Calls
import TriggerScript.Proofs.ListRequests

/-!
# Running timed action lists

Between calls the running lists are within the limit, each under its own number and with a step to
come. Requests wait for a commit, which carries them out by the policy of restarts. A list that runs
in combat alone is stopped by the end of combat before it takes its turn.
-/

namespace TriggerScript.Script

variable {s t : Script} {w : World} {op : Operation} {p : Progress} {id : UInt32} {r : ListRunner}

def beforeLists (deltaMs : UInt32) (signal : Option Signal) (s : Script) (w : World) : Progress :=
  (s.hear deltaMs signal w).andThen (advancePolled deltaMs)

theorem stages_eq (deltaMs : UInt32) (signal : Option Signal) (s : Script) (w : World) :
    s.stages deltaMs signal w =
      (s.beforeLists deltaMs signal w).andThen (advanceLists deltaMs) := rfl

theorem lists_handleDeferred (s : Script) (w : World) :
    (s.handleDeferred w).script.schedule = s.schedule :=
  schedule_handleSignals s.state.deferred s.taken w

theorem lists_received (s : Script) (signal : Option Signal) (w : World) :
    ((s.handleDeferred w).andThen (receive signal)).script.lists = s.listsLeft signal := by
  rw [Progress.script_andThen]
  have hreceived := congrArg Prod.fst
    (schedule_receive signal (s.handleDeferred w).script (s.handleDeferred w).world)
  exact hreceived.trans (left_of_schedule (lists_handleDeferred s w) signal).1

theorem lists_beforeLists (deltaMs : UInt32) (signal : Option Signal) (s : Script) (w : World) :
    (s.beforeLists deltaMs signal w).script.lists = s.listsLeft signal := by
  rw [beforeLists, Progress.script_andThen, lists_advancePolled, hear, Progress.script_andThen,
    lists_advanceTimedEvents]
  exact lists_received s signal w

theorem walks_beforeLists (hs : s.Listed) (deltaMs : UInt32) (signal : Option Signal) (w : World) :
    Walks Lasts s.taken w (s.beforeLists deltaMs signal w) := by
  have hhear := lasts_commitLaw.walks_hear (w := w) hs deltaMs signal
  exact lasts_chains.walks_join hhear (lasts_advancePolled hhear.listed deltaMs)

theorem unlisted_beforeLists (hs : s.Listed) (deltaMs : UInt32) (signal : Option Signal)
    (w : World) : Unlisted (s.beforeLists deltaMs signal w).journal := by
  have hhear := unlisted_commitLaw.walks_hear (w := w) hs deltaMs signal
  exact hhear.law.append (unlisted_advancePolled hhear.listed deltaMs _)

theorem lists_startOver (s : Script) (w : World) : (s.startOver w).script.lists = ∅ :=
  congrArg Prod.fst (schedule_startOver s w)

def fights (deltaMs : UInt32) (signal : Option Signal) (s : Script) (w : World) : Bool :=
  (s.beforeLists deltaMs signal w).world.inCombat s.owner

theorem fights_eq (hs : s.Listed) (deltaMs : UInt32) (signal : Option Signal) (w : World) :
    (s.beforeLists deltaMs signal w).world.inCombat (s.beforeLists deltaMs signal w).script.owner =
      s.fights deltaMs signal w := by
  rw [(walks_beforeLists hs deltaMs signal w).keeps.owner]
  rfl

theorem lists_of_listsLeft {signal : Option Signal} (h : (s.listsLeft signal)[id]? = some r) :
    s.lists[id]? = some r ∧ (signal.any (·.endsCombat) = true → r.mode ≠ .inCombat) := by
  unfold listsLeft at h
  split at h
  · simp at h
  · split at h
    · change (s.lists.filter fun _ runner => runner.mode != .inCombat)[id]? = some r at h
      rw [Std.ExtTreeMap.getElem?_filter'] at h
      obtain ⟨hr, hmode⟩ := Option.filter_eq_some_iff.mp h
      exact ⟨hr, fun _ => by simpa using hmode⟩
    · rename_i hends
      exact ⟨h, fun hends' => absurd hends' hends⟩

theorem size_listsLeft_le (s : Script) (signal : Option Signal) :
    (s.listsLeft signal).size ≤ s.lists.size := by
  unfold listsLeft
  split
  · exact Nat.zero_le _
  · split
    · exact Std.ExtTreeMap.size_filter_le_size
    · exact Nat.le_refl _

/-- The running lists are within the limit, each under its own number and with a step to come. -/
structure Orderly (s : Script) : Prop where
  limit : s.lists.size ≤ s.config.maxTimedLists.toNat
  running : ∀ (id : UInt32) (r : ListRunner), s.lists[id]? = some r →
    r.listId = id ∧ r.cursor < r.rules.size

theorem orderly_of_no_lists (h : s.lists = ∅) : s.Orderly := by
  constructor
  · rw [h]
    exact Nat.zero_le _
  · intro id r hr
    rw [h] at hr
    simp at hr

theorem Orderly.of_eq (h : s.Orderly) (hl : t.lists = s.lists) (hc : t.config = s.config) :
    t.Orderly := by
  constructor
  · rw [hl, hc]
    exact h.limit
  · rw [hl]
    exact h.running

theorem orderly_advanceLists (hs : s.Listed) (h : s.Orderly) (deltaMs : UInt32) (w : World) :
    (s.advanceLists deltaMs w).script.Orderly := by
  have hwalks := lasts_listLaw.walks_advanceLists (w := w) hs deltaMs
  constructor
  · rw [hwalks.keeps.config]
    exact Nat.le_trans (size_advanceLists_le deltaMs s w) h.limit
  · intro id r' hr'
    cases hr : s.lists[id]? with
    | none =>
      rw [(no_turn_advanceLists hr deltaMs w).1] at hr'
      cases hr'
    | some r =>
      obtain ⟨due, r'', hturn⟩ := turn_advanceLists hs hr deltaMs w
      rw [hturn.lists] at hr'
      split at hr'
      · cases hr'
      · rename_i hunfinished
        cases hr'
        obtain ⟨g, g', hadvance⟩ := hturn.advanced
        have hsame := r.resumes_advance deltaMs (w.inCombat s.owner) g
        rw [hadvance] at hsame
        refine ⟨hsame.listId.trans (h.running id r hr).1, ?_⟩
        simpa [ListRunner.isFinished] using hunfinished

theorem orderly_stages (hs : s.Listed) (h : s.Orderly) (deltaMs : UInt32) (signal : Option Signal)
    (w : World) : (s.stages deltaMs signal w).script.Orderly := by
  have hwalks := walks_beforeLists hs deltaMs signal w
  rw [stages_eq]
  apply orderly_advanceLists hwalks.listed
  constructor
  · rw [lists_beforeLists, hwalks.keeps.config]
    exact Nat.le_trans (size_listsLeft_le s signal) h.limit
  · intro id r hr
    rw [lists_beforeLists] at hr
    exact h.running id r (lists_of_listsLeft hr).1

theorem orderly_commitState {tables : List Table} (hstore : s.store = (Store.build tables).1)
    (h : s.Orderly) : s.commitState.Orderly := by
  have hstaged : Orderly { s with state := s.state.commit } := h.of_eq rfl rfl
  constructor
  · rw [(keeps_commitState s).config]
    have hsize := size_startLists_le hstaged.limit s.state.staged.lists
    exact hsize
  · intro id r hr
    rcases lists_startLists hr with hbefore | ⟨q, -, rules, hid, hknown, hstarted⟩
    · exact h.running id r hbefore
    · have hknown' : (Store.build tables).1.timedList? id = some rules := hstore ▸ hknown
      have hnonempty := (Store.stepwise_of_timedList? hknown').nonempty
      rw [hstarted.listId, hstarted.cursor, hstarted.rules]
      exact ⟨hid, List.length_pos_iff.mpr hnonempty⟩

theorem orderly_commit {tables : List Table} (hs : s.Listed)
    (hstore : s.store = (Store.build tables).1) (h : s.Orderly) (w : World) :
    (s.commit w).script.Orderly := by
  unfold commit
  split
  · have hsettled := lasts_commitLaw.walks_settle (w := w) hs
    have hover := lasts_commitLaw.walks_startOver (s := (s.settle w).script)
      (w := (s.settle w).world)
    have hstore' := (hover.keeps.store.trans hsettled.keeps.store).trans hstore
    apply orderly_commitState hstore'
    apply orderly_of_no_lists
    exact lists_startOver (s.settle w).script (s.settle w).world
  · exact orderly_commitState hstore h

theorem Commits.orderly (h : Commits s w op p) (hs : s.Listed) (ho : s.Orderly) :
    p.script.Orderly := by
  cases h with
  | advance deltaMs _ => exact orderly_stages hs ho deltaMs _ w
  | reset => exact orderly_of_no_lists (lists_startOver s w)
  | @forceFire _ rule hfind =>
    have hkeeps := (fires_fireHead s.rules { owner := s.owner } true rule s w).keeps
    exact ho.of_eq hkeeps.lists hkeeps.config

theorem orderly_operate {tables : List Table} (hs : s.Sound)
    (hstore : s.store = (Store.build tables).1) (h : s.Orderly) (w : World) (op : Operation) :
    (s.operate w op).script.Orderly := by
  rcases operate_cases hs.listed w op with heq | hends | ⟨p, hcommits, heq⟩
  · rw [heq]
    exact h
  · exact orderly_of_no_lists hends.lists
  · have hwalks := hcommits.walks hs.listed
    rw [heq, Progress.script_andThen]
    exact orderly_commit hwalks.listed (hwalks.keeps.store.trans hstore)
      (hcommits.orderly hs.listed h) p.world

theorem orderly_calls {tables : List Table} (hs : s.Sound)
    (hstore : s.store = (Store.build tables).1) (h : s.Orderly) (cs : List Call) :
    (s.calls cs).1.Orderly := by
  induction cs generalizing s with
  | nil => exact h
  | cons c cs ih =>
    have hsound := sound_operate hs c.world c.op
    exact ih hsound.2 (hsound.1.store.trans hstore) (orderly_operate hs hstore h c.world c.op)

theorem Reachable.orderly {tables : List Table} (hs : s.Reachable)
    (hstore : s.store = (Store.build tables).1) : s.Orderly := by
  induction hs with
  | fresh owner rules store config rng =>
    apply orderly_of_no_lists
    show (initTimers rules.rules { owner, store, rules, config, rng }).lists = ∅
    rw [initTimers_eq]
  | operate w op hs ih =>
    have hkeeps := (sound_operate hs.sound w op).1
    have hstore' := hkeeps.store.symm.trans hstore
    exact orderly_operate hs.sound hstore' (ih hstore') w op

/-- A script whose staged changes the end of a call commits: the one that the call came to, or the
one that a requested reset left. -/
inductive Settles (p : Progress) : Script → Prop
  | first : Settles p p.script
  | again : p.script.state.staged.reset = true →
      Settles p ((p.script.settle p.world).andThen startOver).script

theorem exists_settles (p : Progress) :
    ∃ t, Settles p t ∧ (p.script.commit p.world).script = t.commitState := by
  cases hreset : p.script.state.staged.reset with
  | true => exact ⟨_, .again hreset, by rw [commit_of_requested hreset]; rfl⟩
  | false => exact ⟨_, .first, by rw [commit_of_unrequested hreset]; rfl⟩

theorem Settles.listed (h : Settles p t) (hp : p.script.Listed) : t.Listed := by
  cases h with
  | first => exact hp
  | again _ =>
    exact (lasts_commitLaw.walks_startOver (s := (p.script.settle p.world).script)
      (w := (p.script.settle p.world).world)).listed

/-- What a commit makes of the staged requests: each is answered by the policy where the ones before
it led, a list that none of them may replace is spared, one that some of them may replace is started
over, and no other list is started. -/
structure CarriesOut (s : Script) : Prop where
  each : ∀ before q after, s.state.staged.lists = before ++ q :: after →
    Answers (before.foldl startList { s with state := s.state.commit }) q
      ((before ++ [q]).foldl startList { s with state := s.state.commit })
  spared : ∀ (id : UInt32) (r : ListRunner), s.lists[id]? = some r →
    (∀ q ∈ s.state.staged.lists, q.listId = id → q.allowOverride = false) →
    s.commitState.lists[id]? = some r
  replaced : ∀ (id : UInt32) (r : ListRunner), s.lists[id]? = some r →
    (∃ q ∈ s.state.staged.lists, q.listId = id ∧ q.allowOverride = true) →
    ∃ q ∈ s.state.staged.lists, ∃ r', q.listId = id ∧ q.allowOverride = true ∧
      s.commitState.lists[id]? = some r' ∧ r'.StartedBy q r.rules
  requested : ∀ (id : UInt32) (r : ListRunner), s.commitState.lists[id]? = some r →
    s.lists[id]? = some r ∨ ∃ q ∈ s.state.staged.lists, ∃ rules, q.listId = id ∧
      s.store.timedList? id = some rules ∧ r.StartedBy q rules

theorem carriesOut (hs : s.Listed) : s.CarriesOut where
  each before q after _ := by
    have hlisted := listed_startLists (hs.of_eq (t := { s with state := s.state.commit }) rfl rfl)
      before
    rw [List.foldl_append]
    exact answers_startList hlisted q
  spared _ _ hr hspared :=
    lists_startLists_of_spared (s := { s with state := s.state.commit }) hr hspared
  replaced _ _ hr hoverride :=
    lists_startLists_of_overridden (s := { s with state := s.state.commit }) (hs.of_eq rfl rfl) hr
      hoverride
  requested _ _ hr := lists_startLists (s := { s with state := s.state.commit }) hr

/-- A list that runs in combat alone is not left when a signal that ends combat was heard. -/
theorem stopped_of_endsCombat {signal : Signal} (hends : signal.endsCombat = true)
    (hr : s.lists[id]? = some r) (hmode : r.mode = .inCombat) :
    (s.listsLeft (some signal))[id]? = none := by
  cases hleft : (s.listsLeft (some signal))[id]? with
  | none => rfl
  | some r' =>
    obtain ⟨hr', hmode'⟩ := lists_of_listsLeft hleft
    rw [hr] at hr'
    cases hr'
    exact absurd hmode (hmode' hends)

theorem stepsOf_advance_of_stopped (hs : s.Listed) {signal : Option Signal}
    (hstopped : (s.listsLeft signal)[id]? = none) (deltaMs : UInt32) (w : World) :
    stepsOf id (s.advance deltaMs signal w).journal = [] := by
  rcases operate_cases hs w (.advance deltaMs signal) with h | hends | ⟨p, hcommits, h⟩
  · show stepsOf id (s.operate w (.advance deltaMs signal)).journal = []
    rw [h]
    rfl
  · exact hends.unlisted.stepsOf id
  · show stepsOf id (s.operate w (.advance deltaMs signal)).journal = []
    have hcommit : stepsOf id (p.script.commit p.world).journal = [] :=
      (unlisted_commitLaw.walks_commit (hcommits.walks hs).listed).law.stepsOf id
    cases hcommits with
    | advance _ _ =>
      have hbefore := unlisted_beforeLists hs deltaMs signal w
      rw [← lists_beforeLists deltaMs signal s w] at hstopped
      rw [h, Progress.journal_andThen, stepsOf_append, hcommit, stages_eq,
        Progress.journal_andThen, stepsOf_append, hbefore.stepsOf,
        (no_turn_advanceLists hstopped deltaMs _).2]
      rfl

/-- Between calls the running lists are within the limit, each under its own number, with its steps
from the store and one of them to come. Commits carry out the requests of a call by the policy of
restarts. A signal that ends combat stops the lists that run in combat alone before they take a step
in that call. -/
theorem running_lists_obey_limit_and_policy {tables : List Table} (hs : s.Reachable)
    (hstore : s.store = (Store.build tables).1) :
    (s.lists.size ≤ s.config.maxTimedLists.toNat ∧
      ∀ (id : UInt32) (r : ListRunner), s.lists[id]? = some r →
        r.listId = id ∧ s.store.timedList? id = some r.rules ∧ r.cursor < r.rules.size) ∧
    (∀ w op p, Commits s w op p →
      (∀ t, Settles p t → t.CarriesOut) ∧
      (s.despawned = false → ∃ t, Settles p t ∧ (s.operate w op).script = t.commitState)) ∧
    ∀ w deltaMs signal, signal.endsCombat = true → ∀ (id : UInt32) (r : ListRunner),
      s.lists[id]? = some r → r.mode = .inCombat →
      ((s.handleDeferred w).andThen (receive (some signal))).script.lists[id]? = none ∧
        stepsOf id (s.advance deltaMs (some signal) w).journal = [] := by
  have horderly := hs.orderly hstore
  have hlisted := hs.sound.listed
  refine ⟨⟨horderly.limit, ?_⟩, ?_, ?_⟩
  · intro id r hr
    obtain ⟨hid, hcursor⟩ := horderly.running id r hr
    exact ⟨hid, hlisted id r hr, hcursor⟩
  · intro w op p hcommits
    constructor
    · intro t ht
      exact carriesOut (ht.listed (hcommits.walks hlisted).listed)
    · intro hd
      obtain ⟨t, ht, hcommit⟩ := exists_settles p
      refine ⟨t, ht, ?_⟩
      rw [hcommits.operate_eq hd]
      exact hcommit
  · intro w deltaMs signal hends id r hr hmode
    have hstopped := stopped_of_endsCombat hends hr hmode
    exact ⟨by rw [lists_received]; exact hstopped,
      stepsOf_advance_of_stopped hlisted hstopped deltaMs w⟩

private def raidTables : List Table :=
  [.single 100 0 4 fun row =>
      { row with
        actionKind := 80, actionParams := (row.actionParams.setIfInBounds 0 50).setIfInBounds 1 1 },
    .single 100 0 4 fun row =>
      { row with
        id := 2, actionKind := 80
        actionParams := (row.actionParams.setIfInBounds 0 51).setIfInBounds 1 2 },
    .single 50 9 60 fun row => row,
    .single 51 9 60 fun row => row]

private def raidSet : RuleSet := ((Store.build raidTables).1.find? (.creature 100)).getD default

private def raiding : Script :=
  ((create 1 raidSet (Store.build raidTables).1 { maxTimedLists := 1 }).advance 0 (some (.aggro 2))
    .empty).script

/-- Of two lists that are asked for in one call only the first one runs when the limit is one, and
the end of combat stops it before its first step. -/
theorem second_list_is_refused :
    raiding.Reachable ∧ raiding.store = (Store.build raidTables).1 ∧
      raiding.lists.keys = [50] ∧ raiding.lists.size ≤ raiding.config.maxTimedLists.toNat ∧
      Signal.evade.endsCombat = true ∧
      ∃ r, raiding.lists[(50 : UInt32)]? = some r ∧ r.mode = .inCombat ∧
        stepsOf 50 (raiding.advance 1000 (some .evade) .empty).journal = [] := by
  have hspawned : (create 1 raidSet (Store.build raidTables).1 { maxTimedLists := 1 }).Reachable :=
    .fresh 1 raidSet _ _ _
  have hreach : raiding.Reachable := .operate .empty (.advance 0 (some (.aggro 2))) hspawned
  have hkeeps := (sound_advance hspawned.sound .empty 0 (some (.aggro 2))).1
  have hbuilt : raiding.BuiltFrom raidTables :=
    (builtFrom_create 1 { maxTimedLists := 1 }).of_keeps hkeeps
  have hmode : raiding.lists[(50 : UInt32)]?.map (·.mode) = some .inCombat := by decide +kernel
  obtain ⟨r, hr, hmode⟩ := Option.map_eq_some_iff.mp hmode
  obtain ⟨⟨hlimit, -⟩, -, hends⟩ := running_lists_obey_limit_and_policy hreach hbuilt.store
  exact ⟨hreach, hbuilt.store, by decide +kernel, hlimit, rfl, r, hr, hmode,
    (hends .empty 1000 .evade rfl 50 r hr hmode).2⟩

end TriggerScript.Script
