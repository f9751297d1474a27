import Mathlib.Data.List.Nodup
import TriggerScript.Proofs.Stages

/-!
# Passes and operations

A law that also holds of resets and of commits holds of whole passes, from the moment at which the
deferred signals are taken. Whatever happens, the running lists have their steps from the store.
-/

namespace TriggerScript.Script

theorem initTimers_eq (rules : List Rule) (s : Script) :
    initTimers rules s =
      { s with
        rng := (initTimers rules s).rng
        state := { s.state with timers := (initTimers rules s).state.timers } } := by
  unfold initTimers
  apply List.foldlRecOn (motive := fun t : Script =>
    t = { s with rng := t.rng, state := { s.state with timers := t.state.timers } })
  · rfl
  · intro t ht rule _
    rw [ht]
    unfold initTimer
    split <;> rfl

/-- A reset leaves what the script has for life, its timers and what rules keep over a reset. -/
theorem resetState_eq (s : Script) :
    s.resetState =
      { s with
        rng := s.resetState.rng
        lists := ∅
        state := { s.state.clearVolatile with
          timers := s.resetState.state.timers, firedOnce := s.resetState.state.firedOnce } } := by
  unfold resetState
  dsimp only
  rw [initTimers_eq]
  rfl

theorem exists_split_of_mem {rules : List Rule} (hids : (rules.map (·.id)).Nodup) {r : Rule}
    (hr : r ∈ rules) :
    ∃ front back, rules = front ++ r :: back ∧ ∀ x ∈ front ++ back, x.id ≠ r.id := by
  obtain ⟨front, back, rfl⟩ := List.append_of_mem hr
  refine ⟨front, back, rfl, ?_⟩
  rw [List.map_append, List.map_cons, List.nodup_middle, ← List.map_append] at hids
  intro x hx hid
  exact (List.nodup_cons.mp hids).1 (hid ▸ List.mem_map_of_mem hx)

theorem id_ne_of_renewed {rules : List Rule} (hids : (rules.map (·.id)).Nodup) {r : Rule}
    (hr : r ∈ rules) (hsurvives : r.survivesReset = true) :
    ∀ x ∈ rules.filter (fun rule => !rule.survivesReset), x.id ≠ r.id := by
  intro x hx hid
  obtain ⟨hx, hrenewed⟩ := List.mem_filter.mp hx
  rw [List.inj_on_of_nodup_map hids hx hr hid, hsurvives] at hrenewed
  cases hrenewed

theorem listed_resetState (s : Script) : s.resetState.Listed := by
  intro id runner hr
  rw [resetState_eq] at hr
  simp at hr

theorem keeps_resetState (s : Script) : s.Keeps s.resetState := by
  rw [resetState_eq]
  exact ⟨rfl, rfl, rfl, rfl⟩

theorem aside_startList (s : Script) (request : ListRequest) : s.Aside (s.startList request) := by
  unfold startList
  dsimp only
  split
  · rfl
  · split
    · rfl
    · split <;> rfl

theorem listed_startList {s : Script} (h : s.Listed) (request : ListRequest) :
    (s.startList request).Listed := by
  unfold startList
  dsimp only
  split
  · exact h
  · split
    · exact h
    · rename_i rules hrules
      split
      · exact h
      · exact h.insert hrules _

theorem aside_commitState (s : Script) :
    ({ s with state := s.state.commit } : Script).Aside s.commitState := by
  unfold commitState
  apply List.foldlRecOn (motive := fun t => Aside { s with state := s.state.commit } t)
  · exact .refl _
  · intro t ht request _
    exact ht.trans (aside_startList t request)

theorem listed_commitState {s : Script} (h : s.Listed) : s.commitState.Listed := by
  unfold commitState
  apply List.foldlRecOn (motive := Listed)
  · exact h.of_eq rfl rfl
  · intro t ht request _
    exact listed_startList ht request

theorem keeps_commitState (s : Script) : s.Keeps s.commitState := by
  have h := (aside_commitState s).keeps
  exact ⟨h.owner, h.store, h.rules, h.config⟩

theorem listed_endCombat {s : Script} (h : s.Listed) : s.endCombat.Listed := by
  intro id runner hr
  apply h id runner
  change (s.lists.filter fun _ runner => runner.mode != .inCombat)[id]? = some runner at hr
  rw [Std.ExtTreeMap.getElem?_filter'] at hr
  exact (Option.filter_eq_some_iff.mp hr).1

end TriggerScript.Script

namespace TriggerScript.ScriptState

@[simp] theorem staged_commitPhase (s : ScriptState) (phase : Option PhaseMask) :
    (s.commitPhase phase).staged = s.staged := by
  unfold commitPhase
  split
  · rfl
  · split <;> rfl

theorem staged_commitCounters (ops : List CounterOp) (s : ScriptState) :
    (ops.foldl commitCounter s).staged = s.staged := by
  induction ops generalizing s with
  | nil => rfl
  | cons op ops ih =>
    rw [List.foldl_cons, ih]
    rfl

@[simp] theorem staged_commit (s : ScriptState) : s.commit.staged = {} := by
  change (s.staged.counters.foldl commitCounter _).staged = {}
  rw [staged_commitCounters, staged_commitPhase]

structure Lasts (s t : ScriptState) : Prop where
  timers : t.timers = s.timers
  firedOnce : t.firedOnce = s.firedOnce
  stored : t.stored = s.stored

theorem Lasts.trans {s t u : ScriptState} (h : s.Lasts t) (h' : t.Lasts u) : s.Lasts u :=
  ⟨h'.timers.trans h.timers, h'.firedOnce.trans h.firedOnce, h'.stored.trans h.stored⟩

theorem lasts_commitPhase (s : ScriptState) (phase : Option PhaseMask) :
    s.Lasts (s.commitPhase phase) := by
  unfold commitPhase
  split
  · exact ⟨rfl, rfl, rfl⟩
  · split <;> exact ⟨rfl, rfl, rfl⟩

theorem lasts_commitCounters (ops : List CounterOp) (s : ScriptState) :
    s.Lasts (ops.foldl commitCounter s) := by
  induction ops generalizing s with
  | nil => exact ⟨rfl, rfl, rfl⟩
  | cons op ops ih =>
    have hop : s.Lasts (s.commitCounter op) := ⟨rfl, rfl, rfl⟩
    exact hop.trans (ih _)

theorem lasts_commit (s : ScriptState) : s.Lasts s.commit := by
  have hcleared : s.Lasts { s with staged := {} } := ⟨rfl, rfl, rfl⟩
  have hphase := lasts_commitPhase { s with staged := {} } s.staged.phase
  have hcounters := lasts_commitCounters s.staged.counters
    ({ s with staged := {} }.commitPhase s.staged.phase)
  have h := (hcleared.trans hphase).trans hcounters
  exact ⟨h.timers, h.firedOnce, h.stored⟩

end TriggerScript.ScriptState

namespace TriggerScript.Script

theorem lasts_commitState (s : Script) : s.state.Lasts s.commitState.state := by
  have h := s.state.lasts_commit
  rw [aside_commitState s]
  exact ⟨h.timers, h.firedOnce, h.stored⟩

@[simp] theorem staged_commitState (s : Script) : s.commitState.state.staged = {} := by
  rw [aside_commitState s]
  exact s.state.staged_commit

theorem despawned_commitState (s : Script) : s.commitState.despawned = s.despawned :=
  (aside_commitState s).keeps.despawned

def stages (deltaMs : UInt32) (signal : Option Signal) (s : Script) (w : World) : Progress :=
  ((s.hear deltaMs signal w).andThen (advancePolled deltaMs)).andThen (advanceLists deltaMs)

def taken (s : Script) : Script := { s with state := { s.state with deferred := [] } }

theorem keeps_taken (s : Script) : s.Keeps s.taken := ⟨rfl, rfl, rfl, rfl⟩

@[simp] theorem despawned_taken (s : Script) : s.taken.despawned = s.despawned := rfl

@[simp] theorem phase_taken (s : Script) : s.taken.state.phase = s.state.phase := rfl

def heeding (signal : Signal) (s : Script) : Script :=
  if signal.endsCombat then s.endCombat else s

theorem aside_heeding (signal : Signal) (s : Script) : s.Aside (s.heeding signal) := by
  unfold heeding
  split
  · rfl
  · exact .refl s

theorem listed_heeding {s : Script} (h : s.Listed) (signal : Signal) :
    (s.heeding signal).Listed := by
  unfold heeding
  split
  · exact listed_endCombat h
  · exact h

theorem receive_some (signal : Signal) (s : Script) (w : World) :
    s.receive (some signal) w =
      if signal.resetsScript then ((s.heeding signal).startOver w).andThen (handleSignal signal)
      else if signal = .reset then (s.heeding signal).startOver w
      else (s.heeding signal).handleSignal signal w := rfl

theorem advance_of_despawned {s : Script} (hd : s.despawned = true) (deltaMs : UInt32)
    (signal : Option Signal) (w : World) :
    s.advance deltaMs signal w = { script := s, world := w } := by
  unfold advance
  rw [if_pos hd]

theorem advance_despawn {s : Script} (hd : s.despawned = false) (deltaMs : UInt32) (w : World) :
    s.advance deltaMs (some .despawn) w = (s.handleDeferred w).andThen despawn := by
  unfold advance
  rw [if_neg (by simp [hd]), if_pos rfl]

theorem advance_eq {s : Script} (hd : s.despawned = false) (deltaMs : UInt32)
    {signal : Option Signal} (hsig : signal ≠ some .despawn) (w : World) :
    s.advance deltaMs signal w = (s.stages deltaMs signal w).andThen commit := by
  unfold advance
  rw [if_neg (by simp [hd]), if_neg hsig]
  rfl

section Walks

variable {R : Script → World → Progress → Prop} {s : Script} {w : World}

namespace HearingLaw

theorem walks_handleDeferred (L : HearingLaw R) (hs : s.Listed) :
    Walks R s.taken w (s.handleDeferred w) := by
  have ht : s.taken.Listed := hs.of_eq rfl rfl
  exact L.walks_handleSignals ht s.state.deferred

theorem walks_startOver (L : HearingLaw R) : Walks R s w (s.startOver w) := by
  have hreset : Walks R s w { script := s.resetState, world := w, journal := [.reset] } :=
    ⟨keeps_resetState s, listed_resetState s, L.renewed s w⟩
  exact L.walks_join hreset (L.walks_handleSignal hreset.listed .reset)

theorem walks_receive (L : HearingLaw R) (hs : s.Listed) (signal : Option Signal) :
    Walks R s w (s.receive signal w) := by
  cases signal with
  | none => exact L.walks_start hs
  | some signal =>
    have haside := aside_heeding signal s
    have hheeds : Walks R s w { script := s.heeding signal, world := w } :=
      ⟨haside.keeps.toKeeps, listed_heeding hs signal, L.aside w haside⟩
    rw [receive_some]
    split
    · have hover := L.walks_from hheeds L.walks_startOver
      exact L.walks_join hover (L.walks_handleSignal hover.listed signal)
    · split
      · exact L.walks_from hheeds L.walks_startOver
      · exact L.walks_from hheeds (L.walks_handleSignal hheeds.listed signal)

theorem walks_hear (L : HearingLaw R) (hs : s.Listed) (deltaMs : UInt32)
    (signal : Option Signal) : Walks R s.taken w (s.hear deltaMs signal w) := by
  have hdeferred := L.walks_handleDeferred (w := w) hs
  have hreceived := L.walks_join hdeferred (L.walks_receive hdeferred.listed signal)
  exact L.walks_join hreceived (L.walks_advanceTimedEvents hreceived.listed deltaMs)

/-- A pass up to its commit, in a law that holds of the turns of the own rules and lists, too. -/
theorem walks_stages (L : HearingLaw R) (hs : s.Listed) (deltaMs : UInt32)
    (signal : Option Signal)
    (hp : ∀ t v, s.Keeps t → t.Listed → Walks R t v (t.advancePolled deltaMs v))
    (hl : ∀ t v, s.Keeps t → t.Listed → Walks R t v (t.advanceLists deltaMs v)) :
    Walks R s.taken w (s.stages deltaMs signal w) := by
  have hhear := L.walks_hear (w := w) hs deltaMs signal
  have hpolled := L.walks_join hhear (hp _ _ ((keeps_taken s).trans hhear.keeps) hhear.listed)
  exact L.walks_join hpolled (hl _ _ ((keeps_taken s).trans hpolled.keeps) hpolled.listed)

end HearingLaw

namespace CommitLaw

theorem walks_settle (L : CommitLaw R) (hs : s.Listed) : Walks R s w (s.settle w) :=
  ⟨keeps_commitState s, listed_commitState hs, L.settled s w⟩

theorem walks_commit (L : CommitLaw R) (hs : s.Listed) : Walks R s w (s.commit w) := by
  unfold commit
  have hsettle := L.walks_settle (w := w) hs
  split
  · have hover := L.walks_join hsettle L.walks_startOver
    exact L.walks_join hover (L.walks_settle hover.listed)
  · exact hsettle

end CommitLaw

end Walks

end TriggerScript.Script
