import TriggerScript.Proofs.Building
import TriggerScript.Proofs.SimulationRuns

/-!
# Reloads

A reload looks at the scripts of before. So a creature has a script if every store since its spawn
had rules for it, and one that despawned gets another if the reload finds the one that it had.
-/

namespace TriggerScript.Simulation

variable {s : Simulation} {h : Handle} {entry : UInt32} {m : Move} {ns : List Move}

def Move.store? : Move → Option Store
  | .replaceStore store => some store
  | _ => none

def stores (ms : List Move) : List Store := ms.filterMap Move.store?

theorem covers_of_entryOf? {store : Store} {w : World} (hentry : w.entryOf? h = some entry) :
    covers store w h = (store.forSpawn? .creature entry h).isSome := by
  unfold covers
  rw [hentry]
  rfl

/-- A move that leaves a creature there and does not tell it to despawn takes its script if it puts
a store without rules for it in place, and gives it none. -/
theorem live_play_iff (hs : s.Sound) (hold : h < s.world.nextHandle)
    (hentry : s.world.entryOf? h = some entry) (hthere : (s.play m).2.world.exists? h = true)
    (hquiet : m ≠ .signal h .despawn) (hlife : s.standing h ≠ .retired) :
    (s.play m).2.standing h ≠ .retired ∧
      ((s.play m).2.standing h = .live ↔
        s.standing h = .live ∧
          ∀ store ∈ m.store?, (store.forSpawn? .creature entry h).isSome = true) := by
  rw [standing_play hs]
  cases m with
  | spawnCreature entry' position =>
    simp [standingAfter, Move.store?, UInt64.ne_of_lt hold, hlife]
  | spawnPlayer position => simp [standingAfter, Move.store?, hlife]
  | signal k signal =>
    have hother : ¬(h = k ∧ signal = .despawn ∧ s.standing h ≠ .unscripted) := by
      rintro ⟨rfl, rfl, -⟩
      exact hquiet rfl
    simp only [standingAfter, if_neg hother]
    simp [Move.store?, hlife]
  | tick deltaMs => simp [standingAfter, Move.store?, hlife]
  | forceFire k id => simp [standingAfter, Move.store?, hlife]
  | despawn k =>
    have hother : h ≠ k := by
      rintro rfl
      rw [exists?_play_despawn] at hthere
      cases hthere
    simp [standingAfter, Move.store?, hother, hlife]
  | replaceStore store =>
    have hlive := mem_scripted.symm.trans (mem_scripted_iff_live hlife)
    simp only [standingAfter, Move.store?, covers_of_entryOf? hentry, hlive]
    split <;> simp_all

theorem live_after_iff (hs : s.Sound) (hlast : s.HandlesLast ns) (hold : h < s.world.nextHandle)
    (hentry : s.world.entryOf? h = some entry) (hthere : (s.after ns).world.exists? h = true)
    (hquiet : .signal h .despawn ∉ ns) (hlife : s.standing h ≠ .retired) :
    (s.after ns).standing h ≠ .retired ∧
      ((s.after ns).standing h = .live ↔
        s.standing h = .live ∧
          ∀ store ∈ stores ns, (store.forSpawn? .creature entry h).isSome = true) := by
  induction ns generalizing s with
  | nil => simp [after, stores, hlife]
  | cons m ns ih =>
    obtain ⟨hfirst, hrest⟩ := hlast.cons hs
    have hs' := sound_play hs m
    have hold' := lt_nextHandle_after hs hfirst hold
    obtain ⟨hthere', -⟩ := there_before hs' hrest hold' hthere
    have hkept : (s.play m).2.world.entryOf? h = some entry :=
      (there_before hs hfirst hold hthere').2.trans hentry
    rw [List.mem_cons, not_or] at hquiet
    obtain ⟨hlife', hstep⟩ :=
      live_play_iff hs hold hentry hthere' (Ne.symm hquiet.1) hlife
    obtain ⟨hend, hlive⟩ := ih hs' hrest hold' hkept hthere hquiet.2 hlife'
    refine ⟨hend, hlive.trans ?_⟩
    rw [hstep, and_assoc]
    unfold stores
    rw [List.filterMap_cons]
    cases m.store? with
    | none => simp
    | some store => simp

theorem scripted_after_spawn_iff (hs : s.Sound) (hissued : s.Issued) {position : Position}
    (hlast : s.HandlesLast (.spawnCreature entry position :: ns))
    (hthere :
      (s.after (.spawnCreature entry position :: ns)).world.exists? s.world.nextHandle = true)
    (hquiet : .signal s.world.nextHandle .despawn ∉ ns) :
    (s.world.nextHandle ∈ (s.after (.spawnCreature entry position :: ns)).scripted ↔
        ∀ st ∈ s.store :: stores ns,
          (st.forSpawn? .creature entry s.world.nextHandle).isSome = true) ∧
      ∀ st : Store,
        s.world.nextHandle ∈
            ((s.after (.spawnCreature entry position :: ns)).replaceStore st).scripted ↔
          s.world.nextHandle ∈ (s.after (.spawnCreature entry position :: ns)).scripted ∧
            (st.forSpawn? .creature entry s.world.nextHandle).isSome = true := by
  obtain ⟨hspawn, hlater⟩ := hlast.cons hs
  have hspawned := sound_play hs (.spawnCreature entry position)
  have hold := nextHandle_lt_of_spawn hspawn
  have hstanding := standing_of_spawn hs hissued entry position
  have hlife : (s.play (.spawnCreature entry position)).2.standing s.world.nextHandle ≠
      .retired := by
    rw [hstanding]
    split <;> decide
  obtain ⟨hpresent, hkept⟩ := there_before hspawned hlater hold hthere
  have hentry : (s.play (.spawnCreature entry position)).2.world.entryOf? s.world.nextHandle =
      some entry := by
    rcases entryOf?_of_spawn hspawn with hsome | hnone
    · exact hsome
    · rw [World.exists?_eq, hnone] at hpresent
      cases hpresent
  obtain ⟨hend, hlive⟩ := live_after_iff hspawned hlater hold hentry hthere hquiet hlife
  refine ⟨?_, fun st => ?_⟩
  · refine (mem_scripted_iff_live hend).trans (hlive.trans ?_)
    rw [hstanding, List.forall_mem_cons]
    apply and_congr_left'
    cases (s.store.forSpawn? .creature entry s.world.nextHandle).isSome <;> decide
  · rw [mem_scripted, mem_scripted, standing_replaceStore (sound_after hs _),
      ← covers_of_entryOf? (hkept.trans hentry)]
    unfold standingAfter
    dsimp only
    split <;> simp_all [after]

/-- A creature that is there and was not told to despawn has a script if and only if the store at
its spawn and every store since have rules for it. A reload gives scripts to those only that have
one. -/
theorem scripted_iff_always_covered (store : Store) (engine : EngineConfig) (ms ns : List Move)
    (entry : UInt32) (position : Position)
    (hlast : (start store engine).HandlesLast (ms ++ .spawnCreature entry position :: ns))
    (hthere : ((start store engine).after
      (ms ++ .spawnCreature entry position :: ns)).world.exists?
        ((start store engine).after ms).world.nextHandle = true)
    (hquiet : .signal ((start store engine).after ms).world.nextHandle .despawn ∉ ns) :
    let s := (start store engine).after ms
    let h := s.world.nextHandle
    let t := (start store engine).after (ms ++ .spawnCreature entry position :: ns)
    (h ∈ t.scripted ↔
        ∀ st ∈ s.store :: stores ns, (st.forSpawn? .creature entry h).isSome = true) ∧
      ∀ st : Store, h ∈ (t.replaceStore st).scripted ↔
        h ∈ t.scripted ∧ (st.forSpawn? .creature entry h).isSome = true := by
  have hstart := sound_start store engine
  obtain ⟨hbefore, hrest⟩ := hlast.append hstart
  rw [after_append] at hthere
  simp only [after_append]
  exact scripted_after_spawn_iff (sound_after hstart ms)
    (issued_after hstart (issued_start store engine) hbefore) hrest hthere hquiet

private def lairStore : Store := (Store.build [.single 100 0 4 id]).1

private def lairBirth : Move := .spawnCreature 100 .origin

private def lairMoves : List Move := [.tick 10, .replaceStore lairStore, .tick 10]

/-- The creature comes after a player, and its rules are loaded again. -/
theorem reloaded_creature_keeps_script :
    (start lairStore {}).HandlesLast ([.spawnPlayer .origin] ++ lairBirth :: lairMoves) ∧
      2 ∈ ((start lairStore {}).after
        ([.spawnPlayer .origin] ++ lairBirth :: lairMoves)).scripted := by
  have hlast : (start lairStore {}).HandlesLast
      ([.spawnPlayer .origin] ++ lairBirth :: lairMoves) := by decide +kernel
  have hquiet : .signal ((start lairStore {}).after [.spawnPlayer .origin]).world.nextHandle
      .despawn ∉ lairMoves := by
    simp [lairMoves]
  obtain ⟨hscripted, -⟩ := scripted_iff_always_covered lairStore {} [.spawnPlayer .origin]
    lairMoves 100 .origin hlast (by decide +kernel) hquiet
  exact ⟨hlast, hscripted.mpr (by decide +kernel)⟩

/-- Rules that are gone and come back give no script back, though the creature is there and was not
told to despawn. -/
theorem restored_rules_give_no_script :
    let born := ((start lairStore {}).spawnCreature 100 .origin).2.2
    let s := (born.replaceStore ∅).replaceStore lairStore
    s.world.entryOf? 1 = some 100 ∧ (s.store.forSpawn? .creature 100 1).isSome = true ∧
      1 ∉ s.scripted := by
  decide +kernel

/-- Whether a move takes the script of a handle away once it is retired. -/
def Move.settles (h : Handle) : Move → Bool
  | .tick _ | .replaceStore _ => true
  | .despawn k => k == h
  | _ => false

/-- A reload with rules for the handle comes while its retired script is still there. -/
def Revives (s : Simulation) (h : Handle) (ns : List Move) : Prop :=
  s.standing h = .retired ∧
    ∃ before store later, ns = before ++ .replaceStore store :: later ∧
      before.any (·.settles h) = false ∧ covers store (s.after before).world h = true

theorem retired_play (hs : s.Sound) (hold : h < s.world.nextHandle)
    (hretired : s.standing h = .retired)
    (hdead : ∀ store, m = .replaceStore store → covers store s.world h = false) :
    (s.play m).2.standing h = if m.settles h then .unscripted else .retired := by
  rw [standing_play hs]
  unfold standingAfter
  cases m with
  | spawnCreature entry position => simp [Move.settles, hretired, UInt64.ne_of_lt hold]
  | replaceStore store => simp [Move.settles, hdead store rfl]
  | despawn k => simp [Move.settles, hretired, eq_comm (a := h)]
  | _ => simp [Move.settles, hretired]

/-- A retired script stays as it is until it is taken away, and nothing fires for it. -/
theorem retired_after (hs : s.Sound) (hlast : s.HandlesLast ns) (hold : h < s.world.nextHandle)
    (hretired : s.standing h = .retired) (hdead : ¬s.Revives h ns) :
    (s.after ns).standing h = (if ns.any (·.settles h) then .unscripted else .retired) ∧
      ∀ f, (h, f) ∉ s.fires ns := by
  induction ns generalizing s with
  | nil => exact ⟨hretired, fun f hf => nomatch hf⟩
  | cons m ns ih =>
    obtain ⟨hfirst, hrest⟩ := hlast.cons hs
    have hs' := sound_play hs m
    have hold' := lt_nextHandle_after hs hfirst hold
    have hstep : (s.play m).2.standing h = if m.settles h then .unscripted else .retired := by
      refine retired_play hs hold hretired fun store hm => ?_
      rw [Bool.eq_false_iff]
      exact fun hcovers => hdead ⟨hretired, [], store, ns, by rw [hm]; rfl, rfl, hcovers⟩
    have hsilent : ∀ f, (h, f) ∉ (s.play m).1 := by
      refine silent_play hs (by rw [hretired]; decide) ?_
      rw [hstep]
      split <;> decide
    have hend : (s.after (m :: ns)).standing h =
        (if (m :: ns).any (·.settles h) then .unscripted else .retired) ∧
          ∀ f, (h, f) ∉ (s.play m).2.fires ns := by
      rw [List.any_cons]
      cases hsettles : m.settles h with
      | true =>
        rw [hsettles] at hstep
        exact idle_of_unscripted hs' hrest hold' hstep
      | false =>
        rw [hsettles] at hstep
        refine ih hs' hrest hold' hstep ?_
        rintro ⟨-, before, store, later, rfl, hwait, hcovers⟩
        refine hdead ⟨hretired, m :: before, store, later, rfl, ?_, hcovers⟩
        rw [List.any_cons, hsettles, hwait]
        rfl
    exact ⟨hend.1, fun f hf => (List.mem_append.mp hf).elim (hsilent f) (hend.2 f)⟩

theorem live_of_revives (hs : s.Sound) (hlast : s.HandlesLast ns) (hold : h < s.world.nextHandle)
    (hrevives : s.Revives h ns) :
    ∃ before, before <+: ns ∧ (s.after before).standing h = .live := by
  obtain ⟨hretired, before, store, later, rfl, hwait, hcovers⟩ := hrevives
  refine ⟨before ++ [.replaceStore store], ⟨later, by simp⟩, ?_⟩
  have hstill : (s.after before).standing h = .retired := by
    refine (retired_after hs (hlast.append hs).1 hold hretired ?_).1.trans (by rw [hwait]; rfl)
    rintro ⟨-, early, other, rest, rfl, -, -⟩
    simp [Move.settles] at hwait
  rw [after_append]
  refine (standing_play (sound_after hs before) (.replaceStore store) h).trans ?_
  simp [standingAfter, hstill, hcovers]

/-- Nothing fires for a creature that despawned and it gets no live script, unless a reload with
rules for it comes before the script that it had is taken away. That is so at the next tick, and at
once if the entity is despawned. -/
theorem silent_unless_revived (store : Store) (engine : EngineConfig) (ms ns : List Move)
    (h : Handle) (m : Move) (hm : m = .signal h .despawn ∨ m = .despawn h)
    (hlast : (start store engine).HandlesLast (ms ++ m :: ns))
    (hscripted : h ∈ ((start store engine).after ms).scripted) :
    let s := (start store engine).after (ms ++ [m])
    (s.Revives h ns → ∃ before, before <+: ns ∧ (s.after before).standing h = .live) ∧
      (¬s.Revives h ns →
        (s.after ns).standing h ≠ .live ∧
          (h ∈ (s.after ns).scripted ↔
            m = .signal h .despawn ∧ ns.any (·.settles h) = false) ∧
          ∀ f, (h, f) ∉ s.fires ns) ∧
      (m = .despawn h → ¬s.Revives h ns) := by
  have hstart := sound_start store engine
  obtain ⟨hbefore, hrest⟩ := hlast.append hstart
  have hs := sound_after hstart ms
  obtain ⟨hfirst, hlater⟩ := hrest.cons hs
  rw [mem_scripted] at hscripted
  intro s
  have hs' : s = (((start store engine).after ms).play m).2 := after_append _ ms [m]
  have hold : h < s.world.nextHandle := by
    rw [hs']
    exact lt_nextHandle_after hs hfirst
      (issued_after hstart (issued_start store engine) hbefore h (.inr hscripted))
  rw [← hs'] at hlater
  have hsound : s.Sound := hs' ▸ sound_play hs m
  -- A script that is told to despawn is there until it is taken away; an entity takes it along.
  rcases hm with rfl | rfl
  · have hretired : s.standing h = .retired := by
      rw [hs', standing_play hs]
      simp [standingAfter, hscripted]
    refine ⟨live_of_revives hsound hlater hold, fun hdead => ?_, fun hm => by cases hm⟩
    obtain ⟨hend, hsilent⟩ := retired_after hsound hlater hold hretired hdead
    rw [mem_scripted, hend]
    refine ⟨?_, ?_, hsilent⟩
    · split <;> decide
    · cases ns.any (·.settles h) <;> simp
  · have hgone : s.standing h = .unscripted := by
      rw [hs', standing_play hs]
      simp [standingAfter]
    have hdead : ¬s.Revives h ns := by
      rintro ⟨hretired, -⟩
      rw [hgone] at hretired
      cases hretired
    obtain ⟨hend, hsilent⟩ := idle_of_unscripted hsound hlater hold hgone
    refine ⟨fun hrevives => absurd hrevives hdead, fun _ => ?_, fun _ => hdead⟩
    rw [mem_scripted, hend]
    exact ⟨by decide, by simp, hsilent⟩

private def lairFarewell : Move := .signal 1 .despawn

/-- After a tick, a reload gives nothing to a creature that despawned. -/
theorem despawned_creature_stays_gone :
    (start lairStore {}).HandlesLast
        ([lairBirth] ++ lairFarewell :: [.tick 10, .replaceStore lairStore]) ∧
      1 ∈ ((start lairStore {}).after [lairBirth]).scripted ∧
      1 ∉ (((start lairStore {}).after ([lairBirth] ++ [lairFarewell])).after
        [.tick 10, .replaceStore lairStore]).scripted := by
  have hlast : (start lairStore {}).HandlesLast
      ([lairBirth] ++ lairFarewell :: [.tick 10, .replaceStore lairStore]) := by decide +kernel
  have hscripted : 1 ∈ ((start lairStore {}).after [lairBirth]).scripted := by decide +kernel
  obtain ⟨-, hdead, -⟩ := silent_unless_revived lairStore {} [lairBirth]
    [.tick 10, .replaceStore lairStore] 1 lairFarewell (.inl rfl) hlast hscripted
  obtain ⟨-, hgone, -⟩ := hdead <| by
    rintro ⟨-, before, store, later, hmoves, hwait, -⟩
    cases before with
    | nil => cases hmoves
    | cons m before =>
      obtain ⟨rfl, -⟩ := List.cons.inj hmoves
      cases hwait
  refine ⟨hlast, hscripted, fun hstill => ?_⟩
  cases (hgone.mp hstill).2

/-- A reload that comes at once gives a creature that despawned another script, and its rules fire
again; after a tick the same reload does not. -/
theorem reload_revives_despawned :
    let s := (start lairStore {}).after [lairBirth, lairFarewell]
    s.scripted = [1] ∧ (s.replaceStore lairStore).scripted = [1] ∧
      (s.fires [.replaceStore lairStore, .signal 1 (.aggro 2)]).map (·.1) = [1] ∧
      ((s.tick 10).2.replaceStore lairStore).scripted = [] := by
  decide +kernel

end TriggerScript.Simulation
