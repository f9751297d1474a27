import TriggerScript.Proofs.Building
import TriggerScript.Proofs.SimulationRuns

/-!
# Scripts without entities

A simulation takes the script of an entity that it despawns, and a reload takes the scripts of all
entities that are gone. A command to despawn an entity takes the entity alone: its script goes on.
-/

namespace TriggerScript.Simulation

variable {s : Simulation} {h : Handle} {m : Move} {ns : List Move}

/-- Every entity with a script is there, or a command despawned it. -/
def Attended (s : Simulation) : Prop :=
  ∀ h, s.standing h ≠ .unscripted →
    s.world.exists? h = true ∨ ∃ delayMs, .despawn h delayMs ∈ s.world.log

theorem attended_start (store : Store) (engine : EngineConfig) : (start store engine).Attended :=
  fun _ hscripted => absurd rfl hscripted

/-- A creature is there after its first pass, unless a command of that pass despawned it. -/
theorem attended_of_spawn (s : Simulation) (entry : UInt32) (position : Position) :
    (s.play (.spawnCreature entry position)).2.world.exists? s.world.nextHandle = true ∨
      ∃ delayMs, .despawn s.world.nextHandle delayMs ∈
        (s.play (.spawnCreature entry position)).2.world.log := by
  obtain ⟨cs, hcs⟩ := becomes_spawnCreature s entry position
  have hthere : (s.world.spawn .creature entry position).2.exists? s.world.nextHandle = true := by
    rw [World.exists?_eq, World.entryOf?_spawn, if_pos rfl]
    rfl
  rw [hcs, World.log_after]
  exact ((World.follows_after _ cs).stays _ hthere).imp_right
    fun ⟨delayMs, hmem⟩ => ⟨delayMs, List.mem_append_right _ hmem⟩

theorem attended_play (hs : s.Sound) (hattended : s.Attended) (m : Move) :
    (s.play m).2.Attended := by
  intro h hscripted
  by_cases hbefore : s.standing h = .unscripted
  · obtain ⟨entry, position, rfl, rfl⟩ := spawned_of_scripted hs hbefore hscripted
    exact attended_of_spawn s entry position
  · obtain ⟨cs, hlog, hfollows⟩ := (outcome_play hs m).world
    rw [hlog]
    rcases hattended h hbefore with hthere | ⟨delayMs, hmem⟩
    · rcases hfollows.stays h hthere with hstill | rfl | ⟨delayMs, hmem⟩
      · exact .inl hstill
      · rw [standing_play hs] at hscripted
        simp [standingAfter] at hscripted
      · exact .inr ⟨delayMs, List.mem_append_right _ hmem⟩
    · exact .inr ⟨delayMs, List.mem_append_left _ hmem⟩

theorem attended_after (hs : s.Sound) (hattended : s.Attended) (ms : List Move) :
    (s.after ms).Attended := by
  induction ms generalizing s with
  | nil => exact hattended
  | cons m ms ih => exact ih (sound_play hs m) (attended_play hs hattended m)

/-- A live script goes when the simulation despawns its entity, or in a reload that has no rules for
it or does not find the entity. -/
theorem taken_cases (hs : s.Sound) (hlive : s.standing h = .live)
    (hgone : (s.play m).2.standing h = .unscripted) :
    m = .despawn h ∨ ∃ store, m = .replaceStore store ∧ covers store s.world h = false := by
  rw [standing_play hs] at hgone
  unfold standingAfter at hgone
  cases m with
  | despawn k =>
    by_cases hk : h = k
    · exact .inl (hk ▸ rfl)
    · simp [hlive, hk] at hgone
  | replaceStore store =>
    refine .inr ⟨store, rfl, ?_⟩
    rw [Bool.eq_false_iff]
    intro hcovers
    simp [hlive, hcovers] at hgone
  | signal k signal =>
    dsimp only at hgone
    split at hgone
    · cases hgone
    · simp [hlive] at hgone
  | _ => simp [hlive] at hgone

theorem there_of_reloaded (hs : s.Sound) {store : Store}
    (hscripted : h ∈ (s.replaceStore store).scripted) : s.world.exists? h = true := by
  rw [mem_scripted, standing_replaceStore hs] at hscripted
  have hcovers : covers store s.world h = true := by
    by_contra hcovers
    simp [standingAfter, hcovers] at hscripted
  obtain ⟨entry, hentry, -⟩ := covers_iff.mp hcovers
  rw [World.exists?_eq, hentry]
  rfl

/-- Once the simulation despawned an entity, or a reload did not find it, the handle has no entity,
no script, and nothing fires for it. -/
theorem idle_of_taken (hs : s.Sound) (hlast : s.HandlesLast (m :: ns))
    (hold : h < s.world.nextHandle)
    (hm : m = .despawn h ∨ (∃ store, m = .replaceStore store) ∧ s.world.exists? h = false) :
    (s.after (m :: ns)).world.exists? h = false ∧ h ∉ (s.after (m :: ns)).scripted ∧
      ∀ f, (h, f) ∉ (s.play m).2.fires ns := by
  obtain ⟨hfirst, hrest⟩ := hlast.cons hs
  have hs' := sound_play hs m
  have hold' := lt_nextHandle_after hs hfirst hold
  have htaken : (s.play m).2.world.exists? h = false ∧ (s.play m).2.standing h = .unscripted := by
    rcases hm with rfl | ⟨⟨store, rfl⟩, habsent⟩
    · refine ⟨exists?_play_despawn s h, ?_⟩
      rw [standing_play hs]
      simp [standingAfter]
    · constructor
      · rw [← Bool.not_eq_true]
        intro hthere
        rw [(there_before hs hfirst hold hthere).1] at habsent
        cases habsent
      · by_contra hscripted
        rw [there_of_reloaded hs (mem_scripted.mpr (reload_snd s store ▸ hscripted))] at habsent
        cases habsent
  obtain ⟨hend, hsilent⟩ := idle_of_unscripted hs' hrest hold' htaken.2
  refine ⟨?_, fun hscripted => mem_scripted.mp hscripted hend, hsilent⟩
  rw [← Bool.not_eq_true]
  intro hthere
  rw [(there_before hs' hrest hold' hthere).1] at htaken
  cases htaken.1

/-- A script outlives its entity only where a command despawned the entity, and then until a reload
or until the simulation is asked to despawn the entity. After that nothing is left of either. -/
theorem outlives_by_command_only (store : Store) (engine : EngineConfig) (ms : List Move)
    (h : Handle) :
    let s := (start store engine).after ms
    (h ∈ s.scripted →
        s.world.exists? h = true ∨ ∃ delayMs, .despawn h delayMs ∈ s.world.log) ∧
      (∀ m, s.standing h = .live → h ∉ (s.play m).2.scripted →
        m = .despawn h ∨ ∃ st, m = .replaceStore st ∧ covers st s.world h = false) ∧
      ∀ m ns, (m = .despawn h ∨ (∃ st, m = .replaceStore st) ∧ s.world.exists? h = false) →
        s.world.exists? h = true ∨ h ∈ s.scripted →
        (start store engine).HandlesLast (ms ++ m :: ns) →
          (s.after (m :: ns)).world.exists? h = false ∧ h ∉ (s.after (m :: ns)).scripted ∧
            ∀ f, (h, f) ∉ (s.play m).2.fires ns := by
  intro s
  have hstart := sound_start store engine
  have hs : s.Sound := sound_after hstart ms
  refine ⟨fun hscripted => ?_, fun m hlive hgone => ?_, fun m ns hm hknown hlast => ?_⟩
  · exact attended_after hstart (attended_start store engine) ms h (mem_scripted.mp hscripted)
  · apply taken_cases hs hlive
    by_contra hscripted
    exact hgone (mem_scripted.mpr hscripted)
  · obtain ⟨hbefore, hrest⟩ := hlast.append hstart
    have hissued := issued_after hstart (issued_start store engine) hbefore
    exact idle_of_taken hs hrest (hissued h (hknown.imp_right mem_scripted.mp)) hm

private def ghostTables : List Table :=
  [.single 100 0 4 fun row =>
      { row with
        actionKind := 67
        actionParams := #v[7, 10, 10, 0, 0, 0] },
    .single 100 0 4 fun row => { row with id := 2, actionKind := 41, targetKind := 1 },
    .single 100 0 59 fun row => { row with id := 3, eventParams := #v[7, 0, 0, 0] }]

private def ghostStore : Store := (Store.build ghostTables).1

private def ghostMoves : List Move := [.spawnCreature 100 .origin, .signal 1 (.aggro 1)]

/-- When the simulation despawns the entity before the timed event is due, the event is lost. -/
theorem nothing_fires_once_despawned :
    (start ghostStore {}).HandlesLast (ghostMoves ++ .despawn 1 :: [.tick 10]) ∧
      1 ∈ ((start ghostStore {}).after ghostMoves).scripted ∧
      ∀ f, (1, f) ∉
        (((start ghostStore {}).after ghostMoves).play (.despawn 1)).2.fires [.tick 10] := by
  have hlast : (start ghostStore {}).HandlesLast (ghostMoves ++ .despawn 1 :: [.tick 10]) := by
    decide +kernel
  have hscripted : 1 ∈ ((start ghostStore {}).after ghostMoves).scripted := by decide +kernel
  obtain ⟨-, -, hidle⟩ := outlives_by_command_only ghostStore {} ghostMoves 1
  exact ⟨hlast, hscripted, (hidle _ _ (.inl rfl) (.inr hscripted) hlast).2.2⟩

/-- The entity has left the world by its own command, and still its script is there and fires a rule
at a later tick. -/
theorem script_fires_without_entity :
    let s := (start ghostStore {}).after ghostMoves
    s.world.exists? 1 = false ∧ s.scripted = [1] ∧
      (s.tick 10).1 = [(1, ⟨.creature 100, 3, 0, 0⟩)] := by
  decide +kernel

end TriggerScript.Simulation
