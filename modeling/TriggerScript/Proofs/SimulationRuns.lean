import TriggerScript.Proofs.Simulations

/-!
# Runs of simulations

As long as the handles last, a handle never comes to stand for another entity, and one that was
given out and has no script does not get one again.
-/

namespace TriggerScript.Simulation

def start (store : Store) (engine : EngineConfig) : Simulation := { store, engine }

def after (s : Simulation) : List Move → Simulation
  | [] => s
  | m :: ms => (s.play m).2.after ms

def fires (s : Simulation) : List Move → List (Handle × Fired)
  | [] => []
  | m :: ms => (s.play m).1 ++ (s.play m).2.fires ms

/-- The handles do not run out: a move gives out one at most, and so does every command. -/
def HandlesLast (s : Simulation) (ms : List Move) : Prop :=
  s.world.nextHandle.toNat + ms.length + (s.after ms).world.log.length <
    UInt64.size + s.world.log.length

instance (s : Simulation) (ms : List Move) : Decidable (s.HandlesLast ms) :=
  inferInstanceAs (Decidable (_ < _))

/-- Handles of entities and of scripts were given out. -/
def Issued (s : Simulation) : Prop :=
  ∀ h, s.world.exists? h = true ∨ s.standing h ≠ .unscripted → h < s.world.nextHandle

variable {s : Simulation} {h : Handle} {m : Move} {ms ns : List Move}

theorem after_append (s : Simulation) (ms ns : List Move) :
    s.after (ms ++ ns) = (s.after ms).after ns := by
  induction ms generalizing s with
  | nil => rfl
  | cons m ms ih => exact ih (s.play m).2

theorem sound_start (store : Store) (engine : EngineConfig) : (start store engine).Sound := by
  intro h script hscript
  exact nomatch Std.ExtTreeMap.getElem?_empty.symm.trans hscript

theorem sound_play (hs : s.Sound) (m : Move) : (s.play m).2.Sound := (outcome_play hs m).sound

theorem sound_after (hs : s.Sound) (ms : List Move) : (s.after ms).Sound := by
  induction ms generalizing s with
  | nil => exact hs
  | cons m ms ih => exact ih (sound_play hs m)

theorem follows_run (hs : s.Sound) (ms : List Move) :
    ∃ cs, (s.after ms).world.log = s.world.log ++ cs ∧
      World.Follows (fun h => .despawn h ∈ ms ∨ ∃ delayMs, .despawn h delayMs ∈ cs)
        (ms.length + cs.length) s.world (s.after ms).world := by
  induction ms generalizing s with
  | nil => exact ⟨[], (List.append_nil _).symm, .refl _ _⟩
  | cons m ms ih =>
    obtain ⟨cs, hlog, hfirst⟩ := (outcome_play hs m).world
    obtain ⟨ds, hlog', hrest⟩ := ih (sound_play hs m)
    refine ⟨cs ++ ds, by rw [after, hlog', hlog, List.append_assoc], ?_⟩
    refine ((hfirst.mono ?_ (Nat.le_refl _)).trans (hrest.mono ?_ (Nat.le_refl _))).mono
      (fun _ hlost => hlost) ?_
    · rintro h (rfl | ⟨delayMs, hmem⟩)
      · exact .inl List.mem_cons_self
      · exact .inr ⟨delayMs, List.mem_append_left _ hmem⟩
    · rintro h (hmem | ⟨delayMs, hmem⟩)
      · exact .inl (List.mem_cons_of_mem _ hmem)
      · exact .inr ⟨delayMs, List.mem_append_right _ hmem⟩
    · rw [List.length_cons, List.length_append]
      omega

theorem numbered_run (hs : s.Sound) (hlast : s.HandlesLast ms) :
    ∃ n, s.world.nextHandle.toNat + n < UInt64.size ∧ World.Numbered n s.world (s.after ms).world ∧
      n + s.world.log.length = ms.length + (s.after ms).world.log.length := by
  obtain ⟨cs, hlog, hfollows⟩ := follows_run hs ms
  have hlength := congrArg List.length hlog
  rw [List.length_append] at hlength
  unfold HandlesLast at hlast
  exact ⟨ms.length + cs.length, by omega, hfollows.numbered (by omega), by omega⟩

theorem HandlesLast.append (hs : s.Sound) (hlast : s.HandlesLast (ms ++ ns)) :
    s.HandlesLast ms ∧ (s.after ms).HandlesLast ns := by
  obtain ⟨ds, hlog, -⟩ := follows_run (sound_after hs ms) ns
  have hlength := congrArg List.length hlog
  rw [List.length_append, ← after_append] at hlength
  have hfirst : s.HandlesLast ms := by
    unfold HandlesLast at hlast ⊢
    rw [List.length_append] at hlast
    omega
  obtain ⟨n, -, hnumbered, hn⟩ := numbered_run hs hfirst
  have hbound := hnumbered.bound
  refine ⟨hfirst, ?_⟩
  unfold HandlesLast at hlast ⊢
  rw [List.length_append] at hlast
  rw [← after_append]
  omega

theorem HandlesLast.cons (hs : s.Sound) (hlast : s.HandlesLast (m :: ms)) :
    s.HandlesLast [m] ∧ (s.play m).2.HandlesLast ms :=
  (show s.HandlesLast ([m] ++ ms) from hlast).append hs

theorem lt_nextHandle_after (hs : s.Sound) (hlast : s.HandlesLast ms)
    (hold : h < s.world.nextHandle) : h < (s.after ms).world.nextHandle := by
  obtain ⟨n, -, hnumbered, -⟩ := numbered_run hs hlast
  have hle := hnumbered.le
  rw [UInt64.lt_iff_toNat_lt] at hold ⊢
  omega

theorem entryOf?_after (hs : s.Sound) (hlast : s.HandlesLast ms) (hold : h < s.world.nextHandle) :
    (s.after ms).world.entryOf? h = s.world.entryOf? h ∨ (s.after ms).world.entryOf? h = none := by
  obtain ⟨n, -, hnumbered, -⟩ := numbered_run hs hlast
  exact hnumbered.entryOf? hold

theorem there_before (hs : s.Sound) (hlast : s.HandlesLast ms) (hold : h < s.world.nextHandle)
    (hthere : (s.after ms).world.exists? h = true) :
    s.world.exists? h = true ∧ (s.after ms).world.entryOf? h = s.world.entryOf? h := by
  rcases entryOf?_after hs hlast hold with hsame | hnone
  · rw [World.exists?_eq, hsame] at hthere
    exact ⟨(World.exists?_eq _ _).trans hthere, hsame⟩
  · rw [World.exists?_eq, hnone] at hthere
    cases hthere

theorem standing_play (hs : s.Sound) (m : Move) (h : Handle) :
    (s.play m).2.standing h = s.standingAfter h m := (outcome_play hs m).standing h

theorem standing_replaceStore (hs : s.Sound) (store : Store) (h : Handle) :
    (s.replaceStore store).standing h = s.standingAfter h (.replaceStore store) := by
  rw [← reload_snd]
  exact standing_play hs (.replaceStore store) h

/-- The first pass of a creature comes after its entity entered the world. -/
theorem numbered_spawn {entry : UInt32} {position : Position}
    (hlast : s.HandlesLast [.spawnCreature entry position]) :
    (s.world.spawn .creature entry position).2.nextHandle.toNat = s.world.nextHandle.toNat + 1 ∧
      ∃ n, World.Numbered n (s.world.spawn .creature entry position).2
        (s.play (.spawnCreature entry position)).2.world := by
  obtain ⟨cs, hcs⟩ := becomes_spawnCreature s entry position
  have hlog : (s.play (.spawnCreature entry position)).2.world.log = s.world.log ++ cs :=
    (congrArg World.log hcs).trans (World.log_after _ cs)
  have hroom : s.world.nextHandle.toNat + 1 +
      (s.play (.spawnCreature entry position)).2.world.log.length < UInt64.size + s.world.log.length :=
    hlast
  rw [hlog, List.length_append] at hroom
  have hnext : (s.world.spawn .creature entry position).2.nextHandle.toNat =
      s.world.nextHandle.toNat + 1 := World.toNat_succ (by omega)
  rw [hcs]
  exact ⟨hnext, cs.length, (World.follows_after _ cs).numbered (by omega)⟩

theorem nextHandle_lt_of_spawn {entry : UInt32} {position : Position}
    (hlast : s.HandlesLast [.spawnCreature entry position]) :
    s.world.nextHandle < (s.play (.spawnCreature entry position)).2.world.nextHandle := by
  obtain ⟨hnext, n, hnumbered⟩ := numbered_spawn hlast
  have hle := hnumbered.le
  rw [UInt64.lt_iff_toNat_lt]
  omega

/-- A creature may despawn in its first pass. -/
theorem entryOf?_of_spawn {entry : UInt32} {position : Position}
    (hlast : s.HandlesLast [.spawnCreature entry position]) :
    (s.play (.spawnCreature entry position)).2.world.entryOf? s.world.nextHandle = some entry ∨
      (s.play (.spawnCreature entry position)).2.world.entryOf? s.world.nextHandle = none := by
  obtain ⟨hnext, n, hnumbered⟩ := numbered_spawn hlast
  have hold : s.world.nextHandle < (s.world.spawn .creature entry position).2.nextHandle :=
    UInt64.lt_iff_toNat_lt.mpr (by omega)
  have hspawned := hnumbered.entryOf? hold
  rwa [World.entryOf?_spawn, if_pos rfl] at hspawned

/-- Only the spawn of a creature gives a script to a handle that had none. -/
theorem spawned_of_scripted (hs : s.Sound) (hbefore : s.standing h = .unscripted)
    (hafter : (s.play m).2.standing h ≠ .unscripted) :
    ∃ entry position, m = .spawnCreature entry position ∧ h = s.world.nextHandle := by
  rw [standing_play hs] at hafter
  cases m with
  | spawnCreature entry position =>
    by_cases hnew : h = s.world.nextHandle
    · exact ⟨entry, position, rfl, hnew⟩
    · simp [standingAfter, hbefore, hnew] at hafter
  | _ => simp [standingAfter, hbefore] at hafter

theorem issued_start (store : Store) (engine : EngineConfig) : (start store engine).Issued := by
  rintro h (hthere | hscripted)
  · rw [World.exists?_eq] at hthere
    cases hthere
  · exact absurd rfl hscripted

theorem issued_play (hs : s.Sound) (hissued : s.Issued) (hlast : s.HandlesLast [m]) :
    (s.play m).2.Issued := by
  obtain ⟨n, -, hnumbered, -⟩ := numbered_run hs hlast
  have hkept : ∀ h, h < s.world.nextHandle → h < (s.play m).2.world.nextHandle :=
    fun h => lt_nextHandle_after hs hlast
  rintro h (hthere | hscripted)
  · rcases hnumbered.new h hthere with hbefore | hnew
    · exact hkept h (hissued h (.inl hbefore))
    · exact hnew
  · by_cases hbefore : s.standing h = .unscripted
    · obtain ⟨entry, position, rfl, rfl⟩ := spawned_of_scripted hs hbefore hscripted
      exact nextHandle_lt_of_spawn hlast
    · exact hkept h (hissued h (.inr hbefore))

theorem issued_after (hs : s.Sound) (hissued : s.Issued) (hlast : s.HandlesLast ms) :
    (s.after ms).Issued := by
  induction ms generalizing s with
  | nil => exact hissued
  | cons m ms ih =>
    obtain ⟨hfirst, hrest⟩ := hlast.cons hs
    exact ih (sound_play hs m) (issued_play hs hissued hfirst) hrest

theorem standing_of_spawn (hs : s.Sound) (hissued : s.Issued) (entry : UInt32)
    (position : Position) :
    (s.play (.spawnCreature entry position)).2.standing s.world.nextHandle =
      if (s.store.forSpawn? .creature entry s.world.nextHandle).isSome then .live
      else .unscripted := by
  have hnew : s.standing s.world.nextHandle = .unscripted := by
    by_contra hscripted
    exact UInt64.lt_irrefl _ (hissued _ (.inr hscripted))
  rw [standing_play hs]
  simp [standingAfter, hnew]

theorem silent_play (hs : s.Sound) (hbefore : s.standing h ≠ .live)
    (hafter : (s.play m).2.standing h ≠ .live) (f : Fired) : (h, f) ∉ (s.play m).1 :=
  fun hf => ((outcome_play hs m).live h f hf).elim hbefore hafter

/-- A handle without a script that was given out stays so, and nothing fires for it. -/
theorem idle_of_unscripted (hs : s.Sound) (hlast : s.HandlesLast ms)
    (hold : h < s.world.nextHandle) (hgone : s.standing h = .unscripted) :
    (s.after ms).standing h = .unscripted ∧ ∀ f, (h, f) ∉ s.fires ms := by
  induction ms generalizing s with
  | nil => exact ⟨hgone, fun f hf => nomatch hf⟩
  | cons m ms ih =>
    obtain ⟨hfirst, hrest⟩ := hlast.cons hs
    have hstill : (s.play m).2.standing h = .unscripted := by
      rw [standing_play hs]
      unfold standingAfter
      cases m <;> simp [hgone, UInt64.ne_of_lt hold]
    obtain ⟨hend, hsilent⟩ := ih (sound_play hs m) hrest (lt_nextHandle_after hs hfirst hold) hstill
    refine ⟨hend, fun f hf => (List.mem_append.mp hf).elim ?_ (hsilent f)⟩
    exact silent_play hs (by rw [hgone]; decide) (by rw [hstill]; decide) f

end TriggerScript.Simulation
