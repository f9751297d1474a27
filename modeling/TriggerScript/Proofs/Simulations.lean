import TriggerScript.Proofs.Despawning
import TriggerScript.Proofs.Entities
import TriggerScript.Simulation

/-!
# Simulations

A host drives a simulation by moves. Whether a handle has a script after a move, and whether the
life of that script is over, depends on the move, the rules and the world before it, and not on what
the scripts do in it. Rules fire only for handles that have a live script before or after the move.
-/

namespace TriggerScript

namespace Script

variable {s : Script} {w : World} {op : Operation}

theorem world_lifeLaw : LifeLaw fun _ w p => w.Becomes p.world where
  join _ h h' := h.trans h'
  aside w _ := .refl w
  shot {s set forced rule} w o depth _ _ _ _ := becomes_shoot set o depth forced rule s w
  timed _ w _ _ := .refl w
  noted _ w _ _ _ := .refl w
  taken _ w := .refl w
  renewed _ w := .refl w
  settled _ w := .refl w
  retired _ w := .refl w

theorem becomes_operate (hs : s.Reachable) (w : World) (op : Operation) :
    w.Becomes (s.operate w op).world :=
  world_lifeLaw.operate hs.sound.listed w op

theorem despawned_operate (hs : s.Reachable) (w : World) (op : Operation) :
    (s.operate w op).script.despawned = (s.despawned || op.endsLife) := by
  cases hd : s.despawned with
  | true =>
    rw [operate_of_despawned hd, hd]
    rfl
  | false =>
    cases hop : op.endsLife with
    | true => exact (retired_of_endsLife hs.sound.listed hd hs.undeferred hop).1.despawned
    | false => exact (alive_of_not_endsLife hs.sound.listed hd hs.undeferred hop).1

theorem fired_of_despawned (hd : s.despawned = true) (w : World) (op : Operation) :
    (s.operate w op).fired = [] := by
  rw [operate_of_despawned hd]
  rfl

theorem operate_of_forceFire? {id : RuleId} {p : Progress} (h : s.forceFire? id w = some p) :
    s.operate w (.forceFire id) = p := by
  show (s.forceFire? id w).getD { script := s, world := w } = p
  rw [h, Option.getD_some]

theorem despawned_create (owner : Handle) (rules : RuleSet) (store : Store)
    (config : EngineConfig) : (create owner rules store config).despawned = false := by
  unfold create fresh
  rw [initTimers_eq]

end Script

namespace Simulation

inductive Move where
  | spawnCreature (entry : UInt32) (position : Position)
  | spawnPlayer (position : Position)
  | signal (h : Handle) (signal : Signal)
  | tick (deltaMs : UInt32)
  | forceFire (h : Handle) (id : RuleId)
  | despawn (h : Handle)
  | replaceStore (store : Store)

def reportFor (h : Handle) (r : List Fired × Simulation) : List (Handle × Fired) × Simulation :=
  (r.1.map (h, ·), r.2)

def remaining (s : Simulation) : List (Handle × UInt32) :=
  s.scripted.filterMap fun h => (s.world.info? h).map fun e => (h, e.entry)

def renew (q : List (Handle × Fired) × Simulation) (x : Handle × UInt32) :
    List (Handle × Fired) × Simulation :=
  let (own, s) := q.2.attach x.1 x.2
  (q.1 ++ own.map (x.1, ·), s)

def reload (s : Simulation) (store : Store) : List (Handle × Fired) × Simulation :=
  s.remaining.foldl renew ([], { s with store, scripts := ∅ })

theorem reload_snd (s : Simulation) (store : Store) :
    (s.reload store).2 = s.replaceStore store := by
  unfold reload replaceStore
  exact (List.foldl_hom Prod.snd fun _ _ => rfl).symm

def play (s : Simulation) : Move → List (Handle × Fired) × Simulation
  | .spawnCreature entry position =>
      let spawned := s.spawnCreature entry position
      reportFor spawned.1 spawned.2
  | .spawnPlayer position => ([], (s.spawnPlayer position).2)
  | .signal h signal => (s.signal? h signal).elim ([], s) (reportFor h)
  | .tick deltaMs => s.tick deltaMs
  | .forceFire h id => (s.forceFire? h id).elim ([], s) (reportFor h)
  | .despawn h => reportFor h (s.despawn h)
  | .replaceStore store => s.reload store

inductive Standing where
  | unscripted
  | live
  | retired
deriving DecidableEq

def Standing.ofDespawned (despawned : Bool) : Standing := if despawned then .retired else .live

def standing (s : Simulation) (h : Handle) : Standing :=
  (s.script? h).elim .unscripted fun script => .ofDespawned script.despawned

def covers (store : Store) (w : World) (h : Handle) : Bool :=
  (w.entryOf? h).any fun entry => (store.forSpawn? .creature entry h).isSome

theorem covers_iff {store : Store} {w : World} {h : Handle} :
    covers store w h = true ↔
      ∃ entry, w.entryOf? h = some entry ∧ (store.forSpawn? .creature entry h).isSome = true := by
  unfold covers
  cases w.entryOf? h <;> simp

/-- The standing of a handle after a move. -/
def standingAfter (s : Simulation) (h : Handle) : Move → Standing
  | .spawnCreature entry _ =>
      if h = s.world.nextHandle ∧ (s.store.forSpawn? .creature entry h).isSome then .live
      else s.standing h
  | .signal k signal =>
      if h = k ∧ signal = .despawn ∧ s.standing h ≠ .unscripted then .retired else s.standing h
  | .tick _ => if s.standing h = .retired then .unscripted else s.standing h
  | .despawn k => if h = k then .unscripted else s.standing h
  | .replaceStore store =>
      if s.standing h ≠ .unscripted ∧ covers store s.world h then .live else .unscripted
  | .spawnPlayer _ | .forceFire .. => s.standing h

def Sound (s : Simulation) : Prop := ∀ h script, s.script? h = some script → script.Reachable

variable {s : Simulation} {h k : Handle} {script : Script}

theorem standing_of_script? (hscript : s.script? h = some script) :
    s.standing h = .ofDespawned script.despawned := by
  unfold standing
  rw [hscript]
  rfl

theorem standing_eq_unscripted_iff : s.standing h = .unscripted ↔ s.script? h = none := by
  cases hscript : s.script? h with
  | none => simp [standing, hscript]
  | some script =>
    rw [standing_of_script? hscript]
    cases script.despawned <;> simp [Standing.ofDespawned]

theorem mem_scripted : h ∈ s.scripted ↔ s.standing h ≠ .unscripted := by
  unfold scripted
  rw [Std.ExtTreeMap.mem_keys, Std.ExtTreeMap.mem_iff_isSome_getElem?, Ne,
    standing_eq_unscripted_iff, ← Ne, Option.ne_none_iff_isSome]
  rfl

theorem mem_scripted_iff_live (hlife : s.standing h ≠ .retired) :
    h ∈ s.scripted ↔ s.standing h = .live := by
  rw [mem_scripted]
  cases hstanding : s.standing h with
  | retired => exact absurd hstanding hlife
  | unscripted | live => decide

theorem script?_update (s : Simulation) (h : Handle) (p : Progress) (k : Handle) :
    (s.update h p).2.script? k = if k = h then some p.script else s.script? k := by
  unfold script? update
  dsimp only
  rw [Std.ExtTreeMap.getElem?_insert]
  by_cases hk : k = h
  · simp [hk]
  · simp [hk, Ne.symm hk]

theorem standing_update (s : Simulation) (h : Handle) (p : Progress) (k : Handle) :
    (s.update h p).2.standing k =
      if k = h then .ofDespawned p.script.despawned else s.standing k := by
  unfold standing
  rw [script?_update]
  by_cases hk : k = h <;> simp [hk]

structure Ran (s t : Simulation) : Prop where
  store : t.store = s.store
  sound : s.Sound → t.Sound
  world : s.world.Becomes t.world

theorem Ran.refl (s : Simulation) : s.Ran s := ⟨rfl, id, .refl _⟩

theorem Ran.trans {s t u : Simulation} (h : s.Ran t) (h' : t.Ran u) : s.Ran u :=
  ⟨h'.store.trans h.store, h'.sound ∘ h.sound, h.world.trans h'.world⟩

theorem ran_update (hs : script.Reachable) (h : Handle) (op : Operation) :
    s.Ran (s.update h (script.operate s.world op)).2 := by
  refine ⟨rfl, fun hsound => ?_, Script.becomes_operate hs s.world op⟩
  intro k other hother
  rw [script?_update] at hother
  split at hother
  · cases hother
    exact hs.operate s.world op
  · exact hsound k other hother

theorem standing_operate (hs : s.Sound) (hscript : s.script? h = some script) (op : Operation)
    (k : Handle) :
    (s.update h (script.operate s.world op)).2.standing k =
      if k = h ∧ op.endsLife then .retired else s.standing k := by
  rw [standing_update, Script.despawned_operate (hs h script hscript)]
  by_cases hk : k = h
  · subst hk
    rw [if_pos rfl, standing_of_script? hscript]
    cases script.despawned <;> cases op.endsLife <;> simp [Standing.ofDespawned]
  · simp [hk]

theorem live_of_mem_fired (hscript : s.script? h = some script) {op : Operation} {f : Fired}
    (hf : f ∈ (script.operate s.world op).fired) : s.standing h = .live := by
  cases hd : script.despawned with
  | true =>
    rw [Script.fired_of_despawned hd] at hf
    cases hf
  | false =>
    rw [standing_of_script? hscript, hd]
    rfl

/-- Why an entity may leave the world in a move in which some commands are performed. -/
def Lost (m : Move) (cs : List Command) (h : Handle) : Prop :=
  m = .despawn h ∨ ∃ delayMs, .despawn h delayMs ∈ cs

structure Outcome (s : Simulation) (m : Move) (q : List (Handle × Fired) × Simulation) : Prop where
  sound : q.2.Sound
  standing : ∀ h, q.2.standing h = s.standingAfter h m
  live : ∀ h f, (h, f) ∈ q.1 → s.standing h = .live ∨ q.2.standing h = .live
  world : ∃ cs, q.2.world.log = s.world.log ++ cs ∧
    World.Follows (Lost m cs) (1 + cs.length) s.world q.2.world

theorem follows_of_becomes {w v : World} (hw : w.Becomes v) (m : Move) :
    ∃ cs, v.log = w.log ++ cs ∧ World.Follows (Lost m cs) (1 + cs.length) w v := by
  obtain ⟨cs, rfl⟩ := hw
  exact ⟨cs, World.log_after w cs,
    (World.follows_after w cs).mono (fun _ hlost => .inr hlost) (Nat.le_add_left _ 1)⟩

theorem mem_reportFor {r : List Fired × Simulation} {f : Fired} :
    (k, f) ∈ (reportFor h r).1 ↔ k = h ∧ f ∈ r.1 := by
  unfold reportFor
  rw [List.mem_map]
  constructor
  · rintro ⟨x, hx, heq⟩
    cases heq
    exact ⟨rfl, hx⟩
  · rintro ⟨rfl, hf⟩
    exact ⟨f, hf, rfl⟩

theorem outcome_of_idle (hs : s.Sound) {m : Move}
    (hstanding : ∀ h, s.standingAfter h m = s.standing h) : Outcome s m ([], s) where
  sound := hs
  standing h := (hstanding h).symm
  live _ _ hf := nomatch hf
  world := follows_of_becomes (.refl _) m

theorem outcome_of_operate (hs : s.Sound) (hscript : s.script? h = some script) {m : Move}
    (op : Operation)
    (hstanding : ∀ k,
      s.standingAfter k m = if k = h ∧ op.endsLife then .retired else s.standing k) :
    Outcome s m (reportFor h (s.update h (script.operate s.world op))) := by
  have hran := ran_update (s := s) (hs h script hscript) h op
  refine ⟨hran.sound hs, fun k => ?_, fun k f hf => .inl ?_, follows_of_becomes hran.world m⟩
  · rw [hstanding]
    exact standing_operate hs hscript op k
  · obtain ⟨rfl, hf⟩ := mem_reportFor.mp hf
    exact live_of_mem_fired hscript hf

theorem outcome_spawnPlayer (hs : s.Sound) (position : Position) :
    Outcome s (.spawnPlayer position) (s.play (.spawnPlayer position)) where
  sound := hs
  standing _ := rfl
  live _ _ hf := nomatch hf
  world :=
    ⟨[], (List.append_nil _).symm, (s.world.effect_spawn .player 0 position _).follows⟩

theorem outcome_signal (hs : s.Sound) (h : Handle) (signal : Signal) :
    Outcome s (.signal h signal) (s.play (.signal h signal)) := by
  cases hscript : s.script? h with
  | none =>
    have hplay : s.play (.signal h signal) = ([], s) := by simp [play, signal?, hscript]
    rw [hplay]
    refine outcome_of_idle hs fun k => ?_
    unfold standingAfter
    by_cases hk : k = h
    · simp [hk, standing_eq_unscripted_iff.mpr hscript]
    · simp [hk]
  | some script =>
    have hplay : s.play (.signal h signal) =
        reportFor h (s.update h (script.operate s.world (.advance 0 (some signal)))) := by
      simp only [play, signal?, hscript, Option.map_some, Option.elim_some]
      rfl
    rw [hplay]
    refine outcome_of_operate hs hscript _ fun k => ?_
    have hscripted : s.standing h ≠ .unscripted := by
      rw [Ne, standing_eq_unscripted_iff, hscript]
      simp
    unfold standingAfter Operation.endsLife
    by_cases hk : k = h
    · simp [hk, hscripted]
    · simp [hk]

theorem outcome_forceFire (hs : s.Sound) (h : Handle) (id : RuleId) :
    Outcome s (.forceFire h id) (s.play (.forceFire h id)) := by
  cases hforce : (s.script? h).bind fun script => script.forceFire? id s.world with
  | none =>
    have hplay : s.play (.forceFire h id) = ([], s) := by simp [play, forceFire?, hforce]
    rw [hplay]
    exact outcome_of_idle hs fun _ => rfl
  | some p =>
    obtain ⟨script, hscript, hp⟩ := Option.bind_eq_some_iff.mp hforce
    have hplay : s.play (.forceFire h id) =
        reportFor h (s.update h (script.operate s.world (.forceFire id))) := by
      rw [Script.operate_of_forceFire? hp]
      simp [play, forceFire?, hforce]
    rw [hplay]
    exact outcome_of_operate hs hscript _ fun k => by simp [standingAfter, Operation.endsLife]

theorem script?_erase (s : Simulation) (w : World) (h k : Handle) :
    ({ s with world := w, scripts := s.scripts.erase h } : Simulation).script? k =
      if k = h then none else s.script? k := by
  unfold script?
  rw [Std.ExtTreeMap.getElem?_erase]
  by_cases hk : k = h
  · simp [hk]
  · simp [hk, Ne.symm hk]

theorem follows_of_removed {w v : World} (hw : w.Becomes v) (h : Handle) :
    ∃ cs, (v.remove h).log = w.log ++ cs ∧
      World.Follows (Lost (.despawn h) cs) (1 + cs.length) w (v.remove h) := by
  obtain ⟨cs, rfl⟩ := hw
  refine ⟨cs, World.log_after _ cs, ?_⟩
  have hcommands : World.Follows (Lost (.despawn h) cs) cs.length w (w.after cs) :=
    (World.follows_after w cs).mono (fun _ hlost => .inr hlost) (Nat.le_refl _)
  have hgone : World.Follows (Lost (.despawn h) cs) 1 (w.after cs) ((w.after cs).remove h) :=
    (World.effect_remove _ h).follows.mono (fun _ hk => .inl (hk ▸ rfl)) (Nat.zero_le _)
  rw [Nat.add_comm]
  exact hcommands.trans hgone

theorem outcome_despawn (hs : s.Sound) (h : Handle) :
    Outcome s (.despawn h) (s.play (.despawn h)) := by
  show Outcome s (.despawn h) (reportFor h (s.despawn h))
  cases hscript : s.script? h with
  | none =>
    have hdespawn : s.despawn h = ([], { s with world := s.world.remove h }) := by
      simp [despawn, hscript]
    rw [hdespawn]
    refine ⟨hs, fun k => ?_, fun k f hf => ?_, follows_of_removed (.refl _) h⟩
    · show s.standing k = if k = h then .unscripted else s.standing k
      by_cases hk : k = h
      · rw [if_pos hk, hk]
        exact standing_eq_unscripted_iff.mpr hscript
      · rw [if_neg hk]
    · cases (mem_reportFor.mp hf).2
  | some script =>
    have hreach := hs h script hscript
    have hdespawn : s.despawn h =
        ((script.operate s.world .despawn).fired,
          { s with
            world := (script.operate s.world .despawn).world.remove h
            scripts := s.scripts.erase h }) := by
      simp only [despawn, hscript]
      rfl
    rw [hdespawn]
    refine ⟨fun k other hother => ?_, fun k => ?_, fun k f hf => .inl ?_,
      follows_of_removed (Script.becomes_operate hreach _ _) h⟩
    · have hother := (script?_erase s _ h k).symm.trans hother
      split at hother
      · cases hother
      · exact hs k other hother
    · unfold standing standingAfter
      simp only [reportFor]
      rw [script?_erase]
      by_cases hk : k = h <;> simp [hk, standing]
    · obtain ⟨rfl, hf⟩ := mem_reportFor.mp hf
      exact live_of_mem_fired hscript hf

theorem exists?_play_despawn (s : Simulation) (h : Handle) :
    (s.play (.despawn h)).2.world.exists? h = false := by
  show (s.despawn h).2.world.exists? h = false
  unfold despawn
  split <;> rw [World.exists?_eq, World.entryOf?_remove, if_pos rfl] <;> rfl

def turn (deltaMs : UInt32) (q : List (Handle × Fired) × Simulation) (h : Handle) :
    List (Handle × Fired) × Simulation :=
  match q.2.script? h with
  | none => q
  | some script =>
      let (own, s) := q.2.update h (script.advance deltaMs none q.2.world)
      (q.1 ++ own.map (h, ·), s)

def prune (s : Simulation) : Simulation :=
  { s with scripts := s.scripts.filter fun _ script => !script.despawned }

theorem tick_eq (s : Simulation) (deltaMs : UInt32) :
    s.tick deltaMs =
      ((s.scripted.foldl (turn deltaMs) ([], s)).1,
        { (s.scripted.foldl (turn deltaMs) ([], s)).2.prune with
          clockMs := (s.scripted.foldl (turn deltaMs) ([], s)).2.clockMs + deltaMs.toUInt64 }) :=
  rfl

theorem script?_prune (s : Simulation) (h : Handle) :
    s.prune.script? h = (s.script? h).filter fun script => !script.despawned := by
  unfold script? prune
  rw [Std.ExtTreeMap.getElem?_filter']

theorem standing_prune (s : Simulation) (h : Handle) :
    s.prune.standing h = if s.standing h = .retired then .unscripted else s.standing h := by
  unfold standing
  rw [script?_prune]
  cases s.script? h with
  | none => rfl
  | some script => cases hd : script.despawned <;> simp [Option.filter, hd, Standing.ofDespawned]

/-- What the turns of a tick leave as it is: standings do not change before the scripts are dropped,
and rules fire for live scripts only. -/
structure Turned (s : Simulation) (q : List (Handle × Fired) × Simulation) : Prop where
  ran : s.Ran q.2
  standing : ∀ h, q.2.standing h = s.standing h
  live : ∀ h f, (h, f) ∈ q.1 → s.standing h = .live

theorem turned_turn (hs : s.Sound) {q : List (Handle × Fired) × Simulation} (hq : s.Turned q)
    (deltaMs : UInt32) (h : Handle) : s.Turned (turn deltaMs q h) := by
  unfold turn
  split
  · exact hq
  · rename_i script hscript
    have hsound := hq.ran.sound hs
    refine ⟨hq.ran.trans (ran_update (hsound h script hscript) h (.advance deltaMs none)),
      fun k => ?_, fun k f hf => ?_⟩
    · rw [← hq.standing k]
      exact (standing_operate hsound hscript (.advance deltaMs none) k).trans
        (if_neg fun hends => nomatch hends.2)
    · rcases List.mem_append.mp hf with hf | hf
      · exact hq.live k f hf
      · obtain ⟨hk, hf⟩ := (mem_reportFor (r := (_, s))).mp hf
        rw [hk, ← hq.standing h]
        have hf : f ∈ (script.operate q.2.world (.advance deltaMs none)).fired := hf
        exact live_of_mem_fired hscript hf

theorem turned_turns (hs : s.Sound) (deltaMs : UInt32) (order : List Handle) :
    s.Turned (order.foldl (turn deltaMs) ([], s)) :=
  List.foldlRecOn order (turn deltaMs) ⟨.refl s, fun _ => rfl, fun _ _ hf => nomatch hf⟩
    fun _ hq h _ => turned_turn hs hq deltaMs h

theorem outcome_tick (hs : s.Sound) (deltaMs : UInt32) :
    Outcome s (.tick deltaMs) (s.play (.tick deltaMs)) := by
  have hturned := turned_turns hs deltaMs s.scripted
  have hplay : s.play (.tick deltaMs) = _ := tick_eq s deltaMs
  rw [hplay]
  generalize s.scripted.foldl (turn deltaMs) ([], s) = q at hturned
  refine ⟨fun h script hscript => ?_, fun h => ?_,
    fun h f hf => .inl (hturned.live h f hf), follows_of_becomes hturned.ran.world _⟩
  · have hscript : q.2.prune.script? h = some script := hscript
    rw [script?_prune] at hscript
    exact hturned.ran.sound hs h script (Option.filter_eq_some_iff.mp hscript).1
  · refine (standing_prune q.2 h).trans ?_
    rw [hturned.standing]
    rfl

theorem attach_cases (s : Simulation) (h : Handle) (entry : UInt32) :
    (s.store.forSpawn? .creature entry h = none ∧ s.attach h entry = ([], s)) ∨
      ∃ rules, s.store.forSpawn? .creature entry h = some rules ∧
        s.attach h entry = s.update h ((Script.create h rules s.store s.engine).operate s.world
          (.advance 0 (some .aiInit))) := by
  unfold attach
  cases hrules : s.store.forSpawn? .creature entry h with
  | none => exact .inl ⟨rfl, rfl⟩
  | some rules => exact .inr ⟨rules, rfl, rfl⟩

/-- An entity for which the store has rules gets a live script, and no other standing changes. Only
rules of that script fire. -/
theorem attached (s : Simulation) (h : Handle) (entry : UInt32) :
    s.Ran (s.attach h entry).2 ∧
      (∀ k, (s.attach h entry).2.standing k =
        if k = h ∧ (s.store.forSpawn? .creature entry h).isSome then .live else s.standing k) ∧
      ∀ f ∈ (s.attach h entry).1, (s.attach h entry).2.standing h = .live := by
  rcases attach_cases s h entry with ⟨hnone, hattach⟩ | ⟨rules, hrules, hattach⟩
  · rw [hattach, hnone]
    exact ⟨.refl s, fun k => by simp, fun _ hf => nomatch hf⟩
  · have hreach : (Script.create h rules s.store s.engine).Reachable := .fresh ..
    have hstanding : ∀ k, (s.attach h entry).2.standing k =
        if k = h then .live else s.standing k := by
      intro k
      rw [hattach, standing_update, Script.despawned_operate hreach, Script.despawned_create]
      rfl
    refine ⟨?_, fun k => ?_, fun _ _ => ?_⟩
    · rw [hattach]
      exact ran_update hreach h _
    · rw [hstanding, hrules]
      simp
    · rw [hstanding, if_pos rfl]

theorem becomes_spawnCreature (s : Simulation) (entry : UInt32) (position : Position) :
    (s.world.spawn .creature entry position).2.Becomes
      (s.play (.spawnCreature entry position)).2.world :=
  (attached { s with world := (s.world.spawn .creature entry position).2 }
    s.world.nextHandle entry).1.world

theorem outcome_spawnCreature (hs : s.Sound) (entry : UInt32) (position : Position) :
    Outcome s (.spawnCreature entry position) (s.play (.spawnCreature entry position)) := by
  obtain ⟨hran, hstanding, hlive⟩ :=
    attached { s with world := (s.world.spawn .creature entry position).2 } s.world.nextHandle entry
  obtain ⟨cs, hcs⟩ := becomes_spawnCreature s entry position
  refine ⟨hran.sound hs, fun k => ?_, fun k f hf => .inr ?_, cs, ?_, ?_⟩
  · by_cases hk : k = s.world.nextHandle
    · cases hk
      exact hstanding s.world.nextHandle
    · exact (hstanding k).trans ((if_neg fun hnew => hk hnew.1).trans
        (if_neg fun hnew : k = s.world.nextHandle ∧ _ => hk hnew.1).symm)
  · obtain ⟨hk, hf⟩ := mem_reportFor.mp hf
    exact hk ▸ hlive f hf
  · exact (congrArg World.log hcs).trans (World.log_after _ cs)
  · rw [hcs]
    exact (s.world.effect_spawn .creature entry position _).follows.trans
      ((World.follows_after _ cs).mono (fun _ hlost => .inr hlost) (Nat.le_refl _))

theorem mem_remaining {x : Handle × UInt32} :
    x ∈ s.remaining ↔ s.standing x.1 ≠ .unscripted ∧ s.world.entryOf? x.1 = some x.2 := by
  unfold remaining
  rw [List.mem_filterMap, ← mem_scripted]
  constructor
  · rintro ⟨h, hh, hx⟩
    obtain ⟨e, he, rfl⟩ := Option.map_eq_some_iff.mp hx
    exact ⟨hh, congrArg (Option.map EntityInfo.entry) he⟩
  · rintro ⟨hh, hx⟩
    obtain ⟨e, he, hentry⟩ := Option.map_eq_some_iff.mp hx
    exact ⟨x.1, hh, Option.map_eq_some_iff.mpr ⟨e, he, Prod.ext rfl hentry⟩⟩

structure Renewed (s : Simulation) (xs : List (Handle × UInt32))
    (q : List (Handle × Fired) × Simulation) : Prop where
  ran : s.Ran q.2
  covered : ∀ x ∈ xs, (s.store.forSpawn? .creature x.2 x.1).isSome → q.2.standing x.1 = .live
  other : ∀ h, (∀ x ∈ xs, x.1 = h → (s.store.forSpawn? .creature x.2 h).isSome = false) →
    q.2.standing h = s.standing h
  live : ∀ h f, (h, f) ∈ q.1 → q.2.standing h = .live

theorem renewed_foldl (s : Simulation) (xs : List (Handle × UInt32)) :
    s.Renewed xs (xs.foldl renew ([], s)) := by
  -- From the end, as a script that was renewed stays live while others are.
  induction xs using List.reverseRecOn with
  | nil =>
    refine ⟨.refl s, fun x hx => ?_, fun _ _ => rfl, fun h f hf => ?_⟩
    · cases hx
    · cases hf
  | append_singleton xs x ih =>
    rw [List.foldl_append, List.foldl_cons, List.foldl_nil]
    generalize xs.foldl renew ([], s) = q at ih
    obtain ⟨hran, hstanding, hlive⟩ := attached q.2 x.1 x.2
    have hkeeps : ∀ h, q.2.standing h = .live → (renew q x).2.standing h = .live := by
      intro h hh
      refine (hstanding h).trans ?_
      rw [hh]
      exact ite_self _
    rw [ih.ran.store] at hstanding
    refine ⟨ih.ran.trans hran, fun y hy hrules => ?_, fun h hh => ?_, fun h f hf => ?_⟩
    · rcases List.mem_append.mp hy with hy | hy
      · exact hkeeps _ (ih.covered y hy hrules)
      · cases List.mem_singleton.mp hy
        exact (hstanding x.1).trans (if_pos ⟨rfl, hrules⟩)
    · rw [← ih.other h fun y hy => hh y (List.mem_append_left _ hy)]
      refine (hstanding h).trans (if_neg ?_)
      rintro ⟨rfl, hrules⟩
      rw [hh x (List.mem_append_right _ List.mem_cons_self) rfl] at hrules
      cases hrules
    · rcases List.mem_append.mp hf with hf | hf
      · exact hkeeps h (ih.live h f hf)
      · obtain ⟨hx, hf⟩ := (mem_reportFor (r := (_, s))).mp hf
        exact hx ▸ hlive f hf

theorem outcome_replaceStore (s : Simulation) (store : Store) :
    Outcome s (.replaceStore store) (s.play (.replaceStore store)) := by
  have hempty : ∀ h, ({ s with store, scripts := ∅ } : Simulation).script? h = none :=
    fun h => Std.ExtTreeMap.getElem?_empty
  have hrenewed := renewed_foldl { s with store, scripts := ∅ } s.remaining
  refine ⟨hrenewed.ran.sound fun h script hscript => ?_, fun h => ?_,
    fun h f hf => .inr (hrenewed.live h f hf), follows_of_becomes hrenewed.ran.world _⟩
  · rw [hempty] at hscript
    cases hscript
  · show (s.reload store).2.standing h =
      if s.standing h ≠ .unscripted ∧ covers store s.world h then .live else .unscripted
    split
    · rename_i hcovered
      obtain ⟨entry, hentry, hrules⟩ := covers_iff.mp hcovered.2
      exact hrenewed.covered (h, entry) (mem_remaining.mpr ⟨hcovered.1, hentry⟩) hrules
    · rename_i hcovered
      refine (hrenewed.other h fun x hx hxh => ?_).trans
        (standing_eq_unscripted_iff.mpr (hempty h))
      subst hxh
      obtain ⟨hscripted, hentry⟩ := mem_remaining.mp hx
      rw [Bool.eq_false_iff]
      exact fun hrules => hcovered ⟨hscripted, covers_iff.mpr ⟨x.2, hentry, hrules⟩⟩

theorem outcome_play (hs : s.Sound) (m : Move) : Outcome s m (s.play m) := by
  cases m with
  | spawnCreature entry position => exact outcome_spawnCreature hs entry position
  | spawnPlayer position => exact outcome_spawnPlayer hs position
  | signal h signal => exact outcome_signal hs h signal
  | tick deltaMs => exact outcome_tick hs deltaMs
  | forceFire h id => exact outcome_forceFire hs h id
  | despawn h => exact outcome_despawn hs h
  | replaceStore store => exact outcome_replaceStore s store

end Simulation

end TriggerScript
