import TriggerScript.Console

/-!
# Requests that fail

A request that is answered with an error leaves the simulation as it was. The exception is a signal
for an entity without a script: what the signal says about combat and charm holds all the same.
-/

namespace TriggerScript

theorem World.modify_eq_self {w : World} {h : Handle} {change : Entity → Entity}
    (hsame : ∀ e, w.find? h = some e → change e = e) : w.modify h change = w := by
  have hentities : w.entities.modify h change = w.entities := by
    apply Std.ExtTreeMap.ext_getElem?
    intro k
    rw [Std.ExtTreeMap.getElem?_modify]
    split
    · rename_i hk
      rw [← Std.LawfulEqOrd.eq_of_compare hk]
      cases hfind : w.entities[h]? with
      | none => rfl
      | some e => exact congrArg some (hsame e hfind)
    · rfl
  unfold modify
  rw [hentities]

namespace Answer

/-- If the answer is an error, the simulation is `s`. -/
def Spares (a : Answer) (s : Simulation) : Prop := a.error ≠ none → a.console.simulation = s

variable {a : Answer} {s : Simulation} {next : Console → Answer}

theorem spares_of_success (ha : a.error = none) (s : Simulation) : a.Spares s :=
  fun herror => absurd ha herror

theorem spares_fail (c : Console) (e : ConsoleError) : (c.fail e).Spares c.simulation :=
  fun _ => rfl

theorem Spares.andThen (ha : a.Spares s) (hnext : a.error = none → (next a.console).Spares s) :
    (a.andThen next).Spares s := by
  unfold Answer.andThen
  cases herror : a.error with
  | none => exact hnext herror
  | some e => exact ha

end Answer

namespace Console

variable {c : Console}

theorem spares_withEntity {h : Handle} {next : Entity → Answer}
    (hnext : ∀ e, (next e).Spares c.simulation) : (c.withEntity h next).Spares c.simulation := by
  unfold withEntity
  split
  · exact Answer.spares_fail c _
  · exact hnext _

theorem simulation_configure (c : Console) (config : AppConfig) :
    (c.configure config).console.simulation = c.simulation := by
  unfold configure
  dsimp only
  split <;> rfl

theorem spares_load (c : Console) (path : Option String) : (c.load path).Spares c.simulation := by
  unfold load
  split
  · exact Answer.spares_of_success rfl _
  · exact Answer.spares_fail c _

theorem error_watch (c : Console) : c.watch.error = none := by
  unfold watch
  dsimp only
  split
  · rfl
  · split <;> rfl

theorem spares_setDirectory (c : Console) (path : String) :
    (c.setDirectory path).Spares c.simulation := by
  unfold setDirectory
  split
  · exact Answer.spares_of_success rfl _
  · split
    · exact Answer.spares_fail c _
    · rename_i config _
      refine Answer.Spares.andThen (fun _ => simulation_configure c config) fun _ => ?_
      rw [← simulation_configure c config]
      exact (spares_load _ none).andThen fun _ => Answer.spares_of_success (error_watch _) _

theorem spares_run (c : Console) {r : Request}
    (hr : ∀ h kind details, r ≠ .signal h kind details) : (c.run r).Spares c.simulation := by
  -- A request fails before it changes anything, or it cannot fail any more.
  unfold run
  cases r with
  | load path => exact spares_load c path
  | validate path =>
    unfold validate
    dsimp only
    split
    · exact Answer.spares_of_success rfl _
    · exact Answer.spares_fail c _
  | rules entry sourceType =>
    unfold rules
    dsimp only
    split
    · exact Answer.spares_fail c _
    · split
      · exact Answer.spares_fail c _
      · exact Answer.spares_of_success rfl _
  | signal h kind details => exact absurd rfl (hr h kind details)
  | health h pct =>
    unfold health
    dsimp only
    split
    · exact Answer.spares_fail c _
    · exact spares_withEntity fun _ => Answer.spares_of_success rfl _
  | threat owner target amount =>
    exact spares_withEntity fun _ => spares_withEntity fun _ => Answer.spares_of_success rfl _
  | fire h id =>
    unfold fire
    dsimp only
    split
    · exact Answer.spares_fail c _
    · exact Answer.spares_of_success rfl _
  | despawn h => exact spares_withEntity fun _ => Answer.spares_of_success rfl _
  | inspect h => exact spares_withEntity fun _ => Answer.spares_of_success rfl _
  | watch => exact Answer.spares_of_success (error_watch c) _
  | setDirectory path => exact spares_setDirectory c path
  | setTick ms =>
    unfold setTick
    dsimp only
    split
    · exact Answer.spares_fail c _
    · exact fun _ => simulation_configure c _
  | setSeed seed =>
    exact Answer.Spares.andThen (fun _ => simulation_configure c _)
      fun _ => Answer.spares_of_success rfl _
  | _ => exact Answer.spares_of_success rfl _

/-- The simulation with what a signal says about combat and charm of an entity. -/
def foreshadowed (s : Simulation) (h : Handle) (signal : Signal) : Simulation :=
  { s with world := s.world.modify h (foreshadow signal) }

theorem signal_eq {h : Handle} {kind : SignalKind} {details : SignalDetails} {signal : Signal}
    (hsignal : kind.signal? details = some signal) :
    c.signal h kind details =
      match (foreshadowed c.simulation h signal).signal? h signal with
      | none =>
          { c with simulation := foreshadowed c.simulation h signal }.fail (.noScript h)
      | some (fired, s) => c.continueWith s (fired.map (Listing.firing h)) := by
  unfold Console.signal
  rw [hsignal]
  rfl

theorem signal?_foreshadowed_eq_none_iff {s : Simulation} {h : Handle} {signal : Signal} :
    (foreshadowed s h signal).signal? h signal = none ↔ s.script? h = none :=
  Option.map_eq_none_iff

/-- A signal that fails lacks an invoker, or the handle has no script. In the second case the entity
has changed. -/
theorem signal_failed {h : Handle} {kind : SignalKind} {details : SignalDetails}
    {e : ConsoleError} (herror : (c.signal h kind details).error = some e) :
    (c.signal h kind details).console.simulation = c.simulation ∨
      ∃ signal, kind.signal? details = some signal ∧ c.simulation.script? h = none ∧
        e = .noScript h ∧
        (c.signal h kind details).console.simulation = foreshadowed c.simulation h signal := by
  cases hsignal : kind.signal? details with
  | none =>
    left
    unfold Console.signal
    rw [hsignal]
    rfl
  | some signal =>
    rw [signal_eq hsignal] at herror ⊢
    cases hdelivered : (foreshadowed c.simulation h signal).signal? h signal with
    | none =>
      rw [hdelivered] at herror
      have hscript := signal?_foreshadowed_eq_none_iff.mp hdelivered
      exact .inr ⟨signal, rfl, hscript, (Option.some.inj herror).symm, rfl⟩
    | some delivered =>
      rw [hdelivered] at herror
      cases herror

theorem foreshadow_eq (signal : Signal) (entity : Entity) :
    foreshadow signal entity =
      { entity with
        inCombat := (foreshadow signal entity).inCombat
        threat := (foreshadow signal entity).threat
        charmed := (foreshadow signal entity).charmed } := by
  cases signal with
  | aggro | charmed => rfl
  | _ =>
    unfold foreshadow
    dsimp only
    split <;> rfl

theorem foreshadowed_eq_self {s : Simulation} {h : Handle} {signal : Signal}
    (hsame : ∀ entity, s.world.find? h = some entity → foreshadow signal entity = entity) :
    foreshadowed s h signal = s := by
  unfold foreshadowed
  rw [World.modify_eq_self hsame]

/-- A request that fails changes the simulation only if it is a signal for an entity that has no
script, and then only combat, threat and charm of this entity. -/
theorem failed_request_spares_simulation (c : Console) (r : Request) (e : ConsoleError)
    (herror : (c.run r).error = some e) :
    (c.run r).console.simulation = c.simulation ∨
      ∃ h kind details signal entity,
        r = .signal h kind details ∧ kind.signal? details = some signal ∧
          c.simulation.script? h = none ∧ e = .noScript h ∧
          c.simulation.world.find? h = some entity ∧ foreshadow signal entity ≠ entity ∧
          (c.run r).console.simulation =
            { c.simulation with
              world := c.simulation.world.modify h fun entity =>
                { entity with
                  inCombat := (foreshadow signal entity).inCombat
                  threat := (foreshadow signal entity).threat
                  charmed := (foreshadow signal entity).charmed } } := by
  by_cases hr : ∃ h kind details, r = .signal h kind details
  · obtain ⟨h, kind, details, rfl⟩ := hr
    rcases signal_failed herror with hsame | ⟨signal, hsignal, hscript, he, hchanged⟩
    · exact .inl hsame
    · by_cases hself : ∀ entity, c.simulation.world.find? h = some entity →
          foreshadow signal entity = entity
      · exact .inl (hchanged.trans (foreshadowed_eq_self hself))
      · obtain ⟨entity, hself⟩ := Classical.not_forall.mp hself
        obtain ⟨hfind, hdiffers⟩ := Classical.not_imp.mp hself
        refine .inr ⟨h, kind, details, signal, entity, rfl, hsignal, hscript, he, hfind, hdiffers,
          ?_⟩
        rw [← funext (foreshadow_eq signal)]
        exact hchanged
  · refine .inl (spares_run c (fun h kind details hsignal => hr ⟨h, kind, details, hsignal⟩) ?_)
    rw [herror]
    exact Option.some_ne_none e

private def campSimulation : Simulation :=
  (({ store := ∅, engine := {} } : Simulation).spawnPlayer .origin).2

private def camp : Console where
  files := { location := "" }
  configPath := ""
  config := {}
  simulation := campSimulation

/-- There is no entity 2 whose health could be set. -/
theorem unknown_entity_spares_simulation :
    (camp.run (.health 2 50)).error = some (.unknownEntity 2) ∧
      (camp.run (.health 2 50)).console.simulation = camp.simulation := by
  have herror : (camp.run (.health 2 50)).error = some (.unknownEntity 2) := by decide +kernel
  refine ⟨herror, ?_⟩
  rcases failed_request_spares_simulation camp (.health 2 50) _ herror with
    hsame | ⟨h, kind, details, signal, entity, hr, -⟩
  · exact hsame
  · cases hr

/-- A player has no script; it enters combat though the signal fails. -/
theorem failed_signal_starts_combat :
    let a := camp.run (.signal 1 .aggro { invoker := some 1 })
    a.error = some (.noScript 1) ∧ camp.simulation.world.inCombat 1 = false ∧
      a.console.simulation.world.inCombat 1 = true := by
  decide +kernel

end Console

end TriggerScript
