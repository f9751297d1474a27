import TriggerScript.Proofs.BuiltSets
import TriggerScript.Proofs.Calls
import TriggerScript.Proofs.Staging

/-!
# Staged changes of a call

Up to its commit a call stages what the actions of the rules that fired ask for, in the order of its
journal. So the journal of a call tells what its commit carries out.
-/

namespace TriggerScript

def Incident.actions : Incident → List Action
  | .fired rule .. => rule.actions.map (·.action)
  | _ => []

def actionsOf (js : List Incident) : List Action := js.flatMap Incident.actions

@[simp] theorem actionsOf_nil : actionsOf [] = [] := rfl

@[simp] theorem actionsOf_append (js ks : List Incident) :
    actionsOf (js ++ ks) = actionsOf js ++ actionsOf ks := List.flatMap_append

theorem actionsOf_fired (rule : Rule) (depth commands : Nat) :
    actionsOf [.fired rule depth commands] = rule.actions.map (·.action) :=
  List.flatMap_singleton _ _

theorem actionsOf_note {i : Incident} (hi : i.record? = none) : actionsOf [i] = [] := by
  cases i with
  | fired => cases hi
  | _ => rfl

inductive StagedInTurn (phase : PhaseMask) : List Action → Staged → Staged → Prop
  | nil (st) : StagedInTurn phase [] st st
  | cons {a as st st'} (invoker : Option Handle) (g : Rng) :
      StagedInTurn phase as ((a.staging invoker (st.phase.getD phase) g).1 st) st' →
      StagedInTurn phase (a :: as) st st'

theorem StagedBy.inTurn {invoker : Option Handle} {phase : PhaseMask} {as : List Action}
    {st st' : Staged} (h : StagedBy invoker phase as st st') : StagedInTurn phase as st st' := by
  induction h with
  | nil st => exact .nil st
  | cons g _ ih => exact .cons invoker g ih

theorem StagedInTurn.append {phase : PhaseMask} {as bs : List Action} {st st' st'' : Staged}
    (h : StagedInTurn phase as st st') (h' : StagedInTurn phase bs st' st'') :
    StagedInTurn phase (as ++ bs) st st'' := by
  induction h with
  | nil => exact h'
  | cons invoker g _ ih => exact .cons invoker g (ih h')

namespace Script

variable {R : Script → World → Progress → Prop} {s : Script} {w : World} {op : Operation}
  {p : Progress} {tables : List Table}

theorem FiringLaw.commits (L : FiringLaw true R)
    (hrenewed : ∀ s w, R s w { script := s.resetState, world := w, journal := [.reset] })
    (hs : s.Listed) (h : Commits s w op p) : R s w p ∨ R s.taken w p := by
  cases h with
  | advance deltaMs _ => exact .inr (L.walks_stages hrenewed hs deltaMs _ w).law
  | reset =>
    have hearing : HearingLaw R := { toLaw := L.law, renewed := hrenewed }
    exact .inl hearing.walks_startOver.law
  | forceFire hfind =>
    exact .inl (L.fire (.inl rfl) (RuleSet.mem_of_find? hfind) fun h => h)

/-- Without a reset the phase stays, and what is staged comes from the actions of the rules that
fired. -/
def StagesActions (s : Script) (p : Progress) : Prop :=
  Incident.reset ∉ p.journal → p.script.state.phase = s.state.phase ∧
    StagedInTurn s.state.phase (actionsOf p.journal) s.state.staged p.script.state.staged

theorem stagesActions_firingLaw : FiringLaw true fun s _ p => StagesActions s p where
  join {s w p stage} _ h h' hreset := by
    rw [Progress.journal_andThen, List.mem_append, not_or] at hreset
    obtain ⟨hphase, hstaged⟩ := h hreset.1
    obtain ⟨hphase', hstaged'⟩ := h' hreset.2
    rw [hphase] at hphase' hstaged'
    rw [Progress.journal_andThen, actionsOf_append]
    exact ⟨hphase', hstaged.append hstaged'⟩
  aside {s t} w h := by
    unfold StagesActions
    rw [h]
    exact fun _ => ⟨rfl, .nil _⟩
  shot {s set forced rule} w o depth _ _ _ _ := by
    obtain ⟨n, hjournal⟩ := journal_shoot set o depth forced rule s w
    unfold StagesActions
    rw [hjournal, actionsOf_fired]
    exact fun _ => ⟨(keeps_shoot set o depth forced rule s w).phase,
      (stagedBy_shoot set o depth forced rule s w).inTurn⟩
  timed s w rng timers := fun _ => ⟨rfl, .nil _⟩
  noted {i} s w hi _ _ := by
    unfold StagesActions
    rw [actionsOf_note hi]
    exact fun _ => ⟨rfl, .nil _⟩

theorem Commits.stagesActions (h : Commits s w op p) (hs : s.Sound)
    (hreset : Incident.reset ∉ p.journal) :
    p.script.state.phase = s.state.phase ∧
      StagedInTurn s.state.phase (actionsOf p.journal) {} p.script.state.staged := by
  have hrenewed : ∀ (t : Script) v, StagesActions t ⟨t.resetState, v, [.reset]⟩ :=
    fun _ _ hnone => absurd List.mem_cons_self hnone
  have hstages : StagesActions s p := by
    rcases stagesActions_firingLaw.commits hrenewed hs.listed h with hlaw | hlaw
    · exact hlaw
    · exact hlaw
  rw [← hs.settled]
  exact hstages hreset

def FiresInBounds (tables : List Table) (s : Script) (p : Progress) : Prop :=
  s.BuiltFrom tables → ∀ a ∈ actionsOf p.journal, a.InBounds

theorem firesInBounds_firingLaw : FiringLaw true fun s _ p => FiresInBounds tables s p where
  join {s w p stage} hk h h' hbuilt a ha := by
    rw [Progress.journal_andThen, actionsOf_append, List.mem_append] at ha
    rcases ha with ha | ha
    · exact h hbuilt a ha
    · exact h' (hbuilt.of_keeps hk) a ha
  aside _ _ _ := by simp
  shot {s set forced rule} w o depth hset hr _ _ hbuilt a ha := by
    obtain ⟨n, hjournal⟩ := journal_shoot set o depth forced rule s w
    rw [hjournal, actionsOf_fired] at ha
    obtain ⟨step, hstep, rfl⟩ := List.mem_map.mp ha
    exact hbuilt.inBounds hset rule hr step hstep
  timed _ _ _ _ _ := by simp
  noted _ _ hi _ _ _ := by
    rw [actionsOf_note hi]
    simp

theorem Commits.inBounds (h : Commits s w op p) (hs : s.Listed) (hbuilt : s.BuiltFrom tables) :
    ∀ a ∈ actionsOf p.journal, a.InBounds := by
  have hrenewed : ∀ (t : Script) v, FiresInBounds tables t ⟨t.resetState, v, [.reset]⟩ := by
    intro t v _
    simp [actionsOf_note (i := .reset) rfl]
  rcases firesInBounds_firingLaw.commits hrenewed hs h with hlaw | hlaw
  · exact hlaw hbuilt
  · exact hlaw (hbuilt.of_keeps (keeps_taken s))

end Script

end TriggerScript
