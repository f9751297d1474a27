import TriggerScript.Dispatch
import TriggerScript.Journal
import TriggerScript.Proofs.Commands

/-!
# What dispatching leaves alone

Running the steps of a rule changes the world by commands, the staged changes and the stored
targets, and nothing else. Every step that changes a counter stages its change, whatever its
targets are. What holds of single commands holds of whole rules, and what actions do not read
passes through them.
-/

namespace TriggerScript

def Action.counterOps : Action → List CounterOp
  | .setCounter counter value reset => [{ counter, value, reset }]
  | _ => []

def Rule.counterOps (r : Rule) : List CounterOp := r.actions.flatMap (·.action.counterOps)

def Incident.counterOps : Incident → List CounterOp
  | .fired rule .. => rule.counterOps
  | _ => []

theorem Action.counterOps_of_not_isStaged {a : Action} (h : a.isStaged = false) :
    a.counterOps = [] := by
  cases a with
  | setCounter => cases h
  | _ => rfl

theorem Action.counterOps_of_needsTargets {a : Action} (h : a.needsTargets = true) :
    a.counterOps = [] := by
  apply counterOps_of_not_isStaged
  simpa [h] using isStaged_and_needsTargets a

theorem counters_elim {α : Type} (drawn : Option α) {change : α → Staged → Staged} {st : Staged}
    (h : ∀ x, (change x st).counters = st.counters) :
    (drawn.elim id change st).counters = st.counters := by
  cases drawn with
  | none => rfl
  | some x => exact h x

theorem Action.counters_staging (a : Action) (invoker : Option Handle) (pending : PhaseMask)
    (g : Rng) (st : Staged) :
    ((a.staging invoker pending g).1 st).counters = st.counters ++ a.counterOps := by
  cases a with
  | setCounter => rfl
  | randomPhase phases =>
    apply Eq.trans _ (List.append_nil _).symm
    exact counters_elim (g.choose phases).1 fun _ => rfl
  | callRandomTimedActionList lists =>
    apply Eq.trans _ (List.append_nil _).symm
    exact counters_elim (g.choose lists).1 fun _ => rfl
  | _ => exact (List.append_nil _).symm

def Action.storesIn? : Action → Option UInt32
  | .storeTargetList varId => some varId
  | _ => .none

namespace Dispatch

@[simp] theorem world_perform (d : Dispatch) (c : Command) :
    (d.perform c).world = (d.world.perform c).2 := by
  unfold perform
  generalize d.world.perform c = answer
  obtain ⟨_ | _, world⟩ := answer <;> rfl

@[simp] theorem world_performAll (d : Dispatch) (cs : List Command) :
    (d.performAll cs).world = d.world.after cs := by
  induction cs generalizing d with
  | nil => rfl
  | cons c cs ih =>
    rw [World.after_cons, ← world_perform]
    exact ih (d.perform c)

theorem performAll_append (d : Dispatch) (cs cs' : List Command) :
    d.performAll (cs ++ cs') = (d.performAll cs).performAll cs' := List.foldl_append

theorem state_perform (d : Dispatch) (c : Command) : (d.perform c).state = d.state := by
  unfold perform
  split <;> rfl

theorem state_foldl {α : Type} {f : Dispatch → α → Dispatch} (h : ∀ d x, (f d x).state = d.state)
    (d : Dispatch) (xs : List α) : (xs.foldl f d).state = d.state := by
  induction xs generalizing d with
  | nil => rfl
  | cons x xs ih =>
    rw [List.foldl_cons, ih]
    exact h d x

theorem state_performAll (d : Dispatch) (cs : List Command) : (d.performAll cs).state = d.state :=
  state_foldl state_perform d cs

theorem state_cast (spell : UInt32) (flags : CastFlags) (d : Dispatch) (caster target : Handle) :
    (d.cast spell flags caster target).state = d.state := by
  unfold cast
  split
  · rfl
  · split
    · rw [state_perform, state_perform]
    · exact state_perform d _

theorem state_playRandomEmote (emotes : List UInt32) (d : Dispatch) (h : Handle) :
    (playRandomEmote emotes d h).state = d.state :=
  state_performAll { d with rng := (d.rng.choose emotes).2 } _

/-- An action stages its change and stores its targets; commands change no state. -/
theorem state_run (o : Occasion) (t : Targets) (literal : Position) (a : Action) (d : Dispatch) :
    (d.run o t literal a).state = { d.state with
      staged := (a.staging o.invoker d.state.pendingPhase d.rng).1 d.state.staged
      stored := a.storesIn?.elim d.state.stored fun varId =>
        d.state.stored.insert varId t.entities } := by
  unfold run
  split
  · exact state_foldl (state_playRandomEmote _) d _
  · exact state_foldl (fun d h => state_cast _ _ d _ h) d _
  · exact state_foldl (fun d h => state_cast _ _ d h h) d _
  · exact state_foldl (fun d c => state_foldl (fun d h => state_cast _ _ d c h) d _) _ _
  · rfl
  · rename_i hstore
    have hnone : a.storesIn? = none := by
      cases a with
      | storeTargetList varId => exact absurd rfl (hstore varId)
      | _ => rfl
    rw [hnone]
    exact state_performAll _ _

structure Leads (d e : Dispatch) (ops : List CounterOp) : Prop where
  state : e.state = { d.state with staged := e.state.staged, stored := e.state.stored }
  counters : e.state.staged.counters = d.state.staged.counters ++ ops
  world : d.world.Becomes e.world

namespace Leads

variable {d e f : Dispatch} {ops ops' : List CounterOp}

theorem refl (d : Dispatch) : Leads d d [] := ⟨rfl, (List.append_nil _).symm, .refl _⟩

theorem trans (h : Leads d e ops) (h' : Leads e f ops') : Leads d f (ops ++ ops') where
  state := by rw [h'.state, h.state]
  counters := by rw [h'.counters, h.counters, List.append_assoc]
  world := h.world.trans h'.world

theorem foldl {α : Type} {f : Dispatch → α → Dispatch} {ops : α → List CounterOp}
    (h : ∀ d x, Leads d (f d x) (ops x)) (d : Dispatch) (xs : List α) :
    Leads d (xs.foldl f d) (xs.flatMap ops) := by
  induction xs generalizing d with
  | nil => exact refl d
  | cons x xs ih =>
    rw [List.foldl_cons, List.flatMap_cons]
    exact (h d x).trans (ih _)

theorem foldl_nil {α : Type} {f : Dispatch → α → Dispatch} (h : ∀ d x, Leads d (f d x) [])
    (d : Dispatch) (xs : List α) : Leads d (xs.foldl f d) [] := by
  have hf := foldl h d xs
  rwa [List.flatMap_eq_nil_iff.mpr (fun _ _ => rfl)] at hf

end Leads

theorem leads_perform (d : Dispatch) (c : Command) : Leads d (d.perform c) [] where
  state := by rw [state_perform]
  counters := by rw [state_perform, List.append_nil]
  world := by
    rw [world_perform]
    exact d.world.becomes_perform c

theorem leads_performAll (d : Dispatch) (cs : List Command) : Leads d (d.performAll cs) [] :=
  .foldl_nil leads_perform d cs

theorem leads_resolve (d : Dispatch) (o : Occasion) (t : TargetDescriptor) :
    Leads d (d.resolve o t).2 [] := ⟨rfl, (List.append_nil _).symm, .refl _⟩

theorem leads_cast (spell : UInt32) (flags : CastFlags) (d : Dispatch) (caster target : Handle) :
    Leads d (d.cast spell flags caster target) [] := by
  unfold cast
  split
  · exact .refl d
  · split
    · exact (leads_perform _ _).trans (leads_perform _ _)
    · exact leads_perform _ _

theorem leads_playRandomEmote (emotes : List UInt32) (d : Dispatch) (h : Handle) :
    Leads d (playRandomEmote emotes d h) [] := by
  have hg : Leads d { d with rng := (d.rng.choose emotes).2 } [] :=
    ⟨rfl, (List.append_nil _).symm, .refl _⟩
  exact hg.trans (leads_performAll _ _)

theorem leads_run (o : Occasion) (t : Targets) (literal : Position) (a : Action) (d : Dispatch) :
    Leads d (d.run o t literal a) a.counterOps := by
  unfold run
  split
  · exact .foldl_nil (leads_playRandomEmote _) d _
  · exact .foldl_nil (fun d h => leads_cast _ _ d _ h) d _
  · exact .foldl_nil (fun d h => leads_cast _ _ d h h) d _
  · rename_i spell flags casters
    have hr := leads_resolve d o casters
    exact hr.trans (.foldl_nil (fun d c => .foldl_nil (fun d h => leads_cast _ _ d c h) d _) _ _)
  · exact ⟨rfl, (List.append_nil _).symm, .refl _⟩
  · have hstaged : Leads d { d with
        state := d.state.stage (a.staging o.invoker d.state.pendingPhase d.rng).1
        rng := (a.staging o.invoker d.state.pendingPhase d.rng).2 } a.counterOps :=
      ⟨rfl, a.counters_staging _ _ _ _, .refl _⟩
    have hperformed := hstaged.trans (leads_performAll _ (a.commands d.world o t literal))
    rwa [List.append_nil] at hperformed

theorem leads_runStep (o : Occasion) (rule : Rule) (shared : Targets) (d : Dispatch)
    (step : ActionStep) : Leads d (d.runStep o rule shared step) step.action.counterOps := by
  have hskip : ∀ {b : Bool}, (step.action.needsTargets && b) = true →
      step.action.counterOps = [] := by
    intro b h
    exact Action.counterOps_of_needsTargets (Bool.and_eq_true_iff.mp h).1
  unfold runStep
  split
  · split
    · rename_i h
      rw [hskip h]
      exact .refl d
    · exact leads_run _ _ _ _ d
  · rename_i target _
    have hr := leads_resolve d o target
    generalize d.resolve o target = resolved at hr ⊢
    obtain ⟨targets, e⟩ := resolved
    dsimp only at hr ⊢
    split
    · rename_i h
      rw [hskip h]
      exact hr
    · exact hr.trans (leads_run _ _ _ _ _)

/-- Running a rule stages the counter changes of its steps in order and changes no other part of
the state but the staged changes and the stored targets. -/
theorem leads_execute (o : Occasion) (rule : Rule) (d : Dispatch) :
    Leads d (d.execute o rule) rule.counterOps := by
  have hr := leads_resolve d o rule.target
  have hs := Leads.foldl (leads_runStep o rule (d.resolve o rule.target).1)
    (d.resolve o rule.target).2 rule.actions
  exact hr.trans hs

structure Law (R : Dispatch → Dispatch → Prop) : Prop where
  trans : ∀ {d e f}, R d e → R e f → R d f
  perform : ∀ d c, R d (d.perform c)
  aside : ∀ (d : Dispatch) state rng, R d { d with state, rng }

namespace Law

variable {R : Dispatch → Dispatch → Prop} (L : Law R)
include L

theorem foldl {α : Type} {f : Dispatch → α → Dispatch} (h : ∀ d x, R d (f d x)) (d : Dispatch)
    (xs : List α) : R d (xs.foldl f d) := by
  induction xs generalizing d with
  | nil => exact L.aside d d.state d.rng
  | cons x xs ih => exact L.trans (h d x) (ih (f d x))

theorem performAll (d : Dispatch) (cs : List Command) : R d (d.performAll cs) :=
  L.foldl L.perform d cs

theorem cast (spell : UInt32) (flags : CastFlags) (d : Dispatch) (caster target : Handle) :
    R d (d.cast spell flags caster target) := by
  unfold Dispatch.cast
  split
  · exact L.aside d d.state d.rng
  · split
    · exact L.trans (L.perform d _) (L.perform _ _)
    · exact L.perform d _

theorem run (o : Occasion) (t : Targets) (literal : Position) (a : Action) (d : Dispatch) :
    R d (d.run o t literal a) := by
  unfold Dispatch.run
  split
  · exact L.foldl (fun d h => L.trans (L.aside d d.state _) (L.performAll _ _)) d _
  · exact L.foldl (fun d h => L.cast _ _ d _ h) d _
  · exact L.foldl (fun d h => L.cast _ _ d h h) d _
  · exact L.trans (L.aside d d.state _)
      (L.foldl (fun d c => L.foldl (fun d h => L.cast _ _ d c h) d _) _ _)
  · exact L.aside d _ d.rng
  · exact L.trans (L.aside d _ _) (L.performAll _ _)

theorem runStep (o : Occasion) (rule : Rule) (shared : Targets) (d : Dispatch)
    (step : ActionStep) : R d (d.runStep o rule shared step) := by
  unfold Dispatch.runStep
  split
  · split
    · exact L.aside d d.state d.rng
    · exact L.run o _ _ _ d
  · rename_i target _
    have hfound : R d (d.resolve o target).2 := L.aside d d.state _
    generalize d.resolve o target = resolved at hfound ⊢
    obtain ⟨targets, e⟩ := resolved
    dsimp only at hfound ⊢
    split
    · exact hfound
    · exact L.trans hfound (L.run o _ _ _ e)

theorem execute (o : Occasion) (rule : Rule) (d : Dispatch) : R d (d.execute o rule) :=
  L.trans (L.aside d d.state _) (L.foldl (L.runStep o rule _) _ rule.actions)

end Law

/-- A change to a dispatch that actions neither read nor undo. -/
structure Unread (change : Dispatch → Dispatch) : Prop where
  perform : ∀ d c, (change d).perform c = change (d.perform c)
  resolve : ∀ d o t, (change d).resolve o t = ((d.resolve o t).1, change (d.resolve o t).2)
  auras : ∀ d, (change d).world.auraStacks = d.world.auraStacks
  casting : ∀ d, (change d).world.casting? = d.world.casting?
  commands : ∀ d o t literal, Action.commands (change d).world o t literal =
    Action.commands d.world o t literal
  pendingPhase : ∀ d, (change d).state.pendingPhase = d.state.pendingPhase
  rng : ∀ d, (change d).rng = d.rng
  drawn : ∀ d rng, { change d with rng } = change { d with rng }
  staged : ∀ d staging, { change d with state := (change d).state.stage staging } =
    change { d with state := d.state.stage staging }
  stored : ∀ d varId hs, { change d with
      state := { (change d).state with stored := (change d).state.stored.insert varId hs } } =
    change { d with state := { d.state with stored := d.state.stored.insert varId hs } }

namespace Unread

variable {change : Dispatch → Dispatch} (U : Unread change)
include U

theorem performAll (d : Dispatch) (cs : List Command) :
    (change d).performAll cs = change (d.performAll cs) := List.foldl_hom change U.perform

theorem cast (spell : UInt32) (flags : CastFlags) (d : Dispatch) (caster target : Handle) :
    (change d).cast spell flags caster target = change (d.cast spell flags caster target) := by
  unfold Dispatch.cast
  simp only [U.auras, U.casting, U.perform, ← apply_ite change]

theorem playRandomEmote (emotes : List UInt32) (d : Dispatch) (h : Handle) :
    Dispatch.playRandomEmote emotes (change d) h =
      change (Dispatch.playRandomEmote emotes d h) := by
  unfold Dispatch.playRandomEmote
  simp only [U.rng, U.drawn, U.performAll]

theorem run (o : Occasion) (t : Targets) (literal : Position) (a : Action) (d : Dispatch) :
    (change d).run o t literal a = change (d.run o t literal a) := by
  unfold Dispatch.run
  split
  · exact List.foldl_hom change (U.playRandomEmote _)
  · exact List.foldl_hom change fun d h => U.cast _ _ d _ h
  · exact List.foldl_hom change fun d h => U.cast _ _ d h h
  · rw [U.resolve]
    apply List.foldl_hom change
    intro d caster
    exact List.foldl_hom change fun d h => U.cast _ _ d caster h
  · exact U.stored d _ _
  · have hstaged : ∀ staging rng,
        { change d with state := (change d).state.stage staging, rng } =
          change { d with state := d.state.stage staging, rng } := fun staging rng =>
      (congrArg (fun e : Dispatch => { e with rng }) (U.staged d staging)).trans (U.drawn _ rng)
    rw [U.pendingPhase, U.rng, U.commands]
    exact (congrArg (Dispatch.performAll · _) (hstaged _ _)).trans (U.performAll _ _)

theorem runStep (o : Occasion) (rule : Rule) (shared : Targets) (d : Dispatch)
    (step : ActionStep) :
    (change d).runStep o rule shared step = change (d.runStep o rule shared step) := by
  unfold Dispatch.runStep
  split
  · simp only [U.run, ← apply_ite change]
  · rw [U.resolve]
    simp only [U.run, ← apply_ite change]

theorem execute (o : Occasion) (rule : Rule) (d : Dispatch) :
    (change d).execute o rule = change (d.execute o rule) := by
  unfold Dispatch.execute
  rw [U.resolve]
  exact List.foldl_hom change (U.runStep o rule _)

end Unread

end Dispatch

end TriggerScript
