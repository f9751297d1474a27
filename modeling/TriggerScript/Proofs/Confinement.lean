import TriggerScript.Proofs.Staging
import TriggerScript.Proofs.StoredTargets

/-!
# Where an action writes

The class of an action says where it writes. One on script state is staged, whatever its targets
are, and asks nothing of the world; all others stage nothing. Stored targets are written by the one
action that stores them, in its own variable, and the rest of the script state by none.
-/

namespace TriggerScript

theorem Action.commands_of_isStaged {a : Action} (h : a.isStaged = true) (w : World) (o : Occasion)
    (t : Targets) (literal : Position) : a.commands w o t literal = [] := by
  cases a <;> first | rfl | cases h

theorem Action.storesIn?_eq_some_iff {a : Action} {varId : UInt32} :
    a.storesIn? = some varId ↔ a = .storeTargetList varId := by
  cases a <;> simp [storesIn?]

namespace Dispatch

variable {o : Occasion} {a : Action}

/-- An action on script state is its staged change, and the draws that this takes. -/
theorem run_of_isStaged (h : a.isStaged = true) (t : Targets) (literal : Position)
    (d : Dispatch) :
    d.run o t literal a = { d with
      state := d.state.stage (a.staging o.invoker d.state.pendingPhase d.rng).1
      rng := (a.staging o.invoker d.state.pendingPhase d.rng).2 } := by
  unfold run
  split
  case h_6 =>
    rw [Action.commands_of_isStaged h]
    rfl
  all_goals cases h

/-- Where running an action may write. -/
structure Confined (o : Occasion) (t : Targets) (literal : Position) (a : Action) (d : Dispatch) :
    Prop where
  state : (d.run o t literal a).state = { d.state with
    staged := (d.run o t literal a).state.staged
    stored := (d.run o t literal a).state.stored }
  targetless : a.isStaged = true → a.needsTargets = false
  quiet : a.isStaged = true → (d.run o t literal a).world = d.world ∧
    (d.run o t literal a).performed = d.performed ∧
    (d.run o t literal a).state.stored = d.state.stored
  blind : a.isStaged = true → ∀ (e : Dispatch) (t' : Targets) (literal' : Position),
    e.state = d.state → e.rng = d.rng →
      (e.run o t' literal' a).state = (d.run o t literal a).state ∧
        (e.run o t' literal' a).rng = (d.run o t literal a).rng
  unstaged : a.isStaged = false → (d.run o t literal a).state.staged = d.state.staged
  unstored : (∀ varId, a ≠ .storeTargetList varId) →
    (d.run o t literal a).state.stored = d.state.stored
  stored : ∀ varId, a = .storeTargetList varId → ∀ k ≠ varId,
    (d.run o t literal a).state.stored[k]? = d.state.stored[k]?

theorem confined_run (o : Occasion) (t : Targets) (literal : Position) (a : Action) (d : Dispatch) :
    Confined o t literal a d where
  state := (leads_run o t literal a d).state
  targetless := Action.needsTargets_of_isStaged
  quiet h := by
    rw [run_of_isStaged h]
    exact ⟨rfl, rfl, rfl⟩
  blind h e t' literal' hstate hrng := by
    rw [run_of_isStaged h, run_of_isStaged h, hstate, hrng]
    exact ⟨rfl, rfl⟩
  unstaged h := by
    rw [staged_run, Action.staging_of_not_isStaged h]
    rfl
  unstored h := by
    have hnone : a.storesIn? = none := Option.eq_none_iff_forall_ne_some.mpr fun varId hstores =>
      h varId (Action.storesIn?_eq_some_iff.mp hstores)
    rw [stored_run, hnone]
    rfl
  stored varId h k hk := by
    rw [stored_run, Action.storesIn?_eq_some_iff.mpr h, Option.elim_some,
      Std.ExtTreeMap.getElem?_insert, if_neg (mt Std.LawfulEqOrd.eq_of_compare hk.symm)]

/-- An action writes where its class says, and thus a rule changes nothing of the script state but
the staged changes and the stored targets. -/
theorem confined_dispatch (o : Occasion) (d : Dispatch) :
    (∀ (t : Targets) (literal : Position) (a : Action), Confined o t literal a d) ∧
      ∀ rule : Rule, (d.execute o rule).state = { d.state with
        staged := (d.execute o rule).state.staged
        stored := (d.execute o rule).state.stored } :=
  ⟨fun t literal a => confined_run o t literal a d, fun rule => (leads_execute o rule d).state⟩

end Dispatch

end TriggerScript
