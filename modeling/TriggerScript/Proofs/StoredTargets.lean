import TriggerScript.Proofs.FiringLaws
import TriggerScript.Proofs.Resolving

/-!
# Stored targets

A step that stores its target is skipped when the target is empty, as if its action needed targets.
What it stores otherwise lasts until the next such step, over the other steps, rules and calls.
-/

namespace TriggerScript

def Rule.Stores (rule : Rule) (varId : UInt32) : Prop :=
  ∃ step ∈ rule.actions, step.action.storesIn? = some varId

/-- A rule fired that may have stored targets in the variable. -/
def Incident.Stores (i : Incident) (varId : UInt32) : Prop :=
  ∃ rule depth commands, i = .fired rule depth commands ∧ rule.Stores varId

namespace Dispatch

@[simp] theorem stored_resolve (d : Dispatch) (o : Occasion) (t : TargetDescriptor) :
    (d.resolve o t).2.state.stored = d.state.stored := rfl

theorem stored_run (o : Occasion) (t : Targets) (literal : Position) (a : Action) (d : Dispatch) :
    (d.run o t literal a).state.stored =
      a.storesIn?.elim d.state.stored fun varId => d.state.stored.insert varId t.entities :=
  congrArg ScriptState.stored (state_run o t literal a d)

def found (o : Occasion) (shared : Targets) (d : Dispatch) (step : ActionStep) :
    Targets × Dispatch :=
  match step.target with
  | none => (shared, d)
  | some target => d.resolve o target

@[simp] theorem stored_found (o : Occasion) (shared : Targets) (d : Dispatch) (step : ActionStep) :
    (d.found o shared step).2.state.stored = d.state.stored := by
  unfold found
  split <;> rfl

theorem runStep_eq (o : Occasion) (rule : Rule) (shared : Targets) (d : Dispatch)
    (step : ActionStep) :
    d.runStep o rule shared step =
      if step.action.needsTargets && (d.found o shared step).1.isEmpty then
        (d.found o shared step).2
      else
        (d.found o shared step).2.run o (d.found o shared step).1
          (step.target.getD rule.target).literal step.action := by
  unfold runStep found
  cases step.target <;> rfl

theorem stored_runStep (o : Occasion) (rule : Rule) (shared : Targets) (d : Dispatch)
    (step : ActionStep) :
    (d.runStep o rule shared step).state.stored =
      if step.action.needsTargets && (d.found o shared step).1.isEmpty then d.state.stored
      else step.action.storesIn?.elim d.state.stored fun varId =>
        d.state.stored.insert varId (d.found o shared step).1.entities := by
  rw [runStep_eq]
  split
  · exact stored_found o shared d step
  · rw [stored_run, stored_found]

theorem getElem?_stored_runStep {o : Occasion} {rule : Rule} {shared : Targets} {d : Dispatch}
    {step : ActionStep} {varId : UInt32} (h : step.action.storesIn? ≠ some varId) :
    (d.runStep o rule shared step).state.stored[varId]? = d.state.stored[varId]? := by
  rw [stored_runStep]
  split
  · rfl
  · cases hstores : step.action.storesIn? with
    | none => rfl
    | some other =>
      have hne : other ≠ varId := fun heq => h (by rw [hstores, heq])
      rw [Option.elim_some, Std.ExtTreeMap.getElem?_insert,
        if_neg (mt Std.LawfulEqOrd.eq_of_compare hne)]

theorem getElem?_stored_foldl {o : Occasion} {rule : Rule} {shared : Targets} {d : Dispatch}
    {steps : List ActionStep} {varId : UInt32}
    (h : ∀ step ∈ steps, step.action.storesIn? ≠ some varId) :
    (steps.foldl (runStep o rule shared) d).state.stored[varId]? = d.state.stored[varId]? := by
  induction steps generalizing d with
  | nil => rfl
  | cons step steps ih =>
    rw [List.foldl_cons, ih fun next hnext => h next (List.mem_cons_of_mem step hnext),
      getElem?_stored_runStep (h step List.mem_cons_self)]

def through (o : Occasion) (rule : Rule) (d : Dispatch) (steps : List ActionStep) : Dispatch :=
  steps.foldl (runStep o rule (d.resolve o rule.target).1) (d.resolve o rule.target).2

theorem execute_eq_through (o : Occasion) (rule : Rule) (d : Dispatch) :
    d.execute o rule = d.through o rule rule.actions := rfl

theorem getElem?_stored_execute {o : Occasion} {rule : Rule} {d : Dispatch} {varId : UInt32}
    (h : ¬rule.Stores varId) : (d.execute o rule).state.stored[varId]? = d.state.stored[varId]? := by
  rw [execute_eq_through, through, getElem?_stored_foldl fun step hstep hstores =>
    h ⟨step, hstep, hstores⟩, stored_resolve]

end Dispatch

/-- How the stored targets change while things are noted: by the steps of the rules that fire, one
rule after the other, and by nothing else. -/
inductive StoredInTurn : List Incident → Std.ExtTreeMap UInt32 (List Handle) →
    Std.ExtTreeMap UInt32 (List Handle) → Prop
  | nil (m) : StoredInTurn [] m m
  | noted {i js m m'} (hi : i.record? = none) (rest : StoredInTurn js m m') :
      StoredInTurn (i :: js) m m'
  | fired {rule depth commands js m m'} (d : Dispatch) (o : Occasion) (hd : d.state.stored = m)
      (rest : StoredInTurn js (d.execute o rule).state.stored m') :
      StoredInTurn (.fired rule depth commands :: js) m m'

theorem StoredInTurn.append {js ks : List Incident}
    {m m' m'' : Std.ExtTreeMap UInt32 (List Handle)} (h : StoredInTurn js m m')
    (h' : StoredInTurn ks m' m'') : StoredInTurn (js ++ ks) m m'' := by
  induction h with
  | nil => exact h'
  | noted hi _ ih => exact .noted hi (ih h')
  | fired d o hd _ ih => exact .fired d o hd (ih h')

/-- A variable stays as it is while no rule fires that stores targets in it. -/
theorem StoredInTurn.getElem?_eq {js : List Incident}
    {m m' : Std.ExtTreeMap UInt32 (List Handle)} {varId : UInt32} (h : StoredInTurn js m m')
    (hsilent : ∀ i ∈ js, ¬i.Stores varId) : m'[varId]? = m[varId]? := by
  induction h with
  | nil => rfl
  | noted _ _ ih => exact ih fun i hi => hsilent i (List.mem_cons_of_mem _ hi)
  | fired d o hd _ ih =>
    rw [ih fun i hi => hsilent i (List.mem_cons_of_mem _ hi), ← hd]
    exact Dispatch.getElem?_stored_execute fun hrule =>
      hsilent _ List.mem_cons_self ⟨_, _, _, rfl, hrule⟩

namespace Script

@[simp] theorem stored_losesChance (forced : Bool) (rule : Rule) (s : Script) :
    (s.losesChance forced rule).2.state.stored = s.state.stored := by
  unfold losesChance
  split <;> rfl

@[simp] theorem stored_mark (set : RuleSet) (rule : Rule) (s : Script) :
    (s.mark set rule).state.stored = s.state.stored := by
  unfold mark
  split <;> rfl

theorem storedInTurn_lifeLaw : LifeLaw fun s _ p =>
    StoredInTurn p.journal s.state.stored p.script.state.stored where
  join _ h h' := h.append h'
  aside _ haside := by
    rw [haside]
    exact .nil _
  shot {s set forced rule} w o depth _ _ _ _ := by
    obtain ⟨n, hjournal⟩ := journal_shoot set o depth forced rule s w
    rw [hjournal]
    apply StoredInTurn.fired
      { world := w, state := ((s.losesChance forced rule).2.mark set rule).state
        rng := ((s.losesChance forced rule).2.mark set rule).rng } o _ (.nil _)
    rw [stored_mark, stored_losesChance]
  timed _ _ _ _ := .nil _
  noted _ _ hi _ _ := .noted hi (.nil _)
  taken _ _ := .nil _
  renewed s _ := by
    rw [resetState_eq]
    exact .noted rfl (.nil _)
  settled s _ := by
    show StoredInTurn [] s.state.stored s.commitState.state.stored
    rw [(lasts_commitState s).stored]
    exact .nil _
  retired _ _ := .noted rfl (.nil _)

theorem storedInTurn_calls {s : Script} (hs : s.Reachable) (cs : List Call) :
    StoredInTurn (s.calls cs).2 s.state.stored (s.calls cs).1.state.stored := by
  induction cs generalizing s with
  | nil => exact .nil _
  | cons c cs ih =>
    rw [calls_cons]
    exact (storedInTurn_lifeLaw.operate hs.sound.listed c.world c.op).append
      (ih (hs.operate c.world c.op))

end Script

/-- A target that reads a variable finds what is there of its entities. -/
theorem firstOccurrences_of_stored {m : Std.ExtTreeMap UInt32 (List Handle)} {varId : UInt32}
    {hs : List Handle} (hm : m[varId]? = some hs) (literal : Position) (o : Occasion) (w : World)
    (g : Rng) :
    FirstOccurrences (w.exists? · = true) hs
      (TargetDescriptor.resolve { target := .stored varId, literal } o w m g).1.entities := by
  have hget : m.getD varId [] = hs := by
    rw [Std.ExtTreeMap.getD_eq_getD_getElem?, hm]
    rfl
  rw [← hget]
  exact firstOccurrences_filter _ _

namespace Dispatch

def foundAfter (o : Occasion) (rule : Rule) (d : Dispatch) (before : List ActionStep)
    (step : ActionStep) : Targets :=
  ((d.through o rule before).found o (d.resolve o rule.target).1 step).1

theorem through_append (o : Occasion) (rule : Rule) (d : Dispatch) (before after : List ActionStep) :
    d.through o rule (before ++ after) =
      after.foldl (runStep o rule (d.resolve o rule.target).1) (d.through o rule before) :=
  List.foldl_append

section

variable {o : Occasion} {rule : Rule} {d : Dispatch} {before after : List ActionStep}
  {step : ActionStep} {varId : UInt32}

theorem stored_through (hstep : step.action = .storeTargetList varId) :
    (d.through o rule (before ++ [step])).state.stored =
      if (d.foundAfter o rule before step).isEmpty then (d.through o rule before).state.stored
      else (d.through o rule before).state.stored.insert varId
        (d.foundAfter o rule before step).entities := by
  rw [through_append, List.foldl_cons, List.foldl_nil, stored_runStep, hstep]
  rfl

theorem getElem?_stored_through (hafter : ∀ next ∈ after, next.action.storesIn? ≠ some varId) :
    (d.through o rule (before ++ step :: after)).state.stored[varId]? =
      (d.through o rule (before ++ [step])).state.stored[varId]? := by
  rw [List.append_cons, through_append, getElem?_stored_foldl hafter]

/-- What comes of a step that stores its target: in the rest of its rule, in the rules that fire after
it, and for targets that read the variable. -/
structure StoresFound (o : Occasion) (rule : Rule) (d : Dispatch) (before : List ActionStep)
    (step : ActionStep) (after : List ActionStep) (varId : UInt32) : Prop where
  stored : (d.foundAfter o rule before step).isEmpty = false →
    (d.through o rule (before ++ [step])).state.stored[varId]? =
      some (d.foundAfter o rule before step).entities
  skipped : (d.foundAfter o rule before step).isEmpty = true →
    (d.through o rule (before ++ [step])).state.stored = (d.through o rule before).state.stored
  elsewhere : ∀ v ≠ varId, (d.through o rule (before ++ [step])).state.stored[v]? =
    (d.through o rule before).state.stored[v]?
  steps : (d.foundAfter o rule before step).isEmpty = false → ∀ mid rest, after = mid ++ rest →
    (∀ next ∈ mid, next.action.storesIn? ≠ some varId) →
    (d.through o rule (before ++ step :: mid)).state.stored[varId]? =
      some (d.foundAfter o rule before step).entities
  rules : (d.foundAfter o rule before step).isEmpty = false →
    (∀ next ∈ after, next.action.storesIn? ≠ some varId) → ∀ js m,
    StoredInTurn js (d.execute o rule).state.stored m → (∀ i ∈ js, ¬i.Stores varId) →
    ∀ (d' : Dispatch) o' rule' mid rest, d'.state.stored = m → rule'.actions = mid ++ rest →
    (∀ next ∈ mid, next.action.storesIn? ≠ some varId) →
    (d'.through o' rule' mid).state.stored[varId]? =
      some (d.foundAfter o rule before step).entities
  calls : ∀ s : Script, s.Reachable → ∀ cs,
    StoredInTurn (s.calls cs).2 s.state.stored (s.calls cs).1.state.stored
  read : ∀ m : Std.ExtTreeMap UInt32 (List Handle),
    m[varId]? = some (d.foundAfter o rule before step).entities → ∀ literal o' w g,
    FirstOccurrences (w.exists? · = true) (d.foundAfter o rule before step).entities
      (TargetDescriptor.resolve { target := .stored varId, literal } o' w m g).1.entities

/-- A step that stores its target stores what the target resolved to, unless that is nothing. This
is what the variable holds until a rule fires that stores targets in it, and a target that reads the
variable finds what is there of it. -/
theorem storesFound_of_execute (hrule : rule.actions = before ++ step :: after)
    (hstep : step.action = .storeTargetList varId) :
    StoresFound o rule d before step after varId := by
  have hstored : (d.foundAfter o rule before step).isEmpty = false →
      (d.through o rule (before ++ [step])).state.stored[varId]? =
        some (d.foundAfter o rule before step).entities := by
    intro hfound
    rw [stored_through hstep, if_neg (by simp [hfound]), Std.ExtTreeMap.getElem?_insert_self]
  refine ⟨hstored, fun hempty => ?_, fun v hv => ?_, fun hfound mid rest _ hmid => ?_, ?rules,
    fun s hs cs => Script.storedInTurn_calls hs cs,
    fun m hm literal o' w g => firstOccurrences_of_stored hm literal o' w g⟩
  · rw [stored_through hstep, if_pos hempty]
  · rw [through_append, List.foldl_cons, List.foldl_nil]
    apply getElem?_stored_runStep
    rw [hstep]
    exact fun heq => hv (Option.some.inj heq).symm
  · exact (getElem?_stored_through hmid).trans (hstored hfound)
  case rules =>
    intro hfound hafter js m hturn hjs d' o' rule' mid rest hd' _ hmid
    have hend : (d.execute o rule).state.stored[varId]? =
        some (d.foundAfter o rule before step).entities := by
      rw [execute_eq_through, hrule, getElem?_stored_through hafter, hstored hfound]
    rw [through, getElem?_stored_foldl hmid, stored_resolve, hd', hturn.getElem?_eq hjs, hend]

end

private def remembering : Rule where
  link := .creature 100
  id := 1
  spec :=
    { event := .link, phase := .always, flags := .none, chance := 100
      cooldownMin := 0, cooldownMax := 0 }
  actions := [{ action := .none }, { action := .storeTargetList 1 }]
  target := { target := .actionInvoker }
  linkTo := none
  comment := ""

private def meeting : Dispatch where
  world := (World.empty.spawn .player 0 .origin).2
  state := {}
  rng := .ofSeed 0

/-- The second step of a rule stores what the rule is about. -/
theorem storesFound_remembering :
    StoresFound { owner := 7, invoker := some 1 } remembering meeting [{ action := .none }]
        { action := .storeTargetList 1 } [] 1 ∧
      meeting.foundAfter { owner := 7, invoker := some 1 } remembering [{ action := .none }]
        { action := .storeTargetList 1 } = { entities := [1] } :=
  ⟨storesFound_of_execute rfl rfl, by decide +kernel⟩

/-- A second invoker that is not there leaves the first one stored. -/
theorem empty_target_is_not_stored :
    ¬∀ (o : Occasion) (rule : Rule) (d : Dispatch) (before after : List ActionStep)
      (step : ActionStep) (varId : UInt32), rule.actions = before ++ step :: after →
      step.action = .storeTargetList varId →
      (d.through o rule (before ++ [step])).state.stored[varId]? =
        some (d.foundAfter o rule before step).entities := by
  intro hall
  have hsecond := hall { owner := 7, invoker := some 9 } remembering
    (meeting.execute { owner := 7, invoker := some 1 } remembering) [{ action := .none }] []
    { action := .storeTargetList 1 } 1 rfl rfl
  revert hsecond
  decide +kernel

end Dispatch

end TriggerScript
