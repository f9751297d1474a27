import TriggerScript.Proofs.Atomicity
import TriggerScript.Proofs.StoredTargets

/-!
# Tallies of commands

The records of the rules that fire in a call count the commands that the world accepted. What a call
enters in the log is made of blocks, one for each record and in their order. A command that fails
leaves its entry in the log and nothing else, and the log is not read: the steps that follow run as
if the command had not been asked for.
-/

namespace TriggerScript

namespace World

variable {w : World}

/-- The commands that the world accepts of those that it is asked for one after the other. -/
def granted (w : World) : List Command → List Command
  | [] => []
  | c :: cs =>
      if (w.perform c).1.isOk then c :: (w.perform c).2.granted cs else (w.perform c).2.granted cs

theorem granted_append (w : World) (cs ds : List Command) :
    w.granted (cs ++ ds) = w.granted cs ++ (w.after cs).granted ds := by
  induction cs generalizing w with
  | nil => rfl
  | cons c cs ih =>
    rw [List.cons_append, granted, granted, ih, after_cons]
    split <;> rfl

def withLog (l : List Command) (w : World) : World := { w with log := l }

private theorem require_withLog (l : List Command) (w : World) (h : Handle) :
    (w.withLog l).require h = w.require h := rfl

private theorem changing_withLog (l : List Command) (w : World) (h : Handle)
    (change : Entity → Entity) :
    (w.withLog l).changing h change = (w.changing h change).map (withLog l) := by
  have hthere : (w.withLog l).exists? h = w.exists? h := rfl
  unfold changing
  rw [hthere]
  split <;> rfl

theorem apply_withLog (l : List Command) (w : World) (c : Command) :
    (w.withLog l).apply c = (w.apply c).map (withLog l) := by
  have hrequire : ∀ h {k k' : Unit → Except CommandFailure World},
      k () = (k' ()).map (withLog l) →
      ((w.withLog l).require h >>= k) = (w.require h >>= k').map (withLog l) := by
    intro h k k' hk
    rw [require_withLog]
    cases w.require h with
    | error failure => rfl
    | ok u => exact hk
  cases c with
  | kill | teleport | setFaction | interruptCast => exact changing_withLog l w _ _
  | addAura target spell => exact changing_withLog l (w.stacking target spell) target _
  | removeAura target spell => cases spell <;> exact changing_withLog l w target _
  | despawn target => exact hrequire target rfl
  | castSpell caster target => exact hrequire caster (hrequire target rfl)
  | summonCreature summoner => exact hrequire summoner rfl
  | _ => rfl

theorem perform_withLog (l : List Command) (w : World) (c : Command) :
    (w.withLog l).perform c = ((w.perform c).1, (w.perform c).2.withLog (l ++ [c])) := by
  have hrefused : (w.withLog l).refused = w.refused := rfl
  unfold perform
  rw [hrefused, apply_withLog]
  split
  · rfl
  · cases w.apply c <;> rfl

theorem granted_withLog (l : List Command) (w : World) (cs : List Command) :
    (w.withLog l).granted cs = w.granted cs := by
  induction cs generalizing l w with
  | nil => rfl
  | cons c cs ih =>
    simp only [granted, perform_withLog, ih]

theorem after_withLog (l : List Command) (w : World) (cs : List Command) :
    (w.withLog l).after cs = (w.after cs).withLog (l ++ cs) := by
  induction cs generalizing l w with
  | nil =>
    rw [List.append_nil]
    rfl
  | cons c cs ih =>
    rw [after_cons, perform_withLog, ih, List.append_assoc, List.singleton_append, after_cons]

theorem perform_of_not_isOk {c : Command} (hfailed : (w.perform c).1.isOk = false) :
    (w.perform c).2 = w.withLog (w.log ++ [c]) := by
  apply perform_of_failed
  intro hok
  rw [hok] at hfailed
  cases hfailed

theorem after_granted (w : World) (cs : List Command) :
    w.after (w.granted cs) = (w.after cs).withLog (w.log ++ w.granted cs) := by
  induction cs generalizing w with
  | nil =>
    rw [granted, List.append_nil]
    rfl
  | cons c cs ih =>
    rw [granted, after_cons]
    cases hok : (w.perform c).1.isOk with
    | true =>
      rw [if_pos rfl, after_cons, ih, log_perform, List.append_assoc, List.singleton_append]
    | false =>
      rw [if_neg Bool.false_ne_true, perform_of_not_isOk hok, granted_withLog, after_withLog, ih]
      rfl

end World

namespace Dispatch

def Tallies (d e : Dispatch) : Prop :=
  ∃ cs, e.world = d.world.after cs ∧ e.performed = d.performed + (d.world.granted cs).length

theorem performed_perform (d : Dispatch) (c : Command) :
    (d.perform c).performed = d.performed + (d.world.granted [c]).length := by
  unfold perform World.granted World.granted
  generalize d.world.perform c = answer
  obtain ⟨_ | _, world⟩ := answer <;> rfl

theorem tallies_law : Law Tallies where
  trans := by
    rintro d e f ⟨cs, hworld, hcount⟩ ⟨ds, hworld', hcount'⟩
    refine ⟨cs ++ ds, ?_, ?_⟩
    · rw [hworld', hworld, World.after_append]
    · rw [hcount', hcount, hworld, World.granted_append, List.length_append, Nat.add_assoc]
  perform d c := ⟨[c], world_perform d c, performed_perform d c⟩
  aside d _ _ := ⟨[], rfl, rfl⟩

theorem perform_of_not_isOk {d : Dispatch} {c : Command}
    (hfailed : (d.world.perform c).1.isOk = false) :
    d.perform c = { d with world := { d.world with log := d.world.log ++ [c] } } := by
  have hworld : (d.world.perform c).2 = { d.world with log := d.world.log ++ [c] } :=
    World.perform_of_not_isOk hfailed
  unfold perform
  generalize d.world.perform c = answer at hfailed hworld
  obtain ⟨_ | _, v⟩ := answer
  · rw [← hworld]
  · cases hfailed

/-- The dispatch with an earlier log and an earlier count before its own. -/
def resumed (l : List Command) (n : Nat) (d : Dispatch) : Dispatch :=
  { d with world := d.world.withLog (l ++ d.world.log), performed := n + d.performed }

theorem perform_resumed (l : List Command) (n : Nat) (d : Dispatch) (c : Command) :
    (d.resumed l n).perform c = (d.perform c).resumed l n := by
  have hlog := d.world.log_perform c
  unfold perform resumed
  dsimp only
  rw [World.perform_withLog]
  generalize d.world.perform c = answer at hlog ⊢
  obtain ⟨_ | _, v⟩ := answer <;> dsimp only at hlog ⊢ <;> rw [hlog, List.append_assoc]
  -- The count of what was accepted grows behind the earlier one.
  rfl

theorem resolve_withLog (t : TargetDescriptor) (o : Occasion) (l : List Command) (w : World)
    (m : Std.ExtTreeMap UInt32 (List Handle)) (g : Rng) :
    t.resolve o (w.withLog l) m g = t.resolve o w m g := by
  unfold TargetDescriptor.resolve
  cases t.target <;> rfl

theorem unread_resumed (l : List Command) (n : Nat) : Unread (resumed l n) where
  perform := perform_resumed l n
  resolve d o t := by
    unfold resolve resumed
    dsimp only
    rw [resolve_withLog]
  auras _ := rfl
  casting _ := rfl
  commands d o t literal := by
    funext a
    cases a <;> rfl
  pendingPhase _ := rfl
  rng _ := rfl
  drawn _ _ := rfl
  staged _ _ := rfl
  stored _ _ _ := rfl

/-- Whether a step is passed over for want of targets. -/
def skips (o : Occasion) (shared : Targets) (d : Dispatch) (step : ActionStep) : Bool :=
  step.action.needsTargets && (d.found o shared step).1.isEmpty

def ran (o : Occasion) (rule : Rule) (shared : Targets) :
    Dispatch → List ActionStep → List ActionStep
  | _, [] => []
  | d, step :: steps =>
      let rest := ran o rule shared (d.runStep o rule shared step) steps
      if d.skips o shared step then rest else step :: rest

theorem Unread.ran {change : Dispatch → Dispatch} (U : Unread change) (o : Occasion) (rule : Rule)
    (shared : Targets) (d : Dispatch) (steps : List ActionStep) :
    (change d).ran o rule shared steps = d.ran o rule shared steps := by
  induction steps generalizing d with
  | nil => rfl
  | cons step steps ih =>
    have hskips : (change d).skips o shared step = d.skips o shared step := by
      unfold skips found
      cases step.target with
      | none => rfl
      | some target =>
        dsimp only
        rw [U.resolve]
    rw [Dispatch.ran, Dispatch.ran, hskips, U.runStep, ih]

/-- The dispatch as it would stand at its beginning, with nothing logged or counted. -/
def cleared (d : Dispatch) : Dispatch :=
  { d with world := d.world.withLog [], performed := 0 }

theorem resumed_cleared (d : Dispatch) (l : List Command) :
    d.cleared.resumed l d.performed = { d with world := d.world.withLog l } := by
  change { d with world := d.world.withLog (l ++ []), performed := d.performed + 0 } = _
  rw [List.append_nil]
  rfl

/-- What a rule does after some of its steps, of whose commands some failed. -/
structure GoesOn (o : Occasion) (rule : Rule) (d : Dispatch) (before after : List ActionStep)
    (cs ds : List Command) : Prop where
  asked : (d.through o rule before).world = d.world.after cs ∧
    (d.through o rule (before ++ after)).world = (d.world.after cs).after ds
  ran : { d.through o rule before with world := d.world.after (d.world.granted cs) }.ran o rule
      (d.resolve o rule.target).1 after =
    (d.through o rule before).ran o rule (d.resolve o rule.target).1 after
  rest : after.foldl (runStep o rule (d.resolve o rule.target).1)
      { d.through o rule before with world := d.world.after (d.world.granted cs) } =
    { d.through o rule (before ++ after) with
      world := (d.world.after (d.world.granted cs)).after ds }

theorem ran_withLog (o : Occasion) (rule : Rule) (shared : Targets) (d : Dispatch)
    (steps : List ActionStep) (l : List Command) :
    { d with world := d.world.withLog l }.ran o rule shared steps = d.ran o rule shared steps := by
  have hcleared : ∀ l, { d with world := d.world.withLog l }.ran o rule shared steps =
      d.cleared.ran o rule shared steps := fun l => by
    rw [← resumed_cleared, (unread_resumed l d.performed).ran]
  exact (hcleared l).trans (hcleared d.world.log).symm

theorem exists_foldl_withLog (o : Occasion) (rule : Rule) (shared : Targets) (d : Dispatch)
    (steps : List ActionStep) : ∃ (ds : List Command) (e : Dispatch), ∀ l,
      steps.foldl (runStep o rule shared) { d with world := d.world.withLog l } =
        { e with world := (d.world.withLog l).after ds } := by
  obtain ⟨ds, hds, -⟩ := tallies_law.foldl (tallies_law.runStep o rule shared) d.cleared steps
  refine ⟨ds, (steps.foldl (runStep o rule shared) d.cleared).resumed [] d.performed, fun l => ?_⟩
  have hworld : (steps.foldl (runStep o rule shared) d.cleared).world.withLog
      (l ++ (steps.foldl (runStep o rule shared) d.cleared).world.log) =
        (d.world.withLog l).after ds := by
    rw [hds, World.log_after]
    change ((d.world.withLog []).after ds).withLog (l ++ ([] ++ ds)) = _
    rw [World.after_withLog, World.after_withLog]
    rfl
  rw [← resumed_cleared, List.foldl_hom (resumed l d.performed)
    ((unread_resumed l d.performed).runStep o rule shared), ← hworld]
  rfl

/-- The steps of a rule go on as they would if the commands that failed had not been asked for. -/
theorem goesOn (o : Occasion) (rule : Rule) (d : Dispatch) (before after : List ActionStep) :
    ∃ cs ds, GoesOn o rule d before after cs ds := by
  have hstart : Tallies d (d.through o rule before) :=
    tallies_law.trans (tallies_law.aside d d.state (d.resolve o rule.target).2.rng)
      (tallies_law.foldl (tallies_law.runStep o rule (d.resolve o rule.target).1) _ before)
  obtain ⟨cs, hcs, -⟩ := hstart
  obtain ⟨ds, e, hfold⟩ := exists_foldl_withLog o rule (d.resolve o rule.target).1
    (d.through o rule before) after
  have hall : d.through o rule (before ++ after) =
      { e with world := (d.world.after cs).after ds } := by
    rw [through_append, ← hcs]
    exact hfold (d.through o rule before).world.log
  -- Without the commands that fail only the log is another one.
  have hgranted : d.world.after (d.world.granted cs) =
      (d.through o rule before).world.withLog (d.world.log ++ d.world.granted cs) := by
    rw [World.after_granted, hcs]
  refine ⟨cs, ds, ⟨hcs, by rw [hall]⟩, ?ran, ?rest⟩
  case ran => rw [hgranted, ran_withLog]
  case rest => rw [hgranted, hfold, hall]

end Dispatch

/-- How a world changes while things are noted: each rule that fires has its block of commands, and
counts those that the world accepts; nothing else is asked for. -/
inductive InBlocks : List Incident → World → World → List (List Command) → Prop
  | nil (w) : InBlocks [] w w []
  | noted {i js w v blocks} (hi : i.record? = none) (rest : InBlocks js w v blocks) :
      InBlocks (i :: js) w v blocks
  | fired {rule depth js v cs blocks} (d : Dispatch) (o : Occasion) (hd : d.performed = 0)
      (asked : (d.execute o rule).world = d.world.after cs)
      (counted : (d.execute o rule).performed = (d.world.granted cs).length)
      (rest : InBlocks js (d.world.after cs) v blocks) :
      InBlocks (.fired rule depth (d.execute o rule).performed :: js) d.world v (cs :: blocks)

namespace InBlocks

variable {js ks : List Incident} {u v w : World} {blocks blocks' : List (List Command)}

theorem append (h : InBlocks js u v blocks) (h' : InBlocks ks v w blocks') :
    InBlocks (js ++ ks) u w (blocks ++ blocks') := by
  induction h with
  | nil => exact h'
  | noted hi _ ih => exact .noted hi (ih h')
  | fired d o hd asked counted _ ih => exact .fired d o hd asked counted (ih h')

theorem world_eq (h : InBlocks js w v blocks) : v = w.after blocks.flatten := by
  induction h with
  | nil => rfl
  | noted _ _ ih => exact ih
  | fired d o _ _ _ _ ih => rw [List.flatten_cons, World.after_append, ih]

private theorem filterMap_fired (rule : Rule) (depth commands : Nat) (js : List Incident) :
    (Incident.fired rule depth commands :: js).filterMap Incident.record? =
      { link := rule.link, ruleId := rule.id, depth, commands } :: js.filterMap Incident.record? :=
  rfl

theorem length_records (h : InBlocks js w v blocks) :
    (js.filterMap Incident.record?).length = blocks.length := by
  induction h with
  | nil => rfl
  | noted hi _ ih => rw [List.filterMap_cons_none hi, ih]
  | fired d o _ _ _ _ ih => rw [filterMap_fired, List.length_cons, List.length_cons, ih]

theorem getElem?_commands (h : InBlocks js w v blocks) (n : Nat) :
    (js.filterMap Incident.record?)[n]?.map (·.commands) = blocks[n]?.map fun cs =>
      ((w.after (blocks.take n).flatten).granted cs).length := by
  induction h generalizing n with
  | nil => rfl
  | noted hi _ ih =>
    rw [List.filterMap_cons_none hi]
    exact ih n
  | fired d o _ _ counted _ ih =>
    rw [filterMap_fired]
    cases n with
    | zero => exact congrArg some counted
    | succ n =>
      rw [List.getElem?_cons_succ, List.getElem?_cons_succ, ih, List.take_succ_cons,
        List.flatten_cons]
      simp only [World.after_append]

theorem sum_commands (h : InBlocks js w v blocks) :
    ((js.filterMap Incident.record?).map (·.commands)).sum = (w.granted blocks.flatten).length := by
  induction h with
  | nil => rfl
  | noted hi _ ih => rw [List.filterMap_cons_none hi, ih]
  | fired d o _ _ counted _ ih =>
    rw [filterMap_fired, List.map_cons, List.sum_cons, ih, List.flatten_cons, World.granted_append,
      List.length_append, ← counted]

end InBlocks

namespace Script

/-- A rule that fires has its block, and nothing else that can happen to a script asks for
commands. -/
theorem inBlocks_lifeLaw : LifeLaw fun _ w p => ∃ blocks, InBlocks p.journal w p.world blocks where
  join _ := by
    rintro ⟨blocks, h⟩ ⟨blocks', h'⟩
    exact ⟨blocks ++ blocks', h.append h'⟩
  aside w _ := ⟨[], .nil w⟩
  shot {s set forced rule} w o depth _ _ _ _ := by
    set d : Dispatch :=
      { world := w, state := ((s.losesChance forced rule).2.mark set rule).state
        rng := ((s.losesChance forced rule).2.mark set rule).rng }
    obtain ⟨cs, hworld, hcount⟩ := Dispatch.tallies_law.execute o rule d
    rw [Nat.zero_add] at hcount
    have hblock : InBlocks [.fired rule depth (d.execute o rule).performed] w
        (w.after cs) [cs] := .fired d o rfl hworld hcount (.nil _)
    rw [← hworld] at hblock
    exact ⟨[cs], hblock⟩
  timed _ w _ _ := ⟨[], .nil w⟩
  noted _ w hi _ _ := ⟨[], .noted hi (.nil w)⟩
  taken _ w := ⟨[], .nil w⟩
  renewed _ w := ⟨[], .noted rfl (.nil w)⟩
  settled _ w := ⟨[], .nil w⟩
  retired _ w := ⟨[], .noted rfl (.nil w)⟩

/-- What a call asks of its world, in blocks, and what its records tell of it. -/
structure Conserves (w : World) (p : Progress) (blocks : List (List Command)) : Prop where
  asked : p.world = w.after blocks.flatten ∧ p.world.log = w.log ++ blocks.flatten
  turns : InBlocks p.journal w p.world blocks
  records : p.fired.length = blocks.length
  counts : ∀ n, p.fired[n]?.map (·.commands) =
    blocks[n]?.map fun cs => ((w.after (blocks.take n).flatten).granted cs).length
  total : (p.fired.map (·.commands)).sum = (w.granted blocks.flatten).length

/-- The records of a call count what the world accepted of all that the call asked for, block by
block; and the steps of a rule go on over the commands that fail. -/
theorem conserves_operate {s : Script} (hs : s.Reachable) (w : World) (op : Operation) :
    (∃ blocks, Conserves w (s.operate w op) blocks) ∧
      (∀ (d : Dispatch) c, (d.world.perform c).1.isOk = false →
        d.perform c = { d with world := { d.world with log := d.world.log ++ [c] } }) ∧
      ∀ o rule d before after, ∃ cs ds, Dispatch.GoesOn o rule d before after cs ds := by
  obtain ⟨blocks, hblocks⟩ := inBlocks_lifeLaw.operate hs.sound.listed w op
  refine ⟨⟨blocks, ⟨hblocks.world_eq, ?log⟩, hblocks, ?records, hblocks.getElem?_commands,
    hblocks.sum_commands⟩, ?failed, Dispatch.goesOn⟩
  case log => rw [hblocks.world_eq, World.log_after]
  case records => exact hblocks.length_records
  case failed => exact fun d c hfailed => Dispatch.perform_of_not_isOk hfailed

private def retreat : Rule where
  link := .creature 100
  id := 1
  spec :=
    { event := .aggro, phase := .always, flags := .none, chance := 100
      cooldownMin := 0, cooldownMax := 0 }
  actions := [{ action := .evade }, { action := .die }, { action := .combatStop }]
  target := { target := .none }
  linkTo := some 2
  comment := ""

private def callHelp : Rule :=
  { retreat with
    id := 2, spec := { retreat.spec with event := .link }, linkTo := none
    actions := [{ action := .callForHelp 10 false }, { action := .killUnit }]
    target := { target := .actionInvoker } }

private def coward : Script :=
  fresh 1 { link := .creature 100, rules := [retreat, callHelp] } ∅ {} { key := .replicate 8 0 }

private def deserted : World :=
  World.empty.edited [.spawn .creature 100 .origin, .refuse "evade"]

/-- The first rule goes on after a refusal and counts two of its three commands, the rule it links
to counts its only one. -/
theorem conserves_coward :
    coward.Reachable ∧
      (∃ blocks,
        Conserves deserted (coward.operate deserted (.advance 0 (some (.aggro 2)))) blocks) ∧
      (coward.operate deserted (.advance 0 (some (.aggro 2)))).fired.map (·.commands) = [2, 1] ∧
      (coward.operate deserted (.advance 0 (some (.aggro 2)))).world.log =
        [.evade 1, .kill 1, .combatStop 1, .callForHelp 1 10 false] := by
  have hreach : coward.Reachable := .fresh 1 _ ∅ {} _
  exact ⟨hreach, (conserves_operate hreach _ _).1, by decide +kernel, by decide +kernel⟩

end Script

end TriggerScript
