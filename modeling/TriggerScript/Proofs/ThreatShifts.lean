import Mathlib.Algebra.Group.Int.Defs
import Mathlib.Algebra.Group.Nat.Defs
import TriggerScript.Action.Decode
import TriggerScript.Proofs.Edits
import TriggerScript.Proofs.StoredTargets

/-!
# Shifts of threat

An action that shifts threat says by how many percent it raises and by how many it lowers it. The
command carries the difference as a signed word of 32 bits: it is exact as long as it fits, and
beyond that it wraps to the other sign.
-/

namespace TriggerScript

def threatShift (inc dec : UInt32) : Int32 := inc.toInt32 - dec.toInt32

theorem toInt_toInt32 (word : UInt32) : word.toInt32.toInt = (word.toNat : Int).bmod (2 ^ 32) :=
  BitVec.toInt_eq_toNat_bmod word.toBitVec

theorem toInt_threatShift (inc dec : UInt32) :
    (threatShift inc dec).toInt = ((inc.toNat : Int) - dec.toNat).bmod (2 ^ 32) := by
  rw [threatShift, Int32.toInt_sub, toInt_toInt32, toInt_toInt32, Int.bmod_sub_bmod,
    Int.sub_bmod_bmod]

/-- How the difference of two words fares as a signed word. -/
structure ShiftLaw (inc dec : UInt32) (pct : Int32) : Prop where
  wraps : pct.toInt = ((inc.toNat : Int) - dec.toNat).bmod (2 ^ 32)
  exact_iff : pct.toInt = (inc.toNat : Int) - dec.toNat ↔
    -2 ^ 31 ≤ (inc.toNat : Int) - dec.toNat ∧ (inc.toNat : Int) - dec.toNat < 2 ^ 31
  lowers_iff : dec ≤ inc → (pct.toInt < 0 ↔ 2 ^ 31 ≤ (inc.toNat : Int) - dec.toNat)
  /-- The words are read as signed ones before they are subtracted, which may overflow itself. -/
  sound_iff : (inc.toInt32.toBitVec.ssubOverflow dec.toInt32.toBitVec = false ∧
      pct.toInt = (inc.toNat : Int) - dec.toNat) ↔
    (inc.toNat < 2 ^ 31 ↔ dec.toNat < 2 ^ 31)

theorem shiftLaw_threatShift (inc dec : UInt32) : ShiftLaw inc dec (threatShift inc dec) := by
  have hinc := inc.toNat_lt
  have hdec := dec.toNat_lt
  have hwraps := toInt_threatShift inc dec
  have hmod := Int.bmod_def ((inc.toNat : Int) - dec.toNat) (2 ^ 32)
  refine ⟨hwraps, ?_, fun hle => ?_, ?_⟩
  · rw [hwraps, hmod]
    omega
  · have hle := UInt32.le_iff_toNat_le.mp hle
    rw [hwraps, hmod]
    omega
  · have hsigned : ∀ word : UInt32, word.toInt32.toBitVec.toInt =
        (word.toNat : Int).bmod (2 ^ 32) := toInt_toInt32
    rw [BitVec.ssubOverflow, hsigned, hsigned, hwraps, hmod, Int.bmod_def, Int.bmod_def,
      Bool.or_eq_false_iff, decide_eq_false_iff_not, decide_eq_false_iff_not]
    omega

def Action.threatShift? : Action → Option (UInt32 × UInt32)
  | .threatSinglePct inc dec | .threatAllPct inc dec => some (inc, dec)
  | _ => .none

/-- The entities towards which an action shifts threat: its targets, or the whole threat list. -/
def Action.shifted (w : World) (o : Occasion) (t : Targets) : Action → List Handle
  | .threatSinglePct .. => t.entities
  | .threatAllPct .. => (w.threatList o.owner).map (·.handle)
  | _ => []

/-- Whether a command shifts threat, if it does so at all, as one of these actions of the owner
says. -/
def Command.ShiftsAs (owner : Handle) (actions : List Action) (c : Command) : Prop :=
  ∀ actor target pct, c = .modifyThreat actor target pct → actor = owner ∧
    ∃ a ∈ actions, ∃ inc dec, a.threatShift? = some (inc, dec) ∧ pct = threatShift inc dec

theorem Command.ShiftsAs.mono {owner : Handle} {actions actions' : List Action} {c : Command}
    (h : c.ShiftsAs owner actions) (hsub : ∀ a ∈ actions, a ∈ actions') :
    c.ShiftsAs owner actions' := fun actor target pct hc => by
  obtain ⟨howner, a, ha, hshift⟩ := h actor target pct hc
  exact ⟨howner, a, hsub a ha, hshift⟩

namespace Action

variable {a : Action} {inc dec : UInt32}

theorem commands_of_threatShift? (h : a.threatShift? = some (inc, dec)) (w : World) (o : Occasion)
    (t : Targets) (literal : Position) :
    a.commands w o t literal =
      (a.shifted w o t).map (.modifyThreat o.owner · (threatShift inc dec)) := by
  cases a with
  | threatSinglePct =>
    cases h
    rfl
  | threatAllPct =>
    cases h
    rw [shifted, List.map_map]
    rfl
  | _ => cases h

theorem shiftsAs_of_mem_commands {w : World} {o : Occasion} {t : Targets} {literal : Position}
    {c : Command} (hc : c ∈ a.commands w o t literal) : c.ShiftsAs o.owner [a] := by
  rintro actor target pct rfl
  cases a with
  | threatSinglePct inc dec | threatAllPct inc dec =>
    obtain ⟨h, -, heq⟩ := List.mem_map.mp hc
    cases heq
    exact ⟨rfl, _, List.mem_singleton_self _, inc, dec, rfl, rfl⟩
  -- The others ask for none, or for commands of another kind.
  | none | randomEmote | cast | selfCast | crossCast | setEventPhase | incEventPhase | randomPhase
  | randomPhaseRange | setCounter | storeTargetList | createTimedEvent | triggerTimedEvent
  | removeTimedEvent | callScriptReset | callTimedActionList | callRandomTimedActionList
  | callRandomRangeTimedActionList =>
    cases hc
  | autoAttack | allowCombatMovement | attackStop | evade | fleeForAssist | combatStop
  | callForHelp | setInCombatWithZone | setInvincibilityHpLevel | die | waypointStart
  | waypointPause | waypointStop | waypointResume | setRun | randomMove | setHomePosition
  | setInstanceData =>
    cases List.mem_singleton.mp hc
  | talk group duration useTalkTarget =>
    cases useTalkTarget with
    | true =>
      obtain ⟨h, -, heq⟩ := List.mem_map.mp hc
      cases heq
    | false => cases List.mem_singleton.mp hc
  | _ =>
    obtain ⟨h, -, heq⟩ := List.mem_map.mp hc
    cases heq

end Action

namespace Dispatch

/-- Commands lead from `d` to `e` that shift threat only as these actions of the owner say. -/
def Shifts (owner : Handle) (actions : List Action) (d e : Dispatch) : Prop :=
  ∃ cs, e.world = d.world.after cs ∧ ∀ c ∈ cs, c.ShiftsAs owner actions

namespace Shifts

variable {owner : Handle} {actions : List Action} {d e f : Dispatch}

theorem of_world (h : e.world = d.world) : Shifts owner actions d e := ⟨[], h, by simp⟩

theorem trans (h : Shifts owner actions d e) (h' : Shifts owner actions e f) :
    Shifts owner actions d f := by
  obtain ⟨cs, he, hcs⟩ := h
  obtain ⟨ds, hf, hds⟩ := h'
  refine ⟨cs ++ ds, by rw [hf, he, World.after_append], fun c hc => ?_⟩
  rcases List.mem_append.mp hc with hc | hc
  · exact hcs c hc
  · exact hds c hc

theorem mono {actions' : List Action} (h : Shifts owner actions d e)
    (hsub : ∀ a ∈ actions, a ∈ actions') : Shifts owner actions' d e := by
  obtain ⟨cs, he, hcs⟩ := h
  exact ⟨cs, he, fun c hc => (hcs c hc).mono hsub⟩

theorem foldl {α : Type} {f : Dispatch → α → Dispatch} {xs : List α}
    (h : ∀ x ∈ xs, ∀ d, Shifts owner actions d (f d x)) (d : Dispatch) :
    Shifts owner actions d (xs.foldl f d) := by
  induction xs generalizing d with
  | nil => exact of_world rfl
  | cons x xs ih =>
    have hrest := ih fun y hy => h y (List.mem_cons_of_mem x hy)
    exact (h x List.mem_cons_self d).trans (hrest _)

theorem performAll {cs : List Command} (h : ∀ c ∈ cs, c.ShiftsAs owner actions) (d : Dispatch) :
    Shifts owner actions d (d.performAll cs) := ⟨cs, world_performAll d cs, h⟩

theorem perform {c : Command} (h : c.ShiftsAs owner actions) (d : Dispatch) :
    Shifts owner actions d (d.perform c) := ⟨[c], world_perform d c, by simpa using h⟩

theorem cast (spell : UInt32) (flags : CastFlags) (d : Dispatch) (caster target : Handle) :
    Shifts owner actions d (d.cast spell flags caster target) := by
  have hcast : ∀ d : Dispatch, Shifts owner actions d (d.perform (.castSpell caster target spell
      (flags.contains .triggered) (flags.contains .combatMove))) :=
    perform fun _ _ _ hc => by cases hc
  unfold Dispatch.cast
  split
  · exact of_world rfl
  · split
    · exact (perform (fun _ _ _ hc => by cases hc) d).trans (hcast _)
    · exact hcast d

theorem playRandomEmote (emotes : List UInt32) (d : Dispatch) (h : Handle) :
    Shifts owner actions d (Dispatch.playRandomEmote emotes d h) := by
  have hemote : ∀ c ∈ (d.rng.choose emotes).1.toList.map (Command.playEmote h ·),
      c.ShiftsAs owner actions := by
    intro c hc actor target pct heq
    obtain ⟨emote, -, rfl⟩ := List.mem_map.mp hc
    cases heq
  exact (of_world rfl).trans (performAll hemote { d with rng := (d.rng.choose emotes).2 })

theorem run (o : Occasion) (t : Targets) (literal : Position) (a : Action) (d : Dispatch) :
    Shifts o.owner [a] d (d.run o t literal a) := by
  unfold Dispatch.run
  split
  · exact foldl (fun h _ d => playRandomEmote _ d h) d
  · exact foldl (fun h _ d => cast _ _ d _ h) d
  · exact foldl (fun h _ d => cast _ _ d h h) d
  · exact (of_world rfl).trans
      (foldl (fun caster _ d => foldl (fun h _ d => cast _ _ d caster h) d) _)
  · exact of_world rfl
  · exact (of_world rfl).trans (performAll (fun _ hc => Action.shiftsAs_of_mem_commands hc) _)

theorem runStep {o : Occasion} {rule : Rule} {step : ActionStep} (hstep : step ∈ rule.actions)
    (shared : Targets) (d : Dispatch) :
    Shifts o.owner (rule.actions.map (·.action)) d (d.runStep o rule shared step) := by
  have hfound : (d.found o shared step).2.world = d.world := by
    unfold found
    split <;> rfl
  rw [runStep_eq]
  split
  · exact of_world hfound
  · refine (of_world hfound).trans ((run o _ _ step.action _).mono fun a ha => ?_)
    rw [List.mem_singleton.mp ha]
    exact List.mem_map_of_mem hstep

theorem execute (o : Occasion) (rule : Rule) (d : Dispatch) :
    Shifts o.owner (rule.actions.map (·.action)) d (d.execute o rule) :=
  (of_world rfl).trans (foldl (fun _ hstep d => runStep hstep _ d) (d.resolve o rule.target).2)

end Shifts

/-- An action that shifts threat asks for one command for each entity that it is about. -/
theorem world_run_of_threatShift? {a : Action} {inc dec : UInt32}
    (h : a.threatShift? = some (inc, dec)) (o : Occasion) (t : Targets) (literal : Position)
    (d : Dispatch) :
    (d.run o t literal a).world = d.world.after
      ((a.shifted d.world o t).map (.modifyThreat o.owner · (threatShift inc dec))) := by
  rw [← Action.commands_of_threatShift? h d.world o t literal]
  cases a with
  | threatSinglePct | threatAllPct => exact world_performAll _ _
  | _ => cases h

/-- How rules of an owner shift threat. -/
structure ThreatLaw (o : Occasion) (d : Dispatch) : Prop where
  accepted : ∀ inc dec p3 p4 p5 p6,
    Action.decode 13 inc dec p3 p4 p5 p6 = .ok (.threatSinglePct inc dec) ∧
      Action.decode 14 inc dec p3 p4 p5 p6 = .ok (.threatAllPct inc dec)
  asked : ∀ (a : Action) (inc dec : UInt32), a.threatShift? = some (inc, dec) →
    ShiftLaw inc dec (threatShift inc dec) ∧ ∀ (t : Targets) (literal : Position),
      (d.run o t literal a).world = d.world.after
        ((a.shifted d.world o t).map (.modifyThreat o.owner · (threatShift inc dec)))
  nothingElse : ∀ rule : Rule, ∃ cs, (d.execute o rule).world.log = d.world.log ++ cs ∧
    ∀ actor target pct, .modifyThreat actor target pct ∈ cs → actor = o.owner ∧
      ∃ step ∈ rule.actions, ∃ inc dec, step.action.threatShift? = some (inc, dec) ∧
        ShiftLaw inc dec pct

/-- Every command that shifts threat is one of the owner and carries the difference of the two
words of a step, which is exact unless it exceeds a signed word. -/
theorem threatLaw_dispatch (o : Occasion) (d : Dispatch) : ThreatLaw o d where
  accepted _ _ _ _ _ _ := ⟨rfl, rfl⟩
  asked a inc dec h := ⟨shiftLaw_threatShift inc dec, fun t literal =>
    world_run_of_threatShift? h o t literal d⟩
  nothingElse rule := by
    obtain ⟨cs, hworld, hcs⟩ := Shifts.execute o rule d
    refine ⟨cs, by rw [hworld, World.log_after], fun actor target pct hmem => ?_⟩
    obtain ⟨howner, a, ha, inc, dec, hshift, rfl⟩ := hcs _ hmem actor target pct rfl
    obtain ⟨step, hstep, rfl⟩ := List.mem_map.mp ha
    exact ⟨howner, step, hstep, inc, dec, hshift, shiftLaw_threatShift inc dec⟩

private def brawl : Dispatch where
  world := World.empty.edited [.spawn .creature 100 .origin, .spawn .player 0 .origin]
  state := {}
  rng := .ofSeed 0

/-- A raise of `2 ^ 31` percent arrives as a cut of as much, and with a cut of 1 beside it the
difference of the signed words overflows on the way. -/
theorem huge_raise_lowers_threat :
    (¬∀ (d : Dispatch) (o : Occasion) (t : Targets) (literal : Position) (inc dec : UInt32)
        (actor target : Handle) (pct : Int32), d.world.log = [] →
        .modifyThreat actor target pct ∈
          (d.run o t literal (.threatSinglePct inc dec)).world.log →
        pct.toInt = (inc.toNat : Int) - dec.toNat) ∧
      (brawl.run { owner := 1 } { entities := [2] } .origin
        (.threatSinglePct 2147483648 0)).world.log = [.modifyThreat 1 2 (-2147483648)] ∧
      (2147483648 : UInt32).toInt32.toBitVec.ssubOverflow (1 : UInt32).toInt32.toBitVec =
        true := by
  have hlog : (brawl.run { owner := 1 } { entities := [2] } .origin
      (.threatSinglePct 2147483648 0)).world.log = [.modifyThreat 1 2 (-2147483648)] := by
    decide +kernel
  refine ⟨fun hclaim => ?_, hlog, by decide⟩
  have hexact := hclaim brawl { owner := 1 } { entities := [2] } .origin 2147483648 0 1 2
    (-2147483648) (by decide +kernel) (by rw [hlog]; exact List.mem_singleton_self _)
  revert hexact
  decide

end Dispatch

end TriggerScript
