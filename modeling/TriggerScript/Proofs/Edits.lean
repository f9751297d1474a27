import TriggerScript.Proofs.Entities

/-!
# Edits of a world

From outside, a world is edited: entities come and go, what is set of them changes, and commands
are performed. Only a spawn gives out a handle, and each edit has its effect on the entities.
-/

namespace TriggerScript

inductive Setting where
  | vitals (health maxHealth power maxPower : UInt32)
  | healthPct (pct : UInt32)
  | powerPct (pct : UInt32)
  | inCombat (fighting : Bool)
  | alive (living : Bool)
  | charmed (holds : Bool)
  | casting (spell : Option UInt32)
  | aura (spell count : UInt32)
  | crowdControlled (holds : Bool)
  | faction (id : UInt32)
  | position (place : Position)
  | owner (h : Option Handle)
  | vehicle (h : Option Handle)
  | threat (target : Handle) (amount : Float32)
deriving DecidableEq

def Setting.apply (e : Entity) : Setting → Entity
  | .vitals health maxHealth power maxPower =>
      { e with info := { e.info with health, maxHealth, power, maxPower } }
  | .healthPct pct => e.withHealthPct pct
  | .powerPct pct => e.withPowerPct pct
  | .inCombat fighting => e.withCombat fighting
  | .alive living => e.withAlive living
  | .charmed holds => { e with charmed := holds }
  | .casting spell => { e with casting := spell }
  | .aura spell count => e.withAura spell count
  | .crowdControlled holds => { e with crowdControlled := holds }
  | .faction id => { e with faction := id }
  | .position place => { e with info.position := place }
  | .owner h => { e with owner := h }
  | .vehicle h => { e with vehicle := h }
  | .threat target amount => e.withThreat target amount

theorem identityOf_apply (e : Entity) (setting : Setting) :
    World.identityOf (setting.apply e) = World.identityOf e := by
  cases setting <;> rfl

inductive Edit where
  | spawn (kind : EntityKind) (entry : UInt32) (position : Position)
  | remove (h : Handle)
  | set (h : Handle) (setting : Setting)
  | addParty (members : List Handle)
  | blockSight (a b : Handle)
  | setDifficulty (difficulty : Option Difficulty)
  | refuse (command : String)
  | takeLog
  | perform (c : Command)
deriving DecidableEq

def Edit.Takes (h : Handle) : Edit → Prop
  | .remove gone => h = gone
  | .perform (.despawn gone _) => h = gone
  | _ => False

namespace World

def edit (w : World) : Edit → World
  | .spawn kind entry position => (w.spawn kind entry position).2
  | .remove h => w.remove h
  | .set h setting => w.modify h setting.apply
  | .addParty members => w.addParty members
  | .blockSight a b => w.blockSight a b
  | .setDifficulty difficulty => w.setDifficulty difficulty
  | .refuse command => w.refuse command
  | .takeLog => w.takeLog.2
  | .perform c => (w.perform c).2

def spawns (w : World) : Edit → Nat
  | .spawn .. => 1
  | .perform c => (w.summons c).toNat
  | _ => 0

def edited (w : World) (es : List Edit) : World := es.foldl edit w

/-- The number of spawns in a row of edits, those of commands included. -/
def spawnsIn (w : World) : List Edit → Nat
  | [] => 0
  | e :: es => w.spawns e + (w.edit e).spawnsIn es

@[simp] theorem edited_nil (w : World) : w.edited [] = w := rfl

@[simp] theorem edited_cons (w : World) (e : Edit) (es : List Edit) :
    w.edited (e :: es) = (w.edit e).edited es := rfl

theorem edited_append (w : World) (es fs : List Edit) :
    w.edited (es ++ fs) = (w.edited es).edited fs := by
  simp only [edited, List.foldl_append]

theorem spawnsIn_append (w : World) (es fs : List Edit) :
    w.spawnsIn (es ++ fs) = w.spawnsIn es + (w.edited es).spawnsIn fs := by
  induction es generalizing w with
  | nil => simp [spawnsIn]
  | cons e es ih => simp [spawnsIn, ih, Nat.add_assoc]

theorem edited_perform (w : World) (cs : List Command) : w.edited (cs.map .perform) = w.after cs := by
  induction cs generalizing w with
  | nil => rfl
  | cons c cs ih => exact ih _

theorem Effect.mono {lost lost' : Handle → Prop} {w v : World} {n : Nat} (h : Effect lost w v n)
    (hlost : ∀ k, lost k → lost' k) : Effect lost' w v n := by
  cases h with
  | kept next same => exact .kept next same
  | taken gone reason next rest => exact .taken gone (hlost gone reason) next rest
  | added kind entry next rest => exact .added kind entry next rest

theorem effect_edit (w : World) (e : Edit) :
    Effect (fun h => e.Takes h) w (w.edit e) (w.spawns e) := by
  cases e with
  | spawn kind entry position => exact effect_spawn w kind entry position _
  | remove h => exact effect_remove w h
  | set h setting => exact effect_modify w h (identityOf_apply · setting) _
  | perform c =>
    apply (effect_perform w c).mono
    rintro h ⟨delayMs, rfl⟩
    exact rfl
  | _ => exact .kept rfl fun _ => rfl

/-- Edits take away only entities they are about, and give out a handle with each spawn. -/
theorem follows_edited (w : World) (es : List Edit) :
    Follows (fun h => ∃ e ∈ es, e.Takes h) (w.spawnsIn es) w (w.edited es) := by
  induction es generalizing w with
  | nil => exact .refl _ w
  | cons e es ih =>
    have hfirst : Follows (fun h => ∃ d ∈ e :: es, d.Takes h) (w.spawns e) w (w.edit e) :=
      (effect_edit w e).follows.mono (fun h htakes => ⟨e, List.mem_cons_self, htakes⟩) (Nat.le_refl _)
    exact hfirst.trans ((ih (w.edit e)).mono
      (fun h ⟨d, hmem, htakes⟩ => ⟨d, List.mem_cons_of_mem e hmem, htakes⟩) (Nat.le_refl _))

def Keyed (w : World) : Prop := ∀ h i, w.identity? h = some i → i.handle = h

theorem keyed_empty : empty.Keyed := fun h i hi => by
  simp [identity?, shown, find?, empty] at hi

theorem Effect.keyed {lost : Handle → Prop} {w v : World} {n : Nat} (heffect : Effect lost w v n)
    (hw : w.Keyed) : v.Keyed := by
  intro h i hi
  cases heffect with
  | kept next same => exact hw h i (by rw [← same, hi])
  | taken gone reason next rest =>
    rw [rest] at hi
    split at hi
    · cases hi
    · exact hw h i hi
  | added kind entry next rest =>
    rw [rest] at hi
    split at hi
    · cases hi
      rfl
    · exact hw h i hi

theorem keyed_edited {w : World} (hw : w.Keyed) (es : List Edit) : (w.edited es).Keyed := by
  induction es generalizing w with
  | nil => exact hw
  | cons e es ih => exact ih ((effect_edit w e).keyed hw)

theorem Keyed.handle_eq {w : World} (hw : w.Keyed) {h : Handle} {i : EntityInfo}
    (hi : w.info? h = some i) : i.handle = h := by
  unfold info? at hi
  obtain ⟨e, he, rfl⟩ := Option.map_eq_some_iff.mp hi
  exact hw h (identityOf e) (by rw [identity?, shown, he]; rfl)

end World

end TriggerScript
