import TriggerScript.Proofs.Handles

/-!
# Commands are atomic

A command is refused by its name, fails for the first entity that it needs and that is not there, or
succeeds. Of a failure nothing is left but the entry in the log. A success changes the entity that
the command acts upon and no other one; to despawn it takes it away, and to summon adds one.
-/

namespace TriggerScript

/-- The entities that the effect of a command needs, in the order in which they are looked for. A
command without an effect that rules observe needs none. -/
def Command.needs : Command → List Handle
  | .kill target | .despawn target _ | .teleport target .. | .addAura target _
  | .removeAura target _ | .setFaction target _ => [target]
  | .interruptCast actor .. => [actor]
  | .castSpell caster target .. => [caster, target]
  | .summonCreature summoner .. => [summoner]
  | _ => []

def Command.subject? : Command → Option Handle
  | .kill target | .despawn target _ | .teleport target .. | .addAura target _
  | .removeAura target _ | .setFaction target _ => some target
  | .interruptCast actor .. => some actor
  | _ => none

/-- Whether a command adds a stack to an aura that can have no more. -/
def Command.Overflows (w : World) (c : Command) : Prop :=
  ∃ h spell, c = .addAura h spell ∧ (w.perform c).1 = .ok () ∧ w.auraStacks h spell = fullCount

namespace World

variable {w v : World} {c : Command} {h : Handle}

def missing? (w : World) (hs : List Handle) : Option Handle := hs.find? fun h => !w.exists? h

/-- An effect that needs these entities comes about, or fails for the first one that is missing. -/
def Needs (w : World) (hs : List Handle) (r : Except CommandFailure World) : Prop :=
  (w.missing? hs).elim (∃ v, r = .ok v) fun h => r = .error (.noSuchEntity h)

theorem needs_nil (w v : World) : w.Needs [] (.ok v) := ⟨v, rfl⟩

theorem Needs.require {hs : List Handle} {k : Unit → Except CommandFailure World}
    (hk : w.Needs hs (k ())) (h : Handle) : w.Needs (h :: hs) (w.require h >>= k) := by
  unfold Needs missing? World.require at *
  rw [List.find?_cons]
  cases w.exists? h with
  | true => exact hk
  | false => rfl

theorem needs_changing (w : World) (h : Handle) (change : Entity → Entity) :
    w.Needs [h] (w.changing h change) := by
  have hrequire : w.changing h change = (w.require h >>= fun _ => .ok (w.modify h change)) := by
    unfold changing World.require
    split <;> rfl
  rw [hrequire]
  exact (needs_nil w _).require h

theorem needs_apply (w : World) (c : Command) : w.Needs c.needs (w.apply c) := by
  cases c with
  | kill | teleport | setFaction | interruptCast => exact needs_changing w _ _
  | addAura target spell => exact needs_changing (w.stacking target spell) target _
  | removeAura target spell => cases spell <;> exact needs_changing w target _
  | despawn target => exact (needs_nil w _).require target
  | castSpell caster target => exact ((needs_nil w w).require target).require caster
  | summonCreature summoner => exact (needs_nil w _).require summoner
  | _ => exact needs_nil w w

/-- The name of a command is looked at first, then the entities that it needs. -/
theorem result_perform (w : World) (c : Command) :
    (w.perform c).1 =
      if c.name ∈ w.refused then .error (.rejected c.name)
      else (w.missing? c.needs).elim (.ok ()) fun h => .error (.noSuchEntity h) := by
  have hneeds := needs_apply w c
  unfold Needs at hneeds
  unfold perform
  by_cases hrefused : c.name ∈ w.refused
  · rw [if_pos (List.contains_iff_mem.mpr hrefused), if_pos hrefused]
  · rw [if_neg (mt List.contains_iff_mem.mp hrefused), if_neg hrefused]
    cases hmissing : w.missing? c.needs with
    | none =>
      rw [hmissing] at hneeds
      obtain ⟨v, hv⟩ := hneeds
      rw [hv]
      rfl
    | some h =>
      rw [hmissing, Option.elim_some] at hneeds
      rw [hneeds]
      rfl

@[simp] theorem find?_record (w : World) (c : Command) (h : Handle) :
    (w.record c).find? h = w.find? h := rfl

theorem find?_of_summoned {summoner : Handle} {entry summonType durationMs : UInt32}
    {position : Position} {attack : Option Handle}
    (hv : w.apply (.summonCreature summoner entry position summonType durationMs attack) = .ok v)
    (h : Handle) :
    v.find? h = if h = w.nextHandle then
        some { Entity.spawned h .creature entry position with owner := some summoner }
      else w.find? h := by
  cases require_bind hv
  change ((w.spawn .creature entry position).2.modify w.nextHandle
    fun e => { e with owner := some summoner }).find? h = _
  rw [find?_modify, find?_spawn]
  split <;> rfl

theorem exists?_apply_of_subject (hv : w.apply c = .ok v) (hsubject : c.subject? = some h)
    (hdespawn : ∀ delayMs, c ≠ .despawn h delayMs) : v.exists? h = w.exists? h := by
  have hchanged : ∀ {u : World} {target change}, u.changing target change = .ok v →
      u.exists? h = w.exists? h → v.exists? h = w.exists? h := by
    intro u target change hv hsame
    rw [← (changing_eq_ok hv).2, ← hsame, exists?, exists?, find?_modify]
    split <;> simp
  cases c with
  | kill | teleport | addAura | setFaction | interruptCast => exact hchanged hv rfl
  | removeAura target spell => cases spell <;> exact hchanged hv rfl
  | despawn target delayMs =>
    cases hsubject
    exact absurd rfl (hdespawn delayMs)
  | _ => cases hsubject

theorem overflowed_apply (hv : w.apply c = .ok v) (hc : ∀ h spell, c ≠ .addAura h spell) :
    v.overflowed = w.overflowed := by
  have hchanged : ∀ {target change}, w.changing target change = .ok v →
      v.overflowed = w.overflowed := by
    intro target change hv
    rw [← (changing_eq_ok hv).2]
    rfl
  cases c with
  | addAura target spell => exact absurd rfl (hc target spell)
  | kill | teleport | setFaction | interruptCast => exact hchanged hv
  | removeAura target spell => cases spell <;> exact hchanged hv
  | despawn | summonCreature =>
    cases require_bind hv
    rfl
  | castSpell =>
    cases require_bind (require_bind hv)
    rfl
  | _ =>
    cases hv
    rfl

theorem overflowed_perform_iff (w : World) (c : Command) :
    (w.perform c).2.overflowed = true ↔ w.overflowed = true ∨ c.Overflows w := by
  by_cases hok : (w.perform c).1 = .ok ()
  · obtain ⟨v, hv, heq⟩ := perform_of_ok hok
    have hflag : (w.perform c).2.overflowed = v.overflowed := by rw [heq]; rfl
    rw [hflag]
    by_cases hadds : ∃ h spell, c = .addAura h spell
    · obtain ⟨h, spell, rfl⟩ := hadds
      rw [← (changing_eq_ok hv).2]
      change (w.overflowed || w.auraStacks h spell == fullCount) = true ↔ _
      rw [Bool.or_eq_true, beq_iff_eq]
      refine or_congr_right ⟨fun hfull => ⟨h, spell, rfl, hok, hfull⟩, ?_⟩
      rintro ⟨k, s, hc, -, hfull⟩
      cases hc
      exact hfull
    · rw [overflowed_apply hv fun h spell hc => hadds ⟨h, spell, hc⟩]
      exact (or_iff_left fun ⟨h, spell, hc, _⟩ => hadds ⟨h, spell, hc⟩).symm
  · rw [perform_of_failed hok]
    exact (or_iff_left fun ⟨_, _, _, haccepted, _⟩ => hok haccepted).symm

end World

end TriggerScript
