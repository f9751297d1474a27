import TriggerScript.World

/-!
# Worlds under commands

Scripts change the world by commands alone, and every command enters the log. So the worlds that a
script goes through are those after the prefixes of what it adds to the log.
-/

namespace TriggerScript.World

def after (w : World) (cs : List Command) : World := cs.foldl (fun w c => (w.perform c).2) w

@[simp] theorem after_nil (w : World) : w.after [] = w := rfl

@[simp] theorem after_cons (w : World) (c : Command) (cs : List Command) :
    w.after (c :: cs) = (w.perform c).2.after cs := rfl

theorem after_append (w : World) (cs ds : List Command) :
    w.after (cs ++ ds) = (w.after cs).after ds := by
  simp only [after, List.foldl_append]

theorem changing_eq_ok {w v : World} {h : Handle} {change : Entity → Entity}
    (hv : w.changing h change = .ok v) : w.exists? h = true ∧ w.modify h change = v := by
  unfold changing at hv
  split at hv
  · rename_i hthere
    exact ⟨hthere, Except.ok.inj hv⟩
  · cases hv

private theorem exists_entities_of_changing {u w v : World} {h : Handle}
    {change : Entity → Entity} (hv : u.changing h change = .ok v)
    (hu : ∃ overflowed, u = { w with overflowed }) :
    ∃ entities nextHandle overflowed, v = { w with entities, nextHandle, overflowed } := by
  obtain ⟨overflowed, rfl⟩ := hu
  exact ⟨_, _, _, (changing_eq_ok hv).2.symm⟩

theorem require_bind {w v : World} {h : Handle} {k : Unit → Except CommandFailure World}
    (hv : (w.require h >>= k) = .ok v) : k () = .ok v := by
  unfold require at hv
  split at hv
  · exact hv
  · cases hv

theorem exists_entities_of_apply {w v : World} {c : Command} (hv : w.apply c = .ok v) :
    ∃ entities nextHandle overflowed, v = { w with entities, nextHandle, overflowed } := by
  cases c with
  | kill | teleport | addAura | setFaction | interruptCast =>
    exact exists_entities_of_changing hv ⟨_, rfl⟩
  | removeAura target spell => cases spell <;> exact exists_entities_of_changing hv ⟨_, rfl⟩
  | despawn =>
    cases require_bind hv
    exact ⟨_, _, _, rfl⟩
  | castSpell =>
    cases require_bind (require_bind hv)
    exact ⟨_, _, _, rfl⟩
  | summonCreature =>
    cases require_bind hv
    exact ⟨_, _, _, rfl⟩
  | _ =>
    cases hv
    exact ⟨_, _, _, rfl⟩

theorem perform_of_failed {w : World} {c : Command} (hfailed : (w.perform c).1 ≠ .ok ()) :
    (w.perform c).2 = w.record c := by
  unfold perform at *
  split at hfailed
  · rename_i hrefused
    rw [if_pos hrefused]
  · rename_i hrefused
    rw [if_neg hrefused]
    cases hv : w.apply c with
    | ok v =>
      rw [hv] at hfailed
      exact absurd rfl hfailed
    | error failure => rfl

theorem perform_of_ok {w : World} {c : Command} (hok : (w.perform c).1 = .ok ()) :
    ∃ v, w.apply c = .ok v ∧ (w.perform c).2 = v.record c := by
  unfold perform at *
  split at hok
  · cases hok
  · rename_i hrefused
    rw [if_neg hrefused]
    cases hv : w.apply c with
    | ok v => exact ⟨v, rfl, rfl⟩
    | error failure =>
      rw [hv] at hok
      cases hok

theorem perform_cases (w : World) (c : Command) :
    (w.perform c).2 = w.record c ∨ ∃ v, w.apply c = .ok v ∧ (w.perform c).2 = v.record c := by
  by_cases hok : (w.perform c).1 = .ok ()
  · exact .inr (perform_of_ok hok)
  · exact .inl (perform_of_failed hok)

theorem exists_entities_of_perform (w : World) (c : Command) : ∃ entities nextHandle overflowed,
    (w.perform c).2 = { w with entities, nextHandle, overflowed, log := w.log ++ [c] } := by
  rcases w.perform_cases c with hfailed | ⟨v, hv, hdone⟩
  · exact ⟨w.entities, w.nextHandle, w.overflowed, hfailed⟩
  · obtain ⟨entities, nextHandle, overflowed, rfl⟩ := exists_entities_of_apply hv
    exact ⟨entities, nextHandle, overflowed, hdone⟩

@[simp] theorem log_perform (w : World) (c : Command) : (w.perform c).2.log = w.log ++ [c] := by
  obtain ⟨entities, nextHandle, overflowed, hw⟩ := exists_entities_of_perform w c
  rw [hw]

@[simp] theorem difficulty_perform (w : World) (c : Command) :
    (w.perform c).2.difficulty = w.difficulty := by
  obtain ⟨entities, nextHandle, overflowed, hw⟩ := exists_entities_of_perform w c
  rw [hw]

@[simp] theorem log_after (w : World) (cs : List Command) : (w.after cs).log = w.log ++ cs := by
  induction cs generalizing w with
  | nil => simp
  | cons c cs ih => rw [after_cons, ih, log_perform, List.append_assoc, List.singleton_append]

@[simp] theorem difficulty_after (w : World) (cs : List Command) :
    (w.after cs).difficulty = w.difficulty := by
  induction cs generalizing w with
  | nil => rfl
  | cons c cs ih => rw [after_cons, ih, difficulty_perform]

@[simp] theorem refused_perform (w : World) (c : Command) :
    (w.perform c).2.refused = w.refused := by
  obtain ⟨entities, nextHandle, overflowed, hw⟩ := exists_entities_of_perform w c
  rw [hw]

@[simp] theorem refused_after (w : World) (cs : List Command) :
    (w.after cs).refused = w.refused := by
  induction cs generalizing w with
  | nil => rfl
  | cons c cs ih => rw [after_cons, ih, refused_perform]

def Becomes (w v : World) : Prop := ∃ cs, v = w.after cs

theorem Becomes.refl (w : World) : w.Becomes w := ⟨[], rfl⟩

theorem Becomes.trans {u v w : World} (h : u.Becomes v) (h' : v.Becomes w) : u.Becomes w := by
  obtain ⟨cs, rfl⟩ := h
  obtain ⟨ds, rfl⟩ := h'
  exact ⟨cs ++ ds, (after_append u cs ds).symm⟩

theorem becomes_perform (w : World) (c : Command) : w.Becomes (w.perform c).2 := ⟨[c], rfl⟩

/-- A property holds in every world on the way from one world to another. -/
def Throughout (P : World → Prop) (w v : World) : Prop :=
  ∀ cs, w.log ++ cs <+: v.log → P (w.after cs)

theorem Throughout.of_becomes {P : World → Prop} {u v w : World} (h : Throughout P u w)
    (huv : u.Becomes v) (hvw : v.Becomes w) : P v ∧ Throughout P v w := by
  obtain ⟨cs, rfl⟩ := huv
  have hlog : (u.after cs).log = u.log ++ cs := log_after u cs
  constructor
  · obtain ⟨ds, rfl⟩ := hvw
    apply h
    rw [log_after, log_after]
    exact List.prefix_append _ _
  · intro ds hds
    rw [← after_append]
    apply h
    rwa [hlog, List.append_assoc] at hds

end TriggerScript.World
