import TriggerScript.Proofs.ListTurns
import TriggerScript.Proofs.Notices
import TriggerScript.Proofs.Resets

/-!
# Calls

A call that carries out an operation does nothing, ends the life of the script, or ends with a
commit. Without resets and despawning the commit settles what was staged and does nothing else.
-/

namespace TriggerScript

/-- Nothing resets the script or ends its life. -/
def Undisturbed (js : List Incident) : Prop := Incident.reset ∉ js ∧ Incident.despawned ∉ js

theorem undisturbed_append {js ks : List Incident} :
    Undisturbed (js ++ ks) ↔ Undisturbed js ∧ Undisturbed ks := by
  unfold Undisturbed
  simp only [List.mem_append, not_or]
  tauto

namespace Script

variable {s : Script} {w : World} {op : Operation} {p : Progress}

theorem journal_calls_concat (s : Script) (cs : List Call) (c : Call) :
    (s.calls (cs ++ [c])).2 =
      (s.calls cs).2 ++ ((s.calls cs).1.operate c.world c.op).journal := by
  rw [calls_append]
  exact congrArg ((s.calls cs).2 ++ ·) (List.append_nil _)

theorem Commits.walks (h : Commits s w op p) (hs : s.Listed) : Walks Lasts s w p := by
  cases h with
  | @advance signal deltaMs _ =>
    have hwalks := lasts_stages (w := w) hs deltaMs signal
    exact ⟨(keeps_taken s).trans hwalks.keeps, hwalks.listed, hwalks.law.despawned,
      hwalks.law.world⟩
  | reset => exact lasts_commitLaw.walks_startOver
  | @forceFire _ rule _ =>
    have hfires := fires_fireHead s.rules { owner := s.owner } true rule s w
    exact ⟨hfires.keeps.toKeeps, hs.of_eq hfires.keeps.lists hfires.keeps.store,
      hfires.keeps.despawned, hfires.world⟩

theorem Commits.unique {q : Progress} (h : Commits s w op p) (h' : Commits s w op q) : p = q := by
  cases h with
  | advance => cases h'; rfl
  | reset => cases h'; rfl
  | forceFire hfind =>
    cases h' with
    | forceFire hfind' =>
      rw [hfind] at hfind'
      cases hfind'
      rfl

theorem operate_of_unknown {ruleId : RuleId} (hfind : s.rules.find? ruleId = none) (w : World) :
    s.operate w (.forceFire ruleId) = { script := s, world := w } := by
  show (s.forceFire? ruleId w).getD { script := s, world := w } = { script := s, world := w }
  unfold forceFire?
  rw [hfind]
  rfl

structure EndsLife (p : Progress) : Prop where
  lists : p.script.lists = ∅
  unlisted : Unlisted p.journal
  noted : Incident.despawned ∈ p.journal

theorem endsLife_despawn (hs : s.Listed) (hd : s.despawned = false) (w : World) :
    EndsLife (s.despawn w) := by
  have hnoted := mem_despawned_despawn hd w
  have hsilent := (unlisted_commitLaw.walks_handleSignal (w := w) hs .despawn).law
  unfold despawn at hnoted ⊢
  rw [if_neg (by simp [hd])] at hnoted ⊢
  exact ⟨rfl, hsilent.append (by simp [retire, Unlisted]), hnoted⟩

theorem endsLife_advance (hs : s.Listed) (hd : s.despawned = false) (deltaMs : UInt32)
    (w : World) : EndsLife (s.advance deltaMs (some .despawn) w) := by
  have htold := lasts_commitLaw.walks_handleDeferred (w := w) hs
  have hsilent := (unlisted_commitLaw.walks_handleDeferred (w := w) hs).law
  have halive : (s.handleDeferred w).script.despawned = false := by
    rw [htold.law.despawned, despawned_taken, hd]
  have hends := endsLife_despawn htold.listed halive (s.handleDeferred w).world
  rw [advance_despawn hd]
  exact ⟨hends.lists, hsilent.append hends.unlisted, List.mem_append_right _ hends.noted⟩

/-- A call does nothing, ends the life of the script, or ends with a commit. -/
theorem operate_cases (hs : s.Listed) (w : World) (op : Operation) :
    s.operate w op = { script := s, world := w } ∨ EndsLife (s.operate w op) ∨
      ∃ p, Commits s w op p ∧ s.operate w op = p.andThen commit := by
  cases hd : s.despawned with
  | true => exact .inl (operate_of_despawned hd w op)
  | false =>
    have hcommits : ∀ {op p}, Commits s w op p →
        ∃ p, Commits s w op p ∧ s.operate w op = p.andThen commit :=
      fun h => ⟨_, h, h.operate_eq hd⟩
    cases op with
    | advance deltaMs signal =>
      by_cases hsig : signal = some .despawn
      · subst hsig
        exact .inr (.inl (endsLife_advance hs hd deltaMs w))
      · exact .inr (.inr (hcommits (.advance deltaMs hsig)))
    | reset => exact .inr (.inr (hcommits .reset))
    | forceFire ruleId =>
      cases hfind : s.rules.find? ruleId with
      | none => exact .inl (operate_of_unknown hfind w)
      | some rule => exact .inr (.inr (hcommits (.forceFire hfind)))
    | despawn => exact .inr (.inl (endsLife_despawn hs hd w))

theorem settles_of_undisturbed (heq : s.operate w op = p.andThen commit)
    (h : Undisturbed (s.operate w op).journal) :
    Undisturbed p.journal ∧ s.operate w op = p.andThen settle := by
  rw [heq, Progress.journal_andThen, undisturbed_append] at h
  refine ⟨h.1, ?_⟩
  rw [heq]
  unfold Progress.andThen
  rw [commit_of_not_reset h.2.1]

theorem undisturbed_cases (hs : s.Listed) (h : Undisturbed (s.operate w op).journal) :
    s.operate w op = { script := s, world := w } ∨
      ∃ p, Commits s w op p ∧ Undisturbed p.journal ∧ s.operate w op = p.andThen settle := by
  rcases operate_cases hs w op with hidle | hends | ⟨p, hcommits, heq⟩
  · exact .inl hidle
  · exact absurd hends.noted h.2
  · exact .inr ⟨p, hcommits, settles_of_undisturbed heq h⟩

/-- An undisturbed call on a live script is for an unknown rule, or settles what it staged. -/
theorem commits_of_undisturbed (hs : s.Listed) (hd : s.despawned = false)
    (h : Undisturbed (s.operate w op).journal) :
    (∃ ruleId, op = .forceFire ruleId ∧ s.rules.find? ruleId = none) ∨
      ∃ p, Commits s w op p ∧ Undisturbed p.journal ∧ s.operate w op = p.andThen settle := by
  have hcommits : ∀ {p}, Commits s w op p →
      ∃ p, Commits s w op p ∧ Undisturbed p.journal ∧ s.operate w op = p.andThen settle :=
    fun hp => ⟨_, hp, settles_of_undisturbed (hp.operate_eq hd) h⟩
  cases op with
  | advance deltaMs signal =>
    by_cases hsig : signal = some .despawn
    · subst hsig
      exact absurd (endsLife_advance hs hd deltaMs w).noted h.2
    · exact .inr (hcommits (.advance deltaMs hsig))
  | reset => exact .inr (hcommits .reset)
  | forceFire ruleId =>
    cases hfind : s.rules.find? ruleId with
    | none => exact .inl ⟨ruleId, rfl, hfind⟩
    | some rule => exact .inr (hcommits (.forceFire hfind))
  | despawn => exact absurd (endsLife_despawn hs hd w).noted h.2

theorem alive_of_undisturbed (hs : s.Listed) (hd : s.despawned = false)
    (h : Undisturbed (s.operate w op).journal) : (s.operate w op).script.despawned = false := by
  rcases undisturbed_cases hs h with hidle | ⟨p, hcommits, -, heq⟩
  · rw [hidle]
    exact hd
  · rw [heq, Progress.script_andThen]
    exact (despawned_commitState p.script).trans ((hcommits.walks hs).law.despawned.trans hd)

end Script

end TriggerScript
