import Mathlib.Data.List.Chain
import Mathlib.Data.List.Nodup
import TriggerScript.Proofs.FiringLaws

/-!
# Chains of links

A rule that fires is followed by the rule of its set that it names, one link deeper, and so on.
However the rules of a set name each other, the chain is over at the limit of the configuration at
the latest, so that a depth kept in a byte never wraps.
-/

namespace TriggerScript

variable {set : RuleSet} {rule next : Rule}

def RuleSet.IsLinked (set : RuleSet) (rule next : Rule) : Prop :=
  ∀ x, x ∈ set.rules ∧ rule.linkTo = some x.id ↔ x = next

theorem RuleSet.linkTo_of_next? (h : set.next? rule = some next) :
    rule.linkTo = some next.id := by
  obtain ⟨id, hto, hid⟩ := Option.bind_eq_some_iff.mp h
  rw [hto, RuleSet.id_of_find? hid]

theorem RuleSet.isLinked_of_next? (hids : (set.rules.map (·.id)).Nodup)
    (h : set.next? rule = some next) : set.IsLinked rule next := by
  have hto := RuleSet.linkTo_of_next? h
  have hmem := RuleSet.mem_of_next? h
  intro x
  constructor
  · rintro ⟨hx, hxto⟩
    apply List.inj_on_of_nodup_map hids hx hmem
    rw [hto] at hxto
    exact (Option.some.inj hxto).symm
  · rintro rfl
    exact ⟨hmem, hto⟩

theorem RuleSet.unlinked_of_next? (h : set.next? rule = none) :
    ∀ x ∈ set.rules, rule.linkTo ≠ some x.id := by
  intro x hx hto
  have hnone : set.find? x.id = none := by
    rw [RuleSet.next?, hto] at h
    exact h
  exact RuleSet.find?_eq_none_iff.mp hnone x hx rfl

namespace Script

/-- A rule that does not fire, with the script that is left: something vetoes the rule, or it loses
its chance. -/
inductive Refuses (set : RuleSet) (forced : Bool) (rule : Rule) (s : Script) (w : World) :
    Script → Prop
  | vetoed : s.isVetoed w set rule = true → Refuses set forced rule s w s
  | unlucky : s.isVetoed w set rule = false → (s.losesChance forced rule).1 = true →
      Refuses set forced rule s w (s.losesChance forced rule).2

inductive ChainEnds (set : RuleSet) (limit : Nat) (last : Rule) (depth : Nat) (t : Script)
    (w : World) : Prop
  | unlinked : (∀ x ∈ set.rules, last.linkTo ≠ some x.id) → ChainEnds set limit last depth t w
  | refused {s next} : depth < limit → set.IsLinked last next → Refuses set false next s w t →
      ChainEnds set limit last depth t w
  | deep : depth = limit → ChainEnds set limit last depth t w

def linkJournal (depth : Nat) : List (Rule × Nat) → List Incident
  | [] => []
  | (rule, commands) :: hops => .fired rule depth commands :: linkJournal (depth + 1) hops

/-- What firing a rule at some depth comes to: a chain of links from the rule on. -/
structure Chained (set : RuleSet) (limit depth : Nat) (forced : Bool) (rule : Rule) (s : Script)
    (w : World) (r : FireOutcome × Progress) (hops : List (Rule × Nat)) : Prop where
  journal : r.2.journal = linkJournal depth hops
  outcome : r.1 = .fired ↔ hops ≠ []
  head : ∀ hop ∈ hops.head?, hop.1 = rule
  linked : hops.IsChain fun hop hop' => set.IsLinked hop.1 hop'.1
  bounded : hops.length ≤ limit - depth + 1
  refused : hops = [] → Refuses set forced rule s w r.2.script ∧ r.2.world = w
  ended : ∀ last d n, r.2.journal.getLast? = some (.fired last d n) →
    ChainEnds set limit last d r.2.script r.2.world

section

variable {o : Occasion} {limit links depth : Nat} {forced : Bool} {s : Script} {w : World}

theorem chained_of_refuses {outcome : FireOutcome} {t : Script} (ho : outcome ≠ .fired)
    (h : Refuses set forced rule s w t) :
    Chained set limit depth forced rule s w (outcome, { script := t, world := w }) [] where
  journal := rfl
  outcome := by simp [ho]
  head := by simp
  linked := List.isChain_nil
  bounded := Nat.zero_le _
  refused := fun _ => ⟨h, rfl⟩
  ended := by simp

theorem chained_alone (h : ChainEnds set limit rule depth
      (shoot set o depth forced rule s w).script (shoot set o depth forced rule s w).world) :
    ∃ hop, Chained set limit depth forced rule s w (.fired, shoot set o depth forced rule s w)
      [hop] := by
  obtain ⟨n, hjournal⟩ := journal_shoot set o depth forced rule s w
  refine ⟨(rule, n), ?_⟩
  constructor
  · exact hjournal
  · simp
  · simp
  · exact List.isChain_singleton _
  · simp
  · simp
  · intro last d m hlast
    rw [hjournal] at hlast
    cases hlast
    exact h

theorem Chained.cons {hops : List (Rule × Nat)} {r : FireOutcome × Progress}
    (hdepth : depth < limit) (hnext : set.IsLinked rule next)
    (h : Chained set limit (depth + 1) false next (shoot set o depth forced rule s w).script
      (shoot set o depth forced rule s w).world r hops) :
    ∃ hop, Chained set limit depth forced rule s w
      (.fired, (shoot set o depth forced rule s w).andThen fun _ _ => r.2) (hop :: hops) := by
  obtain ⟨n, hhead⟩ := journal_shoot set o depth forced rule s w
  have hjournal : ((shoot set o depth forced rule s w).andThen fun _ _ => r.2).journal =
      .fired rule depth n :: r.2.journal := by
    rw [Progress.journal_andThen, hhead, List.singleton_append]
  refine ⟨(rule, n), ?_⟩
  constructor
  · rw [hjournal, h.journal]
    rfl
  · simp
  · simp
  · rw [List.isChain_cons]
    refine ⟨?_, h.linked⟩
    intro hop hhop
    rw [h.head hop hhop]
    exact hnext
  · have hle := h.bounded
    rw [List.length_cons]
    omega
  · simp
  · intro last d m hlast
    rw [hjournal, List.getLast?_cons] at hlast
    cases hrest : r.2.journal.getLast? with
    | some i =>
      rw [hrest] at hlast
      apply h.ended
      rw [hrest]
      exact hlast
    | none =>
      -- Nothing fired behind the rule, so the chain ends with the rule it names.
      rw [hrest] at hlast
      cases hlast
      have hnil : hops = [] := by
        rw [List.getLast?_eq_none_iff, h.journal] at hrest
        cases hops with
        | nil => rfl
        | cons hop hops => cases hrest
      obtain ⟨hrefused, hworld⟩ := h.refused hnil
      rw [← hworld] at hrefused
      exact .refused hdepth hnext hrefused

theorem chained_fire (hids : (set.rules.map (·.id)).Nodup) (hlimit : depth + links = limit) :
    ∃ hops, Chained set limit depth forced rule s w (fire set o links depth forced rule s w)
      hops := by
  induction links using Nat.strongRecOn generalizing depth forced rule s w with
  | ind links ih =>
    rcases fire_cases set o links depth forced rule s w with
      ⟨hv, h⟩ | ⟨hv, hl, h⟩ | ⟨hthrough, h⟩
    · rw [h]
      exact ⟨[], chained_of_refuses (by simp) (.vetoed hv)⟩
    · rw [h]
      exact ⟨[], chained_of_refuses (by simp) (.unlucky hv hl)⟩
    · rw [h]
      rcases follow_cases set o links depth rule (shoot set o depth forced rule s w) with
        ⟨hstop, hend⟩ | ⟨left, next, rfl, hnext, hgo⟩
      · rw [hend]
        have hends : ChainEnds set limit rule depth (shoot set o depth forced rule s w).script
            (shoot set o depth forced rule s w).world := by
          rcases hstop with rfl | hnone
          · exact .deep hlimit
          · exact .unlinked (RuleSet.unlinked_of_next? hnone)
        obtain ⟨hop, hchain⟩ := chained_alone hends
        exact ⟨[hop], hchain⟩
      · rw [hgo]
        have hdeeper : depth + 1 + left = limit := by omega
        obtain ⟨hops, hrest⟩ := @ih left (Nat.lt_succ_self left) next (depth + 1) false
          (shoot set o depth forced rule s w).script (shoot set o depth forced rule s w).world
          hdeeper
        obtain ⟨hop, hchain⟩ := hrest.cons (by omega) (RuleSet.isLinked_of_next? hids hnext)
        exact ⟨hop :: hops, hchain⟩

end

theorem toNat_succ_of_lt {depth limit : UInt8} (h : depth < limit) :
    (depth + 1).toNat = depth.toNat + 1 := by
  have hlt := UInt8.lt_iff_toNat_lt.mp h
  have hlimit := limit.toNat_lt
  rw [UInt8.toNat_add]
  change (depth.toNat + 1) % 2 ^ 8 = depth.toNat + 1
  omega

theorem ne_full_of_lt {depth limit : UInt8} (h : depth < limit) : depth ≠ 255 := by
  rintro rfl
  have hlimit := limit.toNat_lt
  have hfull := UInt8.lt_iff_toNat_lt.mp h
  change 255 < limit.toNat at hfull
  omega

/-- Fire a rule at a depth kept in a byte, and follow its links below the limit of the
configuration. A byte that is full cannot be counted on: then nothing comes out. -/
def fireAt? (set : RuleSet) (o : Occasion) (depth : UInt8) (forced : Bool) (rule : Rule)
    (s : Script) (w : World) : Option (FireOutcome × Progress) :=
  if s.isVetoed w set rule then some (.vetoed, { script := s, world := w })
  else if (s.losesChance forced rule).1 then
    some (.chanceFailed, { script := (s.losesChance forced rule).2, world := w })
  else
    let p := shoot set o depth.toNat forced rule s w
    match set.next? rule with
    | none => some (.fired, p)
    | some next =>
        if depth < s.config.maxLinkDepth then
          if depth = 255 then none
          else
            (fireAt? set o (depth + 1) false next p.script p.world).map fun r =>
              (.fired, p.andThen fun _ _ => r.2)
        else some (.fired, p)
termination_by s.config.maxLinkDepth.toNat - depth.toNat
decreasing_by
  have hlt : depth < s.config.maxLinkDepth := by assumption
  have hconfig := (keeps_shoot set o depth.toNat forced rule s w).config
  rw [hconfig, toNat_succ_of_lt hlt]
  have hlt' := UInt8.lt_iff_toNat_lt.mp hlt
  omega

/-- No byte is ever full: counting depths in a byte comes to the same as counting the links that are
left. -/
theorem fireAt?_eq (set : RuleSet) (o : Occasion) (forced : Bool) (rule : Rule) (w : World)
    {depth : UInt8} {s : Script} (hdepth : depth ≤ s.config.maxLinkDepth) :
    fireAt? set o depth forced rule s w =
      some (fire set o (s.config.maxLinkDepth.toNat - depth.toNat) depth.toNat forced rule s
        w) := by
  -- By induction on the links that are left, which are fewer the deeper a rule fires.
  generalize hlinks : s.config.maxLinkDepth.toNat - depth.toNat = links
  induction links using Nat.strongRecOn generalizing depth forced rule s w with
  | ind links ih =>
    unfold fireAt?
    rcases fire_cases set o links depth.toNat forced rule s w with
      ⟨hv, h⟩ | ⟨hv, hl, h⟩ | ⟨hthrough, h⟩
    · rw [h, if_pos hv]
    · rw [h, if_neg (by simp [hv]), if_pos hl]
    · rw [h, if_neg (by simp [hthrough.unvetoed]), if_neg (by simp [hthrough.lucky])]
      dsimp only
      have hle := UInt8.le_iff_toNat_le.mp hdepth
      rcases follow_cases set o links depth.toNat rule (shoot set o depth.toNat forced rule s w)
        with ⟨hstop, hend⟩ | ⟨left, next, rfl, hnext, hgo⟩
      · rw [hend]
        rcases hstop with rfl | hnone
        · have hdeep : ¬depth < s.config.maxLinkDepth := by
            rw [UInt8.lt_iff_toNat_lt]
            omega
          split
          · rfl
          · rw [if_neg hdeep]
        · rw [hnone]
      · have hlt : depth < s.config.maxLinkDepth := by
          rw [UInt8.lt_iff_toNat_lt]
          omega
        have hconfig := (keeps_shoot set o depth.toNat forced rule s w).config
        have hsucc := toNat_succ_of_lt hlt
        have hrest : fireAt? set o (depth + 1) false next
            (shoot set o depth.toNat forced rule s w).script
            (shoot set o depth.toNat forced rule s w).world =
              some (fire set o left (depth.toNat + 1) false next
                (shoot set o depth.toNat forced rule s w).script
                (shoot set o depth.toNat forced rule s w).world) := by
          rw [← hsucc]
          apply ih left (Nat.lt_succ_self left)
          · rw [hconfig, UInt8.le_iff_toNat_le]
            omega
          · rw [hconfig]
            omega
        rw [hgo, hnext]
        dsimp only
        rw [if_pos hlt, if_neg (ne_full_of_lt hlt), hrest]
        rfl

/-- Links are followed without a gap and never beyond the limit, whatever the rules name, and a
chain ends for one of three reasons alone. -/
theorem links_are_exact_and_bounded (o : Occasion) (forced : Bool) (rule : Rule) (w : World)
    {set : RuleSet} {depth : UInt8} {s : Script} (hids : (set.rules.map (·.id)).Nodup)
    (hdepth : depth ≤ s.config.maxLinkDepth) :
    let limit := s.config.maxLinkDepth.toNat
    let r := fire set o (limit - depth.toNat) depth.toNat forced rule s w
    fireAt? set o depth forced rule s w = some r ∧
      ∃ hops, Chained set limit depth.toNat forced rule s w r hops := by
  refine ⟨fireAt?_eq set o forced rule w hdepth, ?_⟩
  apply chained_fire hids
  have hle := UInt8.le_iff_toNat_le.mp hdepth
  omega

private def echo : Rule where
  link := .creature 100
  id := 7
  spec :=
    { event := .link, phase := .always, flags := .none, chance := 100
      cooldownMin := 0, cooldownMax := 0 }
  actions := []
  target := { target := .none }
  linkTo := some 7
  comment := ""

private def echoSet : RuleSet := { link := .creature 100, rules := [echo] }

private def echoing : Script :=
  fresh 1 echoSet ∅ { maxLinkDepth := 255 } { key := .replicate 8 0 }

/-- A rule that names itself fires at the two greatest depths of a byte and no further. -/
theorem echo_stops_at_full_byte :
    (echoSet.rules.map (·.id)).Nodup ∧ 254 ≤ echoing.config.maxLinkDepth ∧
      (fireAt? echoSet { owner := 1 } 254 false echo echoing .empty).map (·.2.journal) =
        some [.fired echo 254 0, .fired echo 255 0] := by
  have hids : (echoSet.rules.map (·.id)).Nodup := by decide
  have hdepth : 254 ≤ echoing.config.maxLinkDepth := by decide
  have hexact := links_are_exact_and_bounded { owner := 1 } false echo .empty hids hdepth
  refine ⟨hids, hdepth, ?_⟩
  rw [hexact.1]
  rfl

end Script

end TriggerScript
