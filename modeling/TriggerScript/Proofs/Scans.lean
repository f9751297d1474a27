import Mathlib.Data.List.Nodup
import TriggerScript.Proofs.Least
import TriggerScript.Proofs.Nearness

/-!
# What a scan names

A scan holds exactly when an entity near the owner qualifies, and then names the one of those that
comes first: the closest, the most needy or just the one of the lowest handle. It names the same one
in whatever order the entities are listed.
-/

namespace TriggerScript

def Surroundings.Friend (s : Surroundings) (me e : EntityInfo) : Prop :=
  e.kind.isUnit = true ∧ e.alive = true ∧
    (e.handle = me.handle ∨ s.isHostile me.handle e.handle = false)

namespace Event

/-- Range of the events that scan the entities near their owner. -/
def scanRange? : Event → Option Float32
  | .oocLos _ max _ | .icLos _ max _ | .friendlyHealth _ max | .friendlyHealthPct _ _ max
  | .friendlyIsCc max | .friendlyMissingBuff _ max => some (if max = 0 then 100 else max).toFloat32
  | .distanceCreature guid _ distance | .distanceGameObject guid _ distance =>
      if guid = 0 then some distance.toFloat32 else none
  | _ => none

/-- What such an event asks of an entity near `me`. -/
def Seeks (event : Event) (s : Surroundings) (me e : EntityInfo) : Prop :=
  match event with
  | .oocLos hostility _ playerOnly | .icLos hostility _ playerOnly =>
      e.handle ≠ me.handle ∧ e.kind.isUnit = true ∧ e.alive = true ∧
        (playerOnly = true → e.kind = .player) ∧ s.inLineOfSight me.handle e.handle = true ∧
        (hostility = .hostile → s.isHostile me.handle e.handle = true) ∧
        (hostility = .notHostile → s.isHostile me.handle e.handle = false)
  | .distanceCreature _ entry _ =>
      e.handle ≠ me.handle ∧ e.kind = .creature ∧ e.alive = true ∧ e.entry = entry
  | .distanceGameObject _ entry _ =>
      e.handle ≠ me.handle ∧ e.kind = .gameObject ∧ e.alive = true ∧ e.entry = entry
  | .friendlyHealth hpDeficit _ => s.Friend me e ∧ max 1 hpDeficit ≤ e.healthDeficit
  | .friendlyHealthPct min max _ => s.Friend me e ∧ min ≤ e.healthPct ∧ e.healthPct ≤ max
  | .friendlyIsCc _ => s.Friend me e ∧ s.crowdControlled e.handle = true
  | .friendlyMissingBuff spell _ => s.Friend me e ∧ s.auraStacks e.handle spell = 0
  | _ => False

/-- Which of two entities such an event would rather name, whatever their handles. -/
def Prefers (event : Event) (me a b : EntityInfo) : Prop :=
  match event with
  | .oocLos .. | .icLos .. | .distanceCreature .. | .distanceGameObject .. =>
      me.position.distance a.position < me.position.distance b.position
  | .friendlyHealth .. => b.healthDeficit < a.healthDeficit
  | .friendlyHealthPct .. => a.healthPct < b.healthPct
  | _ => False

end Event

structure Scanned (near : List EntityInfo) (seeks : EntityInfo → Prop)
    (prefers : EntityInfo → EntityInfo → Prop) (hit : Option Hit) : Prop where
  holds : hit.isSome = true ↔ ∃ e ∈ near, seeks e
  first : ∀ found, hit = some found → ∃ e ∈ near, seeks e ∧ found.invoker = some e.handle ∧
    ∀ a ∈ near, seeks a → a.handle ≠ e.handle →
      prefers e a ∨ ¬prefers a e ∧ e.handle < a.handle

namespace Surroundings

variable {s : Surroundings} {me : EntityInfo} {range : Float32}
  {outranks : EntityInfo → EntityInfo → Bool} {keep : EntityInfo → Bool}

theorem first?_eq (s : Surroundings) (me : EntityInfo) (range : Float32)
    (outranks : EntityInfo → EntityInfo → Bool) (keep : EntityInfo → Bool) :
    s.first? me range outranks keep =
      (leastBy (tiesByHandle outranks (·.handle)) ((s.near me.position range).filter keep)).map
        fun e => ⟨some e.handle⟩ :=
  rfl

variable (horder : WeakOrder outranks (s.near me.position range))
include horder

theorem scanned_first? :
    Scanned (s.near me.position range) (keep · = true) (outranks · · = true)
      (s.first? me range outranks keep) := by
  have hkept : WeakOrder (tiesByHandle outranks (·.handle))
      ((s.near me.position range).filter keep) :=
    (horder.subset fun _ he => List.mem_of_mem_filter he).tiesByHandle
  rw [first?_eq]
  cases hleast : leastBy (tiesByHandle outranks (·.handle))
      ((s.near me.position range).filter keep) with
  | none =>
    have hnone := leastBy_eq_none_iff.mp hleast
    rw [List.filter_eq_nil_iff] at hnone
    exact ⟨by simpa using hnone, by simp⟩
  | some e =>
    obtain ⟨he, hleast⟩ := least_of_leastBy hkept hleast
    obtain ⟨hnear, hkeep⟩ := List.mem_filter.mp he
    refine ⟨⟨fun _ => ⟨e, hnear, hkeep⟩, fun _ => rfl⟩, ?_⟩
    rintro _ ⟨⟩
    refine ⟨e, hnear, hkeep, rfl, fun a ha hka hne => ?_⟩
    have hlater := hleast a (List.mem_filter.mpr ⟨ha, hka⟩)
    have hbefore : tiesByHandle outranks (·.handle) e a = true := by
      rw [← Bool.not_eq_false]
      exact fun hsame => hne (handle_eq_of_tiesByHandle hlater hsame)
    rwa [tiesByHandle_iff, ← Bool.not_eq_true] at hbefore

theorem first?_perm (hnodup : ((s.near me.position range).map (·.handle)).Nodup)
    {near : Position → Float32 → List EntityInfo}
    (hperm : (near me.position range).Perm (s.near me.position range)) :
    { s with near }.first? me range outranks keep = s.first? me range outranks keep := by
  rw [first?_eq, first?_eq]
  have hkept : WeakOrder outranks ((s.near me.position range).filter keep) :=
    horder.subset fun _ he => List.mem_of_mem_filter he
  refine congrArg _ (leastBy_perm hkept.tiesByHandle ?_ (hperm.filter keep))
  intro a ha b hb hab hba
  exact List.inj_on_of_nodup_map hnodup (List.mem_of_mem_filter ha) (List.mem_of_mem_filter hb)
    (handle_eq_of_tiesByHandle hab hba)

end Surroundings

namespace Surroundings

variable {s : Surroundings} {me : EntityInfo}

theorem isFriend_iff {e : EntityInfo} : s.isFriend me e = true ↔ s.Friend me e := by
  simp [isFriend, Friend, and_assoc]

theorem isOther_iff {kind : EntityKind} {entry : UInt32} {e : EntityInfo} :
    isOther me kind entry e = true ↔
      e.handle ≠ me.handle ∧ e.kind = kind ∧ e.alive = true ∧ e.entry = entry := by
  simp [isOther, and_assoc]

theorem isInSight_iff {hostility : LosHostility} {playerOnly : Bool} {e : EntityInfo} :
    s.isInSight me hostility playerOnly e = true ↔
      e.handle ≠ me.handle ∧ e.kind.isUnit = true ∧ e.alive = true ∧
        (playerOnly = true → e.kind = .player) ∧ s.inLineOfSight me.handle e.handle = true ∧
        (hostility = .hostile → s.isHostile me.handle e.handle = true) ∧
        (hostility = .notHostile → s.isHostile me.handle e.handle = false) := by
  cases hostility <;>
    simp [isInSight, EntityInfo.isPlayer, and_assoc, imp_iff_not_or]

theorem friendlyHealth_iff {hpDeficit : UInt32} {e : EntityInfo} :
    (s.isFriend me e && e.healthDeficit ≥ hpDeficit && e.healthDeficit > 0) = true ↔
      s.Friend me e ∧ max 1 hpDeficit ≤ e.healthDeficit := by
  have hmost : max 1 hpDeficit = if 1 ≤ hpDeficit then hpDeficit else 1 := rfl
  simp only [Bool.and_eq_true, isFriend_iff, decide_eq_true_iff, and_assoc, hmost]
  grind

theorem friendlyHealthPct_iff {min max : UInt32} {e : EntityInfo} :
    (s.isFriend me e && inPercent e.healthPct min max) = true ↔
      s.Friend me e ∧ min ≤ e.healthPct ∧ e.healthPct ≤ max := by
  simp [isFriend_iff, inPercent]

theorem friendlyIsCc_iff {e : EntityInfo} : (s.isFriend me e && s.crowdControlled e.handle) = true ↔
    s.Friend me e ∧ s.crowdControlled e.handle = true := by
  rw [Bool.and_eq_true, isFriend_iff]

theorem friendlyMissingBuff_iff {spell : UInt32} {e : EntityInfo} :
    (s.isFriend me e && s.auraStacks e.handle spell == 0) = true ↔
      s.Friend me e ∧ s.auraStacks e.handle spell = 0 := by
  rw [Bool.and_eq_true, isFriend_iff, beq_iff_eq]

theorem exists_first? {event : Event} {range : Float32} (hrange : event.scanRange? = some range)
    (hreal : ∀ e ∈ s.near me.position range, (me.position.distance e.position).isNaN = false) :
    ∃ outranks keep, WeakOrder outranks (s.near me.position range) ∧
      (∀ near, { s with near }.scan? me event =
        { s with near }.first? me range outranks keep) ∧
      (∀ e, keep e = true ↔ event.Seeks s me e) ∧
      ∀ a b, outranks a b = true ↔ event.Prefers me a b := by
  have hcloser : WeakOrder (isCloser me) (s.near me.position range) := weakOrder_lt hreal
  cases event with
  | oocLos | icLos =>
    cases hrange
    exact ⟨_, _, hcloser, fun _ => rfl, fun _ => isInSight_iff, fun _ _ => decide_eq_true_iff⟩
  | distanceCreature guid _ distance | distanceGameObject guid _ distance =>
    obtain ⟨-, rfl⟩ : guid = 0 ∧ distance.toFloat32 = range := by
      simpa [Event.scanRange?] using hrange
    exact ⟨_, _, hcloser, fun _ => rfl, fun _ => isOther_iff, fun _ _ => decide_eq_true_iff⟩
  | friendlyHealth =>
    cases hrange
    exact ⟨_, _, weakOrder_ltWord.flip, fun _ => rfl, fun _ => friendlyHealth_iff,
      fun _ _ => decide_eq_true_iff⟩
  | friendlyHealthPct =>
    cases hrange
    exact ⟨_, _, weakOrder_ltWord, fun _ => rfl, fun _ => friendlyHealthPct_iff,
      fun _ _ => decide_eq_true_iff⟩
  | friendlyIsCc =>
    cases hrange
    exact ⟨_, _, weakOrder_false, fun _ => rfl, fun _ => friendlyIsCc_iff,
      fun _ _ => iff_of_false Bool.false_ne_true id⟩
  | friendlyMissingBuff =>
    cases hrange
    exact ⟨_, _, weakOrder_false, fun _ => rfl, fun _ => friendlyMissingBuff_iff,
      fun _ _ => iff_of_false Bool.false_ne_true id⟩
  | _ => cases hrange

end Surroundings

theorem World.holds?_eq_scan? {w : World} {owner : Handle} {me : EntityInfo}
    (hme : w.info? owner = some me) {event : Event} {range : Float32}
    (hrange : event.scanRange? = some range) :
    w.holds? owner event = w.surroundings.scan? me event := by
  unfold holds?
  rw [hme]
  cases event with
  | distanceCreature guid | distanceGameObject guid =>
    have hguid : guid = 0 := by
      by_contra hguid
      simp [Event.scanRange?, hguid] at hrange
    exact if_neg (not_not_intro hguid)
  | oocLos | icLos | friendlyHealth | friendlyHealthPct | friendlyIsCc | friendlyMissingBuff => rfl
  | _ => cases hrange

/-- What a scanning event tells an entity about what is around it. -/
structure ScanLaw (s : Surroundings) (me : EntityInfo) (event : Event) (range : Float32) : Prop where
  scanned : Scanned (s.near me.position range) (event.Seeks s me) (event.Prefers me)
    (s.scan? me event)
  anyOrder : ∀ near : Position → Float32 → List EntityInfo,
    (near me.position range).Perm (s.near me.position range) →
      { s with near }.scan? me event = s.scan? me event
  checked : ∀ (w : World) (owner : Handle), w.info? owner = some me → w.surroundings = s →
    w.holds? owner event = s.scan? me event

/-- Where the entities near the owner have distinct handles and are at distances that are numbers, a
scan names the one that comes first, in whatever order they are listed. -/
theorem scanLaw (s : Surroundings) (me : EntityInfo) (event : Event) {range : Float32}
    (hrange : event.scanRange? = some range)
    (hnodup : ((s.near me.position range).map (·.handle)).Nodup)
    (hreal : ∀ e ∈ s.near me.position range, (me.position.distance e.position).isNaN = false) :
    ScanLaw s me event range := by
  obtain ⟨outranks, keep, horder, hscan, hkeep, hranks⟩ :=
    Surroundings.exists_first? hrange hreal
  refine ⟨?scanned, ?anyOrder, ?checked⟩
  case scanned =>
    have hscanned : Scanned _ _ _ (s.first? me range outranks keep) :=
      Surroundings.scanned_first? horder
    rw [show s.scan? me event = s.first? me range outranks keep from hscan s.near]
    simpa only [hkeep, hranks] using hscanned
  case anyOrder =>
    intro near hperm
    rw [hscan near, show s.scan? me event = s.first? me range outranks keep from hscan s.near]
    exact Surroundings.first?_perm horder hnodup hperm
  case checked =>
    rintro w owner hme rfl
    exact World.holds?_eq_scan? hme hrange

private def ambulance : List Edit :=
  [.spawn .creature 1 .origin, .spawn .creature 100 ⟨6.0, 0.0, 0.0, 0.0⟩,
    .spawn .creature 100 ⟨5.0, 0.0, 0.0, 0.0⟩, .spawn .creature 100 ⟨2.0, 0.0, 0.0, 0.0⟩,
    .spawn .player 0 ⟨1.0, 0.0, 0.0, 0.0⟩, .set 2 (.healthPct 60), .set 3 (.healthPct 60),
    .set 4 (.alive false), .set 5 (.healthPct 10)]

/-- Of the two who lack the most, one behind the other, the lower handle is named. The dead and the
enemy do not count. -/
theorem scanLaw_ambulance :
    ScanLaw (World.empty.edited ambulance).surroundings (Entity.spawned 1 .creature 1 .origin).info
        (.friendlyHealth 10 0) (100 : UInt32).toFloat32 ∧
      (World.empty.edited ambulance).holds? 1 (.friendlyHealth 10 0) = some ⟨some 2⟩ := by
  have hkeyed := World.keyed_edited World.keyed_empty ambulance
  exact ⟨scanLaw _ _ _ rfl (World.nodup_near hkeyed) fun _ => World.isNaN_distance_of_mem_near,
    by decide +kernel⟩

end TriggerScript
