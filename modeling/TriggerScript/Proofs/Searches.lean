import TriggerScript.Proofs.Least
import TriggerScript.Proofs.Resolving
import TriggerScript.Proofs.Samples

/-!
# What a search finds

A target that is taken from the places around an entity looks at all other entities at a distance
within its bounds, the closest first. It keeps all of them, the first, the last, or as many random
ones as it may in their order.
-/

namespace TriggerScript

namespace World

variable {w : World} {owner : Handle}

def distance? (w : World) (a b : Handle) : Option Float32 :=
  (w.info? a).bind fun a => (w.info? b).map fun b => a.position.distance b.position

/-- `found` are the other entities that `asks` accepts, at a distance from `min` to `max` from
`owner`, the closest first and the lower handle first at the same distance. -/
structure Found (w : World) (owner : Handle) (min max : UInt32) (asks : EntityInfo → Prop)
    (found : List Handle) : Prop where
  mem : ∀ h, h ∈ found ↔ h ≠ owner ∧ (∃ e, w.info? h = some e ∧ asks e) ∧
    ∃ d, w.distance? owner h = some d ∧ min.toFloat32 ≤ d ∧
      d ≤ (if max = 0 then 100 else max).toFloat32
  ordered : found.Pairwise fun h k => ∃ d c, w.distance? owner h = some d ∧
    w.distance? owner k = some c ∧ (d < c ∨ ¬c < d ∧ h < k)

theorem Found.nodup {min max : UInt32} {asks : EntityInfo → Prop} {found : List Handle}
    (h : w.Found owner min max asks found) : found.Nodup := by
  refine h.ordered.imp ?_
  rintro a _ ⟨d, c, hd, hc, hless⟩ rfl
  cases hd.symm.trans hc
  rcases hless with hless | ⟨-, hless⟩
  · exact Single.lt_asymm hless hless
  · exact UInt64.lt_irrefl a hless

theorem Found.unique {min max : UInt32} {asks : EntityInfo → Prop} {found found' : List Handle}
    (h : w.Found owner min max asks found) (h' : w.Found owner min max asks found') :
    found = found' := by
  have hperm : found.Perm found' := (List.perm_ext_iff_of_nodup h.nodup h'.nodup).mpr fun a =>
    (h.mem a).trans (h'.mem a).symm
  refine hperm.eq_of_pairwise ?_ h.ordered h'.ordered
  rintro a b - - ⟨d, c, hd, hc, hab⟩ ⟨c', d', hc', hd', hba⟩
  cases hd.symm.trans hd'
  cases hc.symm.trans hc'
  rcases hab with hab | ⟨hcd, hab⟩
  · rcases hba with hba | ⟨hdc, -⟩
    · exact absurd hba (Single.lt_asymm hab)
    · exact absurd hab hdc
  · rcases hba with hba | ⟨-, hba⟩
    · exact absurd hba hcd
    · exact absurd hba (UInt64.lt_asymm hab)

def measured (w : World) (me : EntityInfo) (owner : Handle) (min max : UInt32)
    (keep : EntityInfo → Bool) : List (Float32 × Handle) :=
  (((w.near me.position (searchRange max)).filter fun e => e.handle != owner && keep e).map
    fun e => (me.position.distance e.position, e.handle)).filter
      fun m => m.1 ≥ min.toFloat32 && m.1 ≤ searchRange max

theorem around_eq {me : EntityInfo} (hme : w.info? owner = some me) (min max : UInt32)
    (keep : EntityInfo → Bool) :
    w.around owner min max keep =
      (sortStable (tiesByHandle (fun a b => a.1 < b.1) (·.2))
        (w.measured me owner min max keep)).map (·.2) := by
  unfold around
  rw [hme]
  rfl

section

variable {me : EntityInfo} {min max : UInt32} {keep : EntityInfo → Bool}

theorem weakOrder_measured :
    WeakOrder (fun a b : Float32 × Handle => a.1 < b.1) (w.measured me owner min max keep) := by
  refine weakOrder_lt fun m hm => ?_
  have hrange := (List.mem_filter.mp hm).2
  rw [Bool.and_eq_true, decide_eq_true_iff, decide_eq_true_iff] at hrange
  exact Single.isNaN_eq_false_of_le hrange.2

theorem nodup_measured (hw : w.Keyed) : ((w.measured me owner min max keep).map (·.2)).Nodup := by
  refine List.Nodup.sublist (List.filter_sublist.map _) ?_
  rw [List.map_map]
  exact List.Nodup.sublist (List.filter_sublist.map _) (nodup_near hw)

theorem mem_measured_iff (hw : w.Keyed) (hme : w.info? owner = some me) {d : Float32} {h : Handle} :
    (d, h) ∈ w.measured me owner min max keep ↔
      h ≠ owner ∧ (∃ e, w.info? h = some e ∧ keep e = true) ∧ w.distance? owner h = some d ∧
        min.toFloat32 ≤ d ∧ d ≤ searchRange max := by
  have hdistance : ∀ {k e}, w.info? k = some e →
      w.distance? owner k = some (me.position.distance e.position) := fun he => by
    rw [distance?, hme, he]
    rfl
  simp only [measured, List.mem_filter, List.mem_map, mem_near_iff hw, Bool.and_eq_true,
    bne_iff_ne, decide_eq_true_iff, ge_iff_le, Prod.mk.injEq]
  constructor
  · rintro ⟨⟨e, ⟨⟨he, -⟩, hother, hkeep⟩, rfl, rfl⟩, hmin, hmax⟩
    exact ⟨hother, ⟨e, he, hkeep⟩, hdistance he, hmin, hmax⟩
  · rintro ⟨hother, ⟨e, he, hkeep⟩, hd, hmin, hmax⟩
    obtain rfl := hw.handle_eq he
    obtain rfl := Option.some.inj ((hdistance he).symm.trans hd)
    exact ⟨⟨e, ⟨⟨he, hmax⟩, hother, hkeep⟩, rfl, rfl⟩, hmin, hmax⟩

end

theorem found_around (hw : w.Keyed) (owner : Handle) (min max : UInt32) {keep : EntityInfo → Bool}
    {asks : EntityInfo → Prop} (hkeep : ∀ e, keep e = true ↔ asks e) :
    w.Found owner min max asks (w.around owner min max keep) := by
  cases hme : w.info? owner with
  | none => exact ⟨by simp [around, distance?, hme], by simp [around, hme]⟩
  | some me =>
    have hmem : ∀ d h, (d, h) ∈ w.measured me owner min max keep ↔ _ := fun _ _ =>
      mem_measured_iff hw hme
    have hperm := perm_sortStable (tiesByHandle (fun a b : Float32 × Handle => a.1 < b.1) (·.2))
      (w.measured me owner min max keep)
    rw [around_eq hme]
    constructor
    case mem =>
      intro h
      rw [(hperm.map _).mem_iff, List.mem_map]
      constructor
      · rintro ⟨⟨d, h⟩, hd, rfl⟩
        obtain ⟨hother, ⟨e, he, hk⟩, hrange⟩ := (hmem d h).mp hd
        exact ⟨hother, ⟨e, he, (hkeep e).mp hk⟩, d, hrange⟩
      · rintro ⟨hother, ⟨e, he, hasks⟩, d, hrange⟩
        exact ⟨(d, h), (hmem d h).mpr ⟨hother, ⟨e, he, (hkeep e).mpr hasks⟩, hrange⟩, rfl⟩
    case ordered =>
      rw [List.pairwise_map]
      refine (pairwise_sortStable_tiesByHandle weakOrder_measured
        (nodup_measured hw)).imp_of_mem fun {a b} ha hb hless => ?_
      obtain ⟨-, -, hd, -⟩ := (hmem a.1 a.2).mp (hperm.mem_iff.mp ha)
      obtain ⟨-, -, hc, -⟩ := (hmem b.1 b.2).mp (hperm.mem_iff.mp hb)
      refine ⟨a.1, b.1, hd, hc, ?_⟩
      rw [tiesByHandle_iff, decide_eq_true_iff, decide_eq_false_iff_not] at hless
      exact hless

theorem nodup_around (hw : w.Keyed) (owner : Handle) (min max : UInt32)
    (keep : EntityInfo → Bool) : (w.around owner min max keep).Nodup :=
  (found_around hw owner min max fun _ => Iff.rfl).nodup

end World

theorem trimmed_ofList {found : List Handle} (hnodup : found.Nodup) {maxSize : UInt32} {g : Rng} :
    Trimmed found maxSize (Targets.ofList (trim found maxSize g).1).entities := by
  have htrimmed := trimmed_trim found maxSize g
  rwa [Targets.entities_ofList_of_nodup (hnodup.sublist htrimmed.sublist)]

namespace Target

/-- Bounds of the distance, for the targets that are taken from the places around an entity. -/
def span? : Target → Option (UInt32 × UInt32)
  | .creatureRange _ min max _ | .gameObjectRange _ min max _ | .playerRange min max _ _ =>
      some (min, max)
  | .creatureDistance _ max _ | .gameObjectDistance _ max _ | .playerDistance max _
  | .closestCreature _ max _ | .closestGameObject _ max | .closestPlayer max _
  | .closestEnemy max _ _ | .closestFriendly max _ _ | .farthest max _ _ => some (0, max)
  | _ => .none

/-- What such a target asks of an entity around `owner`. -/
def Asks (t : Target) (w : World) (owner : Handle) (e : EntityInfo) : Prop :=
  match t with
  | .creatureRange entry .. | .creatureDistance entry .. =>
      e.kind = .creature ∧ e.alive = true ∧ (entry = 0 ∨ e.entry = entry)
  | .closestCreature entry _ dead =>
      e.kind = .creature ∧ (e.alive = true ∨ dead = true) ∧ (entry = 0 ∨ e.entry = entry)
  | .gameObjectRange entry .. | .gameObjectDistance entry .. | .closestGameObject entry _ =>
      e.kind = .gameObject ∧ (entry = 0 ∨ e.entry = entry)
  | .playerRange _ _ _ inLos | .playerDistance _ inLos | .closestPlayer _ inLos =>
      e.kind = .player ∧ e.alive = true ∧ (inLos = true → w.inLineOfSight owner e.handle = true)
  | .closestEnemy _ playersOnly inLos | .farthest _ playersOnly inLos =>
      e.kind.isUnit = true ∧ e.alive = true ∧ (playersOnly = true → e.kind = .player) ∧
        w.isHostile owner e.handle = true ∧ (inLos = true → w.inLineOfSight owner e.handle = true)
  | .closestFriendly _ playersOnly inLos =>
      e.kind.isUnit = true ∧ e.alive = true ∧ (playersOnly = true → e.kind = .player) ∧
        w.isHostile owner e.handle = false ∧ (inLos = true → w.inLineOfSight owner e.handle = true)
  | _ => False

/-- What such a target keeps of those found. -/
def Keeps (t : Target) (found kept : List Handle) : Prop :=
  match t with
  | .creatureRange _ _ _ maxSize | .creatureDistance _ _ maxSize | .gameObjectRange _ _ _ maxSize
  | .gameObjectDistance _ _ maxSize | .playerRange _ _ maxSize _ => Trimmed found maxSize kept
  | .playerDistance .. => kept = found
  | .closestCreature .. | .closestGameObject .. | .closestPlayer .. | .closestEnemy ..
  | .closestFriendly .. => kept = found.head?.toList
  | .farthest .. => kept = found.getLast?.toList
  | _ => False

end Target

namespace World

variable {w : World} {owner : Handle}

theorem anyOr_iff {wanted entry : UInt32} :
    anyOr wanted entry = true ↔ wanted = 0 ∨ entry = wanted := by
  rw [anyOr, Bool.or_eq_true, beq_iff_eq, beq_iff_eq, eq_comm (a := entry)]

theorem isPlayer_iff {e : EntityInfo} : e.isPlayer = true ↔ e.kind = .player := by
  simp [EntityInfo.isPlayer]

theorem sees_iff {inLos : Bool} {e : EntityInfo} : w.sees owner inLos e = true ↔
    (inLos = true → w.inLineOfSight owner e.handle = true) := by
  simp [sees, imp_iff_not_or]

theorem isLivingCreature_iff {entry : UInt32} (e : EntityInfo) : isLivingCreature entry e = true ↔
    e.kind = .creature ∧ e.alive = true ∧ (entry = 0 ∨ e.entry = entry) := by
  simp [isLivingCreature, anyOr_iff, and_assoc]

theorem isGameObject_iff {entry : UInt32} (e : EntityInfo) : isGameObject entry e = true ↔
    e.kind = .gameObject ∧ (entry = 0 ∨ e.entry = entry) := by
  simp [isGameObject, anyOr_iff]

theorem isLivingPlayer_iff {inLos : Bool} (e : EntityInfo) :
    w.isLivingPlayer owner inLos e = true ↔ e.kind = .player ∧ e.alive = true ∧
      (inLos = true → w.inLineOfSight owner e.handle = true) := by
  simp only [isLivingPlayer, Bool.and_eq_true, isPlayer_iff, sees_iff, and_assoc]

theorem closestCreature_iff {entry : UInt32} {dead : Bool} (e : EntityInfo) :
    (e.kind == .creature && (e.alive || dead) && anyOr entry e.entry) = true ↔
      e.kind = .creature ∧ (e.alive = true ∨ dead = true) ∧ (entry = 0 ∨ e.entry = entry) := by
  simp [anyOr_iff, and_assoc]

theorem isLivingUnit_iff {hostile playersOnly inLos : Bool} (e : EntityInfo) :
    w.isLivingUnit owner hostile playersOnly inLos e = true ↔
      e.kind.isUnit = true ∧ e.alive = true ∧ (playersOnly = true → e.kind = .player) ∧
        w.isHostile owner e.handle = hostile ∧
        (inLos = true → w.inLineOfSight owner e.handle = true) := by
  simp only [isLivingUnit, Bool.and_eq_true, sees_iff, and_assoc, Bool.or_eq_true,
    Bool.not_eq_true', beq_iff_eq, isPlayer_iff, ← Bool.not_eq_true, imp_iff_not_or]

end World

/-- In a world that is built by edits, a target that is taken from the places around an entity finds
exactly the others that it asks for within its bounds, in order of distance and handle, and keeps
of them what its kind says. -/
theorem search_edited (es : List Edit) (d : TargetDescriptor) (o : Occasion)
    (stored : Std.ExtTreeMap UInt32 (List Handle)) (g : Rng) {min max : UInt32}
    (hspan : d.target.span? = some (min, max)) :
    ∃ found, (World.empty.edited es).Found o.owner min max
        (d.target.Asks (World.empty.edited es) o.owner) found ∧
      d.target.Keeps found (d.resolve o (World.empty.edited es) stored g).1.entities := by
  have hw := World.keyed_edited World.keyed_empty es
  generalize World.empty.edited es = w at hw ⊢
  obtain ⟨target, literal⟩ := d
  cases target with
  | creatureRange | creatureDistance =>
    cases hspan
    exact ⟨_, World.found_around hw _ _ _ World.isLivingCreature_iff,
      trimmed_ofList (World.nodup_around hw ..)⟩
  | gameObjectRange | gameObjectDistance =>
    cases hspan
    exact ⟨_, World.found_around hw _ _ _ World.isGameObject_iff,
      trimmed_ofList (World.nodup_around hw ..)⟩
  | playerRange =>
    cases hspan
    exact ⟨_, World.found_around hw _ _ _ World.isLivingPlayer_iff,
      trimmed_ofList (World.nodup_around hw ..)⟩
  | playerDistance =>
    cases hspan
    exact ⟨_, World.found_around hw _ _ _ World.isLivingPlayer_iff,
      Targets.entities_ofList_of_nodup (World.nodup_around hw ..)⟩
  | closestCreature =>
    cases hspan
    exact ⟨_, World.found_around hw _ _ _ World.closestCreature_iff, Targets.entities_ofOption _⟩
  | closestGameObject =>
    cases hspan
    exact ⟨_, World.found_around hw _ _ _ World.isGameObject_iff, Targets.entities_ofOption _⟩
  | closestPlayer =>
    cases hspan
    exact ⟨_, World.found_around hw _ _ _ World.isLivingPlayer_iff, Targets.entities_ofOption _⟩
  | closestEnemy | closestFriendly | farthest =>
    cases hspan
    exact ⟨_, World.found_around hw _ _ _ World.isLivingUnit_iff, Targets.entities_ofOption _⟩
  | _ => cases hspan

private def ring : List Edit :=
  [.spawn .creature 1 .origin, .spawn .creature 100 ⟨3.0, 4.0, 0.0, 0.0⟩,
    .spawn .creature 100 ⟨0.0, 5.0, 0.0, 0.0⟩, .spawn .creature 100 ⟨3.0, 0.0, 0.0, 0.0⟩,
    .spawn .creature 100 ⟨2.0, 0.0, 0.0, 0.0⟩, .spawn .creature 100 ⟨6.0, 0.0, 0.0, 0.0⟩,
    .spawn .player 0 ⟨4.0, 0.0, 0.0, 0.0⟩]

/-- Of the creatures between 3 and 5 away two are tied, and two of the three are kept. -/
theorem search_ring :
    (Target.creatureRange 0 3 5 2).span? = some (3, 5) ∧
      let kept := ((TargetDescriptor.mk (.creatureRange 0 3 5 2) .origin).resolve { owner := 1 }
        (World.empty.edited ring) ∅ (.ofSeed 1)).1.entities
      kept.Sublist [4, 2, 3] ∧ kept.length = 2 := by
  obtain ⟨found, hfound, hkept, hlength⟩ := search_edited ring
    ⟨.creatureRange 0 3 5 2, .origin⟩ { owner := 1 } ∅ (.ofSeed 1) rfl
  have haround : (World.empty.edited ring).around 1 3 5 (World.isLivingCreature 0) = [4, 2, 3] := by
    decide +kernel
  have hlist := World.found_around (World.keyed_edited World.keyed_empty ring) 1 3 5
    (@World.isLivingCreature_iff 0)
  rw [haround] at hlist
  obtain rfl := hfound.unique hlist
  exact ⟨rfl, hkept, hlength⟩

end TriggerScript
