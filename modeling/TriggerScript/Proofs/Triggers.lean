import TriggerScript.Proofs.Decoding
import TriggerScript.Sensing
import TriggerScript.Signal

/-!
# Pushed and polled events

An event is either looked for in the world or brought by a signal, never both. Every event that a
table can name is of use: it is polled, it is the link of other rules, or some signal triggers it.
-/

namespace TriggerScript

@[simp] theorem anyOr_self (param : UInt32) : anyOr param param = true := by
  simp [anyOr]

@[simp] theorem schoolMatches_self (school : UInt32) : schoolMatches school school = true := by
  by_cases h : school = 0 <;> simp [schoolMatches, h]

theorem amountIn_min {min max : UInt32} (h : min ≤ max) : amountIn min max min = true := by
  simp [amountIn, h]

theorem PhaseMask.intersects_self {m : PhaseMask} (h : m.isEmpty = false) :
    m.intersects m = true := by
  simpa [PhaseMask.intersects, PhaseMask.isEmpty] using h

namespace Event

theorem not_triggers {e : Event} (h : e.isPolled = true ∨ e = .link) (signal : Signal) :
    signal.triggers e = false := by
  cases e with
  | updateIc | updateOoc | update | healthPct | manaPct | targetHealthPct | targetManaPct | range
  | oocLos | icLos | isBehindTarget | distanceCreature | distanceGameObject | friendlyHealth
  | friendlyHealthPct | friendlyIsCc | friendlyMissingBuff | hasAura | targetBuffed
  | victimCasting | link => cases signal <;> rfl
  | _ => rcases h with h | h <;> cases h

/-- A signal that brings just what a pushed event waits for. -/
def awaited? : Event → Option Signal
  | aggro => some (.aggro 0)
  | kill _ entry => some (.kill 0 entry true)
  | death => some (.death none)
  | evade => some .evade
  | reachedHome => some .reachedHome
  | respawn => some .respawn
  | reset => some .reset
  | charmed onRemove => some (.charmed none !onRemove)
  | damaged min _ => some (.damaged 0 min)
  | damagedTarget min _ => some (.damagedTarget 0 min)
  | receiveHeal min _ => some (.receiveHeal 0 min)
  | spellHit spell school => some (.spellHit 0 spell school)
  | spellHitTarget spell school => some (.spellHitTarget 0 spell school)
  | onSpell stage spell => some (.spell stage spell none)
  | summonedUnit entry => some (.summonedUnit 0 entry)
  | summonDespawned entry => some (.summonDespawned 0 entry)
  | summonedUnitDies entry => some (.summonedUnitDies 0 entry)
  | justSummoned => some (.justSummoned 0)
  | aiInit => some .aiInit
  | justCreated => some .justCreated
  | corpseRemoved => some .corpseRemoved
  | onDespawn => some .despawn
  | passengerBoarded => some (.passengerBoarded 0)
  | passengerRemoved => some (.passengerRemoved 0)
  | movementInform movement point => some (.movementInform movement point none)
  | waypoint stage point path => some (.waypoint stage point path none)
  | followCompleted => some (.followCompleted none)
  | receiveEmote emote => some (.receiveEmote 0 emote)
  | acceptedQuest id => some (.acceptedQuest 0 id)
  | rewardQuest id => some (.rewardQuest 0 id)
  | gossipHello => some (.gossipHello 0)
  | gossipSelect menu option => some (.gossipSelect 0 menu option)
  | onSpellclick => some (.spellclick 0)
  | textOver group entry => some (.textOver group entry)
  | areaTrigger id => some (.areaTrigger 0 id none)
  | quest stage objective => some (.quest stage 0 objective)
  | scene stage param => some (.scene stage 0 param)
  | goLootStateChanged state => some (.goLootStateChanged state)
  | goEventInform id => some (.goEventInform id)
  | dataSet field value => some (.dataSet field value none)
  | actionDone id => some (.actionDone id none)
  | timedEventTriggered id => some (.timedEventTriggered id)
  | counterSet counter value => some (.counterSet counter value)
  | eventPhaseChange mask => some (.eventPhaseChange mask)
  | _ => none

theorem exists_awaited {e : Event} (hpushed : e.isPolled = false) (hlink : e ≠ .link) :
    ∃ signal, e.awaited? = some signal := by
  cases e <;> first | exact ⟨_, rfl⟩ | exact absurd rfl hlink | cases hpushed

theorem triggers_of_awaited {e : Event} {signal : Signal} (he : e.WellFormed)
    (h : e.awaited? = some signal) : signal.triggers e = true := by
  cases e <;> cases h
  case damaged | damagedTarget | receiveHeal => exact amountIn_min he
  case eventPhaseChange => exact PhaseMask.intersects_self he.nonempty
  case charmed onRemove => cases onRemove <;> rfl
  all_goals
    unfold Signal.triggers
    simp

/-- The signals trigger just the events that are neither polled nor reached by a link. -/
theorem exists_triggers_iff {e : Event} (he : e.WellFormed) :
    (∃ signal : Signal, signal.triggers e = true) ↔ e.isPolled = false ∧ e ≠ .link := by
  constructor
  · rintro ⟨signal, h⟩
    have hpushed : ¬(e.isPolled = true ∨ e = .link) := fun hnone => by
      simp [not_triggers hnone signal] at h
    simpa using hpushed
  · rintro ⟨hpushed, hlink⟩
    obtain ⟨signal, hsignal⟩ := exists_awaited hpushed hlink
    exact ⟨signal, triggers_of_awaited he hsignal⟩

theorem holds?_of_pushed {e : Event} (h : e.isPolled = false) (w : World) (owner : Handle) :
    w.holds? owner e = none := by
  unfold World.holds?
  cases w.info? owner with
  | none => rfl
  | some me => cases e <;> first | rfl | cases h

theorem combatGate_of_pushed {e : Event} (h : e.isPolled = false) : e.combatGate = .any := by
  cases e <;> first | rfl | cases h

theorem holds?_of_isUpdate {e : Event} (h : e.isUpdate = true) {w : World} {owner : Handle}
    (howner : w.exists? owner = true) : w.holds? owner e = some {} := by
  obtain ⟨entity, hentity⟩ := Option.isSome_iff_exists.mp howner
  have hinfo : w.info? owner = some entity.info := by simp [World.info?, hentity]
  unfold World.holds?
  rw [hinfo]
  cases e <;> first | rfl | cases h

/-- What makes a rule with the event eligible. -/
structure Eligible (e : Event) : Prop where
  polled : e.isPolled = true → ∀ signal : Signal, signal.triggers e = false
  pushed : e.isPolled = false →
    (∀ (w : World) owner, w.holds? owner e = none) ∧ e.combatGate = .any
  linked : e = .link →
    (∀ signal : Signal, signal.triggers e = false) ∧ ∀ (w : World) owner, w.holds? owner e = none
  timed : e.initialTimer.isSome = e.isUpdate
  update : e.isUpdate = true →
    e.isPolled = true ∧ ∀ (w : World) owner, w.exists? owner = true → w.holds? owner e = some {}
  awaited : ∀ kind p1 p2 p3 p4, decode kind p1 p2 p3 p4 = .ok e →
    e.isPolled = false → e ≠ .link → ∃ signal : Signal, signal.triggers e = true

/-- Pushed and polled events are told apart by what makes their rules eligible, and no event of a
table is dead. -/
theorem pushed_or_polled (e : Event) : e.Eligible := by
  constructor
  · exact fun hpolled => not_triggers (.inl hpolled)
  · exact fun hpushed => ⟨holds?_of_pushed hpushed, combatGate_of_pushed hpushed⟩
  · rintro rfl
    exact ⟨not_triggers (.inr rfl), holds?_of_pushed rfl⟩
  · exact isSome_initialTimer e
  · exact fun hupdate => ⟨isPolled_of_isUpdate hupdate, fun w owner => holds?_of_isUpdate hupdate⟩
  · intro kind p1 p2 p3 p4 hdecode hpushed hlink
    exact (exists_triggers_iff (wellFormed_of_decode hdecode)).mpr ⟨hpushed, hlink⟩

end Event

end TriggerScript
