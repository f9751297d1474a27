import TriggerScript.Proofs.Edits
import TriggerScript.Sensing

/-!
# Percentages

Percentage events compare whole percents, rounded down, that are cut to a word of 32 bits. They are
the true ones as long as these fit into the word, which they do for every value up to 42949672
times its maximum. Beyond that they start again from 0.
-/

namespace TriggerScript

/-- Whole percents of a value in its maximum, rounded down, however many they are. -/
def wholePercents (value max : UInt32) : Nat := 100 * value.toNat / max.toNat

section

variable {value value' max : UInt32}

theorem toNat_percent (hmax : 0 < max) :
    (percent value max).toNat = wholePercents value max % 4294967296 := by
  have hne : max ≠ 0 := fun h => UInt32.lt_irrefl 0 (h ▸ hmax)
  rw [percent, if_neg hne, UInt32.toNat_ofNat', wholePercents, Nat.mul_comm]

theorem wholePercents_lt (hmax : 0 < max) (hvalue : value.toNat ≤ 42949672 * max.toNat) :
    wholePercents value max < 4294967296 := by
  have hpos : 0 < max.toNat := UInt32.lt_iff_toNat_lt.mp hmax
  rw [wholePercents, Nat.div_lt_iff_lt_mul hpos]
  omega

theorem wholePercents_mono (h : value ≤ value') :
    wholePercents value max ≤ wholePercents value' max :=
  Nat.div_le_div_right (Nat.mul_le_mul_left 100 (UInt32.le_iff_toNat_le.mp h))

theorem hundred_le_wholePercents (hmax : 0 < max) (hfull : max ≤ value) :
    100 ≤ wholePercents value max := by
  rw [wholePercents, Nat.le_div_iff_mul_le (UInt32.lt_iff_toNat_lt.mp hmax)]
  exact Nat.mul_le_mul_left 100 (UInt32.le_iff_toNat_le.mp hfull)

theorem inPercent_iff {min : UInt32} :
    inPercent value min max = true ↔ min.toNat ≤ value.toNat ∧ value.toNat ≤ max.toNat := by
  simp only [inPercent, Bool.and_eq_true, decide_eq_true_iff, ge_iff_le, UInt32.le_iff_toNat_le]

end

inductive Gauge where
  | health
  | power

namespace Gauge

def value (e : EntityInfo) : Gauge → UInt32
  | health => e.health
  | power => e.power

def limit (e : EntityInfo) : Gauge → UInt32
  | health => e.maxHealth
  | power => e.maxPower

def percents (gauge : Gauge) (e : EntityInfo) : Nat :=
  wholePercents (gauge.value e) (gauge.limit e)

end Gauge

structure Reading where
  gauge : Gauge
  ofVictim : Bool
  min : UInt32
  max : UInt32

def Event.reading? : Event → Option Reading
  | .healthPct min max => some ⟨.health, false, min, max⟩
  | .manaPct min max => some ⟨.power, false, min, max⟩
  | .targetHealthPct min max => some ⟨.health, true, min, max⟩
  | .targetManaPct min max => some ⟨.power, true, min, max⟩
  | _ => none

namespace World

def subject? (w : World) (owner : Handle) (r : Reading) : Option EntityInfo :=
  (w.info? owner).bind fun me => if r.ofVictim then w.livingVictim? owner else some me

variable {w : World} {owner : Handle} {e : Event} {r : Reading} {u : EntityInfo}

theorem holds?_reading (hr : e.reading? = some r) :
    w.holds? owner e = (w.subject? owner r).bind fun u =>
      if inPercent (percent (r.gauge.value u) (r.gauge.limit u)) r.min r.max then
        some ⟨if r.ofVictim then some u.handle else none⟩
      else none := by
  unfold holds? subject?
  cases e with
  | healthPct | manaPct | targetHealthPct | targetManaPct =>
    cases hr
    cases w.info? owner <;> rfl
  | _ => cases hr

theorem holds?_of_subject? (hr : e.reading? = some r) (hu : w.subject? owner r = some u) :
    w.holds? owner e =
      if inPercent (percent (r.gauge.value u) (r.gauge.limit u)) r.min r.max then
        some ⟨if r.ofVictim then some u.handle else none⟩
      else none := by
  rw [holds?_reading hr, hu]
  rfl

theorem isSome_holds?_iff (hr : e.reading? = some r) (hu : w.subject? owner r = some u)
    (hlimit : 0 < r.gauge.limit u) :
    (w.holds? owner e).isSome = true ↔
      r.min.toNat ≤ r.gauge.percents u % 4294967296 ∧
        r.gauge.percents u % 4294967296 ≤ r.max.toNat := by
  have hword : (percent (r.gauge.value u) (r.gauge.limit u)).toNat =
      r.gauge.percents u % 4294967296 := toNat_percent hlimit
  rw [holds?_of_subject? hr hu, ← hword, ← inPercent_iff]
  split <;> simp_all

/-- How a percentage event reads an entity with a maximum. -/
structure ReadingLaw (w : World) (owner : Handle) (e : Event) (r : Reading) (u : EntityInfo) :
    Prop where
  invoker : ∀ hit, w.holds? owner e = some hit →
    hit.invoker = if r.ofVictim then some u.handle else none
  holds_iff : (w.holds? owner e).isSome = true ↔
    r.min.toNat ≤ r.gauge.percents u % 4294967296 ∧
      r.gauge.percents u % 4294967296 ≤ r.max.toNat
  true_iff : r.gauge.percents u < 4294967296 → ((w.holds? owner e).isSome = true ↔
    r.min.toNat ≤ r.gauge.percents u ∧ r.gauge.percents u ≤ r.max.toNat)
  fits : (r.gauge.value u).toNat ≤ 42949672 * (r.gauge.limit u).toNat →
    r.gauge.percents u < 4294967296
  raised : ∀ (v : World) (u' : EntityInfo), v.subject? owner r = some u' →
    r.gauge.limit u' = r.gauge.limit u → r.gauge.value u ≤ r.gauge.value u' →
    r.gauge.percents u' < 4294967296 → r.min.toNat ≤ r.gauge.percents u →
    ((v.holds? owner e).isSome = true ↔ r.gauge.percents u' ≤ r.max.toNat)
  full : r.gauge.limit u ≤ r.gauge.value u → r.gauge.percents u < 4294967296 →
    r.max < 100 → w.holds? owner e = none

/-- A percentage event holds for the percents of its entity as far as they fit into a word. -/
theorem readingLaw_of_subject (hr : e.reading? = some r) (hu : w.subject? owner r = some u)
    (hlimit : 0 < r.gauge.limit u) : ReadingLaw w owner e r u := by
  have hholds := isSome_holds?_iff hr hu hlimit
  have htrue : r.gauge.percents u < 4294967296 → ((w.holds? owner e).isSome = true ↔
      r.min.toNat ≤ r.gauge.percents u ∧ r.gauge.percents u ≤ r.max.toNat) := fun hfits => by
    rw [hholds, Nat.mod_eq_of_lt hfits]
  refine ⟨?invoker, hholds, htrue, wholePercents_lt hlimit, ?raised, ?full⟩
  case invoker =>
    intro hit hhit
    rw [holds?_of_subject? hr hu] at hhit
    split at hhit <;> cases hhit
    rfl
  case raised =>
    intro v u' hu' hsame hle hfits' hlower
    have hlimit' : 0 < r.gauge.limit u' := hsame ▸ hlimit
    have hmono : r.gauge.percents u ≤ r.gauge.percents u' := by
      rw [Gauge.percents, Gauge.percents, hsame]
      exact wholePercents_mono hle
    rw [isSome_holds?_iff hr hu' hlimit', Nat.mod_eq_of_lt hfits']
    exact and_iff_right (Nat.le_trans hlower hmono)
  case full =>
    intro hfull hfits hmax
    have hall := hundred_le_wholePercents hlimit hfull
    have hbound := UInt32.lt_iff_toNat_lt.mp hmax
    rw [← Option.not_isSome_iff_eq_none, htrue hfits]
    rintro ⟨-, hle⟩
    exact Nat.not_lt.mpr (Nat.le_trans hall hle) hbound

private def duel : List Edit :=
  [.spawn .creature 100 .origin, .spawn .player 0 .origin, .set 1 (.threat 2 10.0),
    .set 2 (.vitals 151 200 100 100)]

/-- A victim at 75.5 percent is at 75. -/
theorem readingLaw_duel :
    ∃ u, Event.reading? (.targetHealthPct 70 75) = some ⟨.health, true, 70, 75⟩ ∧
      (empty.edited duel).subject? 1 ⟨.health, true, 70, 75⟩ = some u ∧ 0 < Gauge.limit u .health ∧
      ReadingLaw (empty.edited duel) 1 (.targetHealthPct 70 75) ⟨.health, true, 70, 75⟩ u ∧
      (empty.edited duel).holds? 1 (.targetHealthPct 70 75) = some ⟨some 2⟩ := by
  have hu : (empty.edited duel).subject? 1 ⟨.health, true, 70, 75⟩ =
      some ⟨2, 0, .player, .origin, true, 151, 200, 100, 100⟩ := by decide +kernel
  exact ⟨_, rfl, hu, by decide, readingLaw_of_subject rfl hu (by decide), by decide +kernel⟩

private def swollen (health : UInt32) : World :=
  empty.edited [.spawn .creature 100 .origin, .set 1 (.vitals health 1 100 100)]

/-- Of a maximum of 1, a health of 42949673 is read as 4 percent, and one less as 4294967200. -/
theorem swollen_health_reads_low :
    (¬∀ (w : World) (owner : Handle) (min max : UInt32) (u : EntityInfo), w.info? owner = some u →
        0 < u.maxHealth → ((w.holds? owner (.healthPct min max)).isSome = true ↔
          min.toNat ≤ wholePercents u.health u.maxHealth ∧
            wholePercents u.health u.maxHealth ≤ max.toNat)) ∧
      (swollen 42949673).holds? 1 (.healthPct 0 50) = some {} ∧
      (swollen 42949672).holds? 1 (.healthPct 50 4294967295) = some {} ∧
      (swollen 42949673).holds? 1 (.healthPct 50 4294967295) = none := by
  have hholds : (swollen 42949673).holds? 1 (.healthPct 0 50) = some {} := by decide +kernel
  refine ⟨fun hclaim => ?_, hholds, by decide +kernel, by decide +kernel⟩
  have hinfo : (swollen 42949673).info? 1 =
      some ⟨1, 100, .creature, .origin, true, 42949673, 1, 100, 100⟩ := by decide +kernel
  have hpercents := ((hclaim _ 1 0 50 _ hinfo (by decide)).mp (by rw [hholds]; rfl)).2
  revert hpercents
  decide

end World

end TriggerScript
