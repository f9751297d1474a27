import TriggerScript.Random

/-!
# Bounds of draws

A draw from a range stays within the range, however many words are rejected on the way.
-/

namespace TriggerScript.Rng

theorem high_lt (w range : UInt32) (hr : range ≠ 0) :
    ((w.toUInt64 * range.toUInt64) >>> 32).toUInt32.toNat < range.toNat := by
  have hw := w.toNat_lt
  have hrange : 0 < range.toNat := by
    have h : range.toNat ≠ 0 := fun h => hr (UInt32.toNat_inj.mp h)
    omega
  have hlt := range.toNat_lt
  have hprod : w.toNat * range.toNat < 2 ^ 32 * range.toNat := Nat.mul_lt_mul_of_pos_right hw hrange
  have hmul : (w.toUInt64 * range.toUInt64).toNat = w.toNat * range.toNat := by
    rw [UInt64.toNat_mul, UInt32.toNat_toUInt64, UInt32.toNat_toUInt64]
    apply Nat.mod_eq_of_lt
    omega
  rw [UInt64.toNat_toUInt32, UInt64.toNat_shiftRight, hmul]
  have hshift : (32 : UInt64).toNat % 64 = 32 := rfl
  rw [hshift, Nat.shiftRight_eq_div_pow]
  have hdiv : w.toNat * range.toNat / 2 ^ 32 < range.toNat := Nat.div_lt_of_lt_mul hprod
  rw [Nat.mod_eq_of_lt (by omega)]
  exact hdiv

theorem drawWithin_lt {range : UInt32} (hr : range ≠ 0) (zone : UInt32) (tries : Nat) (g : Rng) :
    (drawWithin range zone tries g).1.toNat < range.toNat := by
  induction tries generalizing g with
  | zero =>
    unfold drawWithin
    dsimp only
    split <;> exact high_lt _ range hr
  | succ tries ih =>
    unfold drawWithin
    dsimp only
    split
    · exact high_lt _ range hr
    · exact ih _

theorem inRange_bounds {lo hi : UInt32} (h : lo ≤ hi) (g : Rng) :
    lo.toNat ≤ (g.inRange lo hi).1.toNat ∧ (g.inRange lo hi).1.toNat ≤ hi.toNat := by
  have hle : lo.toNat ≤ hi.toNat := UInt32.le_iff_toNat_le.mp h
  have hhi := hi.toNat_lt
  have hrange : (hi - lo + 1).toNat = (hi.toNat - lo.toNat + 1) % 2 ^ 32 := by
    rw [UInt32.toNat_add, UInt32.toNat_sub_of_le _ _ h]
    rfl
  unfold inRange
  dsimp only
  split
  · rename_i hfull
    have hzero : (hi - lo + 1).toNat = 0 := by rw [hfull]; rfl
    have hword := (g.nextWord).1.toNat_lt
    omega
  · rename_i hnz
    have hoffset := drawWithin_lt hnz (((hi - lo + 1) <<< leadingZeros (hi - lo + 1)) - 1)
      maxRejections g
    generalize drawWithin (hi - lo + 1) _ maxRejections g = draw at hoffset ⊢
    rw [UInt32.toNat_add]
    omega

theorem roll_bounds (min max : UInt32) (g : Rng) :
    min.toNat ≤ (g.roll min max).1.toNat ∧
      (min ≤ max → (g.roll min max).1.toNat ≤ max.toNat) := by
  unfold roll
  split
  · exact ⟨Nat.le_refl _, UInt32.le_iff_toNat_le.mp⟩
  · rename_i h
    have hle : min ≤ max := UInt32.le_of_lt (UInt32.not_le.mp h)
    obtain ⟨hlo, hhi⟩ := inRange_bounds hle g
    exact ⟨hlo, fun _ => hhi⟩

theorem mem_choose {α : Type} {xs : List α} (hne : xs ≠ []) (g : Rng) :
    ∃ x ∈ xs, (g.choose xs).1 = some x := by
  cases xs with
  | nil => exact absurd rfl hne
  | cons y ys =>
    have hbound := (inRange_bounds (UInt32.zero_le (a := .ofNat ys.length)) g).2
    have hlt : (g.inRange 0 (.ofNat ys.length)).1.toNat < (y :: ys).length := by
      rw [UInt32.toNat_ofNat'] at hbound
      exact Nat.lt_succ_of_le (Nat.le_trans hbound (Nat.mod_le _ _))
    exact ⟨_, List.getElem_mem hlt, List.getElem?_eq_getElem hlt⟩

theorem choose_eq_none_iff {α : Type} {xs : List α} {g : Rng} : (g.choose xs).1 = none ↔ xs = [] := by
  constructor
  · intro hnone
    apply Classical.byContradiction
    intro hne
    obtain ⟨x, -, hpick⟩ := mem_choose hne g
    rw [hnone] at hpick
    cases hpick
  · rintro rfl
    rfl

end TriggerScript.Rng
