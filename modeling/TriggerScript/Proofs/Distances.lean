import Mathlib
import TriggerScript.Position

/-!
# Distances

Single-precision numbers are in order as far as they are numbers at all. The distance between two
positions is the same from both ends, to the last bit: a difference taken the other way round
changes its sign at most, which its square does not show.
-/

namespace TriggerScript

open Float.Model (Format UnpackedFloat)
open Float.Model.UnpackedFloat (Sign)

namespace Single

def tier : UnpackedFloat → Int
  | .infinity .negative => -2
  | .finite .negative .. => -1
  | .zero _ | .notANumber => 0
  | .finite .positive .. => 1
  | .infinity .positive => 2

def scale : UnpackedFloat → Int
  | .finite s _ e _ => s.apply e
  | _ => 0

def digits : UnpackedFloat → Int
  | .finite s m _ _ => s.apply m
  | _ => 0

/-- Numbers are compared by kind, then by exponent, then by mantissa. -/
def Below (a b : UnpackedFloat) : Prop :=
  tier a < tier b ∨
    tier a = tier b ∧ (scale a < scale b ∨ scale a = scale b ∧ digits a < digits b)

private theorem compare_eq_lt_iff {a b : UnpackedFloat} (ha : a.isNaN = false)
    (hb : b.isNaN = false) : a.compare b = some .lt ↔ Below a b := by
  cases a with
  | notANumber => cases ha
  | infinity s =>
    cases b with
    | notANumber => cases hb
    | _ t => cases s <;> cases t <;> simp [UnpackedFloat.compare, Below, tier, scale, digits, compare]
  | zero s =>
    cases b with
    | notANumber => cases hb
    | _ t => cases t <;> simp [UnpackedFloat.compare, Below, tier, scale, digits]
  | finite s m e hm =>
    cases b with
    | notANumber => cases hb
    | infinity t => cases s <;> cases t <;> simp [UnpackedFloat.compare, Below, tier]
    | zero t => cases s <;> simp [UnpackedFloat.compare, Below, tier]
    | finite t n f hn =>
      cases s <;> cases t <;>
        simp [UnpackedFloat.compare, Below, tier, scale, digits, Sign.apply, Ordering.then_eq_lt,
          Ordering.swap_eq_lt, Ordering.then_eq_gt, Int.compare_eq_lt, Int.compare_eq_gt,
          Nat.compare_eq_lt, Nat.compare_eq_gt]

private theorem isNaN_eq_false_of_compare {a b : UnpackedFloat} {c : Ordering}
    (h : a.compare b = some c) : a.isNaN = false ∧ b.isNaN = false := by
  cases a <;> cases b <;> first | exact ⟨rfl, rfl⟩ | cases h

theorem lt_iff {a b : Float32} : a < b ↔
    a.isNaN = false ∧ b.isNaN = false ∧ Below a.toModel.unpack b.toModel.unpack := by
  have hlt : a < b ↔ a.toModel.unpack.compare b.toModel.unpack = some .lt := by
    show decide ((a.toModel.unpack.compare b.toModel.unpack == some .lt) = true) = true ↔ _
    rw [decide_eq_true_iff, beq_iff_eq]
  rw [hlt]
  constructor
  · intro h
    obtain ⟨ha, hb⟩ := isNaN_eq_false_of_compare h
    exact ⟨ha, hb, (compare_eq_lt_iff ha hb).mp h⟩
  · rintro ⟨ha, hb, h⟩
    exact (compare_eq_lt_iff ha hb).mpr h

theorem lt_asymm {a b : Float32} (h : a < b) : ¬b < a := by
  rw [lt_iff] at h ⊢
  unfold Below at h ⊢
  omega

theorem not_lt_trans {a b c : Float32} (hb : b.isNaN = false) (hab : ¬a < b) (hbc : ¬b < c) :
    ¬a < c := by
  rw [lt_iff] at hab hbc ⊢
  rintro ⟨ha, hc, hac⟩
  simp only [ha, hb, hc, true_and] at hab hbc
  unfold Below at hab hbc hac
  omega

theorem isNaN_eq_false_of_le {a b : Float32} (h : a ≤ b) : a.isNaN = false := by
  have hle : (a.toModel.unpack.compare b.toModel.unpack).any (·.isLE) = true :=
    of_decide_eq_true (show decide _ = true from h)
  cases hcompare : a.toModel.unpack.compare b.toModel.unpack with
  | none =>
    rw [hcompare] at hle
    cases hle
  | some c => exact (isNaN_eq_false_of_compare hcompare).1

private theorem round_neg (spec : Format) (s : Sign) (m : Nat) (e : Int) :
    UnpackedFloat.round spec (-s) m e = (UnpackedFloat.round spec s m e).neg := by
  unfold UnpackedFloat.round UnpackedFloat.roundWithAccuracy
  dsimp only
  split <;> rfl

private theorem normalize_neg (spec : Format) (m e : Int) :
    UnpackedFloat.normalize spec (-m) e .positive = .normalize spec m e .positive ∨
      UnpackedFloat.normalize spec (-m) e .positive =
        (UnpackedFloat.normalize spec m e .positive).neg := by
  unfold UnpackedFloat.normalize
  rcases Int.lt_trichotomy m 0 with hm | rfl | hm
  · right
    rw [Int.compare_eq_lt.mpr hm, Int.compare_eq_gt.mpr (Int.neg_pos_of_neg hm)]
    exact round_neg spec .negative _ e
  · exact .inl rfl
  · right
    rw [Int.compare_eq_gt.mpr hm, Int.compare_eq_lt.mpr (Int.neg_neg_of_pos hm), Int.neg_neg]
    exact round_neg spec .positive _ e

private theorem sub_swap (spec : Format) (a b : UnpackedFloat) :
    b.sub spec a = a.sub spec b ∨ b.sub spec a = (a.sub spec b).neg := by
  cases a with
  | notANumber => cases b <;> exact .inl rfl
  | infinity s =>
    cases b with
    | infinity t => cases s <;> cases t <;> first | exact .inl rfl | exact .inr rfl
    | notANumber => exact .inl rfl
    | _ => exact .inr rfl
  | zero s =>
    cases b with
    | zero t => cases s <;> cases t <;> first | exact .inl rfl | exact .inr rfl
    | notANumber => exact .inl rfl
    | infinity t | finite t => exact .inr (by cases t <;> rfl)
  | finite s m e hm =>
    cases b with
    | finite t n f hn =>
      unfold UnpackedFloat.sub
      dsimp only
      rw [Int.min_comm f e, ← Int.neg_sub]
      exact normalize_neg spec _ _
    | notANumber => exact .inl rfl
    | infinity t => exact .inr (by cases t <;> rfl)
    | zero t => exact .inr rfl

private theorem mul_neg_neg (spec : Format) (a : UnpackedFloat) :
    a.neg.mul spec a.neg = a.mul spec a := by
  cases a with
  | notANumber => rfl
  | infinity s | zero s | finite s => cases s <;> rfl

private theorem unpack_packComponents_neg (spec : Format) (s : Sign)
    (e : BitVec spec.exponentBits) (m : BitVec spec.mantissaBitsWithoutImplicit) :
    UnpackedFloat.unpack spec (UnpackedFloat.packComponents spec (-s) e m) =
      (UnpackedFloat.unpack spec (UnpackedFloat.packComponents spec s e m)).neg := by
  simp only [UnpackedFloat.unpack, UnpackedFloat.unpackMantissa_packComponents,
    UnpackedFloat.unpackExponent_packComponents, UnpackedFloat.unpackSign_packComponents,
    Sign.ofBitVec_toBitVec]
  split
  · split <;> rfl
  · split
    · split <;> rfl
    · rfl

private theorem unpack_pack_neg (a : UnpackedFloat) :
    (Float32.Model.pack a.neg).unpack = (Float32.Model.pack a).unpack.neg := by
  show UnpackedFloat.unpack .binary32 (a.neg.pack .binary32) =
    (UnpackedFloat.unpack .binary32 (a.pack .binary32)).neg
  cases a with
  | notANumber => rfl
  | infinity s | zero s => exact unpack_packComponents_neg .binary32 s _ _
  | finite s m e hm =>
    unfold UnpackedFloat.neg UnpackedFloat.pack
    dsimp only
    split
    · exact unpack_packComponents_neg .binary32 s _ _
    · split <;> exact unpack_packComponents_neg .binary32 s _ _

private theorem unpack_sub_swap (a b : Float32) :
    (b - a).toModel.unpack = (a - b).toModel.unpack ∨
      (b - a).toModel.unpack = (a - b).toModel.unpack.neg := by
  have hsub : ∀ x y : Float32, (x - y).toModel.unpack =
      (Float32.Model.pack (x.toModel.unpack.sub .binary32 y.toModel.unpack)).unpack :=
    fun _ _ => rfl
  rw [hsub, hsub]
  rcases sub_swap .binary32 a.toModel.unpack b.toModel.unpack with hsame | hneg
  · exact .inl (by rw [hsame])
  · exact .inr (by rw [hneg, unpack_pack_neg])

theorem sub_mul_sub_comm (a b : Float32) : (a - b) * (a - b) = (b - a) * (b - a) := by
  have hsquare : ∀ x : Float32,
      x * x = ⟨.pack (x.toModel.unpack.mul .binary32 x.toModel.unpack)⟩ := fun _ => rfl
  rw [hsquare, hsquare]
  rcases unpack_sub_swap a b with hsame | hneg
  · rw [hsame]
  · rw [hneg, mul_neg_neg]

end Single

theorem Position.distance_comm (a b : Position) : a.distance b = b.distance a := by
  unfold distance
  dsimp only
  rw [Single.sub_mul_sub_comm a.x, Single.sub_mul_sub_comm a.y, Single.sub_mul_sub_comm a.z]

end TriggerScript
