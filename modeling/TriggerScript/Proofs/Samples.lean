import Mathlib.Data.List.Sort
import TriggerScript.Proofs.Draws
import TriggerScript.Proofs.Orders
import TriggerScript.Targeting

/-!
# Samples

A sample has as many numbers as were asked for, all of them distinct and below the length, in
whichever of the three ways it is drawn. So a list that is cut to a sample of its places keeps that
many of its elements, in their order.
-/

namespace TriggerScript

namespace Rng

structure IsSample (length count : Nat) (is : List Nat) : Prop where
  nodup : is.Nodup
  lt : ∀ i ∈ is, i < length
  size : is.length = count

theorem IsSample.concat {length count j : Nat} {is : List Nat} (h : IsSample length count is)
    (hj : j < length) (hnew : j ∉ is) : IsSample length (count + 1) (is ++ [j]) where
  nodup := List.nodup_append.mpr ⟨h.nodup, by simp, by grind⟩
  lt i hi := by
    rcases List.mem_append.mp hi with hi | hi
    · exact h.lt i hi
    · rwa [List.mem_singleton.mp hi]
  size := by simp [h.size]

theorem IsSample.mono {length bound count : Nat} {is : List Nat} (h : IsSample length count is)
    (hle : length ≤ bound) : IsSample bound count is where
  nodup := h.nodup
  lt i hi := Nat.lt_of_lt_of_le (h.lt i hi) hle
  size := h.size

theorem inRange_le (j : Nat) (g : Rng) : (g.inRange 0 (UInt32.ofNat j)).1.toNat ≤ j := by
  have hbound := (inRange_bounds (UInt32.zero_le (a := .ofNat j)) g).2
  rw [UInt32.toNat_ofNat'] at hbound
  exact Nat.le_trans hbound (Nat.mod_le _ _)

/-- What was taken is below the end of the range, so the end itself is new. -/
theorem isSample_takeRising {taken : List Nat} {n : Nat} (count j : Nat) (g : Rng)
    (h : IsSample j n taken) : IsSample (j + count) (n + count) (takeRising taken count j g).1 := by
  induction count generalizing taken n j g with
  | zero => exact h
  | succ count ih =>
    unfold takeRising
    dsimp only
    have hdraw := inRange_le j g
    generalize g.inRange 0 (UInt32.ofNat j) = draw at hdraw ⊢
    have hstep : IsSample (j + 1) (n + 1)
        (taken ++ [if taken.contains draw.1.toNat then j else draw.1.toNat]) := by
      apply (h.mono (Nat.le_succ j)).concat
      · split <;> omega
      · split
        · exact fun hmem => Nat.lt_irrefl j (h.lt j hmem)
        · rename_i hnew
          simpa using hnew
    have hrest := ih (j + 1) draw.2 hstep
    rwa [Nat.add_right_comm j, Nat.add_right_comm n] at hrest

theorem perm_exchange (count i : Nat) (places : Array Nat) (g : Rng) :
    (exchange count i places g).1.toList.Perm places.toList := by
  induction count generalizing i places g with
  | zero => exact .refl _
  | succ count ih =>
    unfold exchange
    dsimp only
    refine (ih _ _ _).trans ?_
    rw [Array.swapIfInBounds_def]
    split
    · split
      · exact (Array.swap_perm _ _).toList
      · exact .refl _
    · exact .refl _

theorem isSample_exchange {length count : Nat} (hle : count ≤ length) (g : Rng) :
    IsSample length count ((exchange count 0 (Array.range length) g).1.toList.take count) := by
  have hperm := perm_exchange count 0 (Array.range length) g
  rw [Array.toList_range] at hperm
  refine ⟨(hperm.nodup_iff.mpr List.nodup_range).sublist (List.take_sublist _ _), fun i hi => ?_, ?_⟩
  · exact List.mem_range.mp (hperm.mem_iff.mp (List.mem_of_mem_take hi))
  · rw [List.length_take, hperm.length_eq, List.length_range]
    exact Nat.min_eq_left hle

private theorem drawWithin_zero (zone : UInt32) (tries : Nat) (g : Rng) :
    (drawWithin 0 zone tries g).1 = 0 := by
  cases tries <;> simp [drawWithin]

theorem below_lt {length : Nat} (hpos : 0 < length) (g : Rng) :
    (g.below (UInt32.ofNat length)).1.toNat < length := by
  unfold below
  by_cases hzero : UInt32.ofNat length = 0
  · rw [hzero, drawWithin_zero]
    exact hpos
  · have hdraw := drawWithin_lt hzero
      (0xFFFFFFFF - (0xFFFFFFFF - UInt32.ofNat length + 1) % UInt32.ofNat length) maxRejections g
    refine Nat.lt_of_lt_of_le hdraw ?_
    rw [UInt32.toNat_ofNat']
    exact Nat.mod_le _ _

/-- As long as not all numbers are taken there is a new one, however many tries fail. -/
theorem fresh_spec {length : Nat} {taken : List Nat} (hroom : taken.length < length) (tries : Nat)
    (g : Rng) : (fresh length taken tries g).1 < length ∧ (fresh length taken tries g).1 ∉ taken := by
  induction tries generalizing g with
  | zero =>
    unfold fresh
    dsimp only
    cases hfind : (List.range length).find? (!taken.contains ·) with
    | none =>
      have hall : List.range length ⊆ taken := fun i hi => by
        simpa using List.find?_eq_none.mp hfind i hi
      have hle := (List.subperm_of_subset List.nodup_range hall).length_le
      rw [List.length_range] at hle
      omega
    | some i =>
      have hi : i < length := List.mem_range.mp (List.mem_of_find?_eq_some hfind)
      exact ⟨hi, by simpa using List.find?_some hfind⟩
  | succ tries ih =>
    unfold fresh
    dsimp only
    split
    · exact ih _
    · rename_i hnew
      exact ⟨below_lt (by omega) g, by simpa using hnew⟩

theorem isSample_takeFresh {length : Nat} {taken : List Nat} {n : Nat} (count : Nat) (g : Rng)
    (h : IsSample length n taken) (hle : n + count ≤ length) :
    IsSample length (n + count) (takeFresh length taken count g).1 := by
  induction count generalizing taken n g with
  | zero => exact h
  | succ count ih =>
    unfold takeFresh
    dsimp only
    have hroom : taken.length < length := by
      rw [h.size]
      omega
    have hfresh := fresh_spec hroom maxRejections g
    have hrest := ih (fresh length taken maxRejections g).2 (h.concat hfresh.1 hfresh.2)
      (by omega)
    rwa [Nat.add_right_comm n] at hrest

theorem isSample_sample {length count : Nat} (hle : count ≤ length) (g : Rng) :
    IsSample length count (g.sample length count).1 := by
  have hnone : ∀ n, IsSample n 0 [] := fun _ => ⟨.nil, by simp, rfl⟩
  unfold sample
  split
  · exact isSample_exchange hle g
  · split
    · have hrising := isSample_takeRising count (length - count) g (hnone _)
      rwa [Nat.sub_add_cancel hle, Nat.zero_add] at hrising
    · have hfresh := isSample_takeFresh count g (hnone length) (by rwa [Nat.zero_add])
      rwa [Nat.zero_add] at hfresh

theorem IsSample.sublist_range {length count : Nat} {is : List Nat} (h : IsSample length count is) :
    (sortStable (fun a b => decide (a < b)) is).Sublist (List.range length) := by
  have horder : WeakOrder (fun a b : Nat => decide (a < b)) is :=
    ⟨fun _ _ _ _ hab => by grind, fun _ _ _ _ _ _ hab hbc => by grind⟩
  have hperm := perm_sortStable (fun a b => decide (a < b)) is
  have hsorted : (sortStable (fun a b => decide (a < b)) is).Pairwise (· ≤ ·) :=
    (pairwise_sortStable horder).imp fun hless => by grind
  refine List.sublist_of_subperm_of_pairwise
    (List.subperm_of_subset (hperm.nodup_iff.mpr h.nodup) fun i hi => ?_) hsorted
    List.pairwise_le_range
  exact List.mem_range.mpr (h.lt i (hperm.mem_iff.mp hi))

end Rng

theorem filterMap_getElem?_range {α : Type} (xs : List α) :
    (List.range xs.length).filterMap (xs[·]?) = xs := by
  induction xs with
  | nil => rfl
  | cons x xs ih =>
    simpa [List.range_succ_eq_map, List.filterMap_map, Function.comp_def] using ih

/-- `kept` are as many elements of a list as it may keep, in their order; 0 keeps all. -/
def Trimmed (found : List Handle) (maxSize : UInt32) (kept : List Handle) : Prop :=
  if maxSize = 0 then kept = found
  else kept.Sublist found ∧ kept.length = min maxSize.toNat found.length

theorem Trimmed.sublist {found kept : List Handle} {maxSize : UInt32}
    (h : Trimmed found maxSize kept) : kept.Sublist found := by
  unfold Trimmed at h
  split at h
  · exact h ▸ .refl _
  · exact h.1

theorem trimmed_trim (found : List Handle) (maxSize : UInt32) (g : Rng) :
    Trimmed found maxSize (trim found maxSize g).1 := by
  unfold Trimmed trim
  by_cases hall : maxSize = 0
  · rw [if_pos hall, if_pos (.inl hall)]
  rw [if_neg hall]
  split
  · rename_i hfits
    exact ⟨.refl _, (Nat.min_eq_right (hfits.resolve_left hall)).symm⟩
  · rename_i hcut
    have hle : maxSize.toNat ≤ found.length := Nat.le_of_not_le fun hfits => hcut (.inr hfits)
    have hsample := Rng.isSample_sample hle g
    generalize g.sample found.length maxSize.toNat = picked at hsample
    have hplaces := hsample.sublist_range
    have hkept := hplaces.filterMap (found[·]?)
    rw [filterMap_getElem?_range] at hkept
    refine ⟨hkept, ?_⟩
    rw [Nat.min_eq_left hle, List.filterMap_length_eq_length.mpr, (perm_sortStable _ _).length_eq,
      hsample.size]
    intro i hi
    rw [List.getElem?_eq_getElem (List.mem_range.mp (hplaces.subset hi))]
    rfl

end TriggerScript
