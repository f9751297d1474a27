import Mathlib.Data.List.Perm.Basic
import TriggerScript.Sorting

/-!
# Orders of lists

Sorting moves the elements and leaves those of equal rank in their order; dropping repeats leaves
the first occurrences in theirs.
-/

namespace TriggerScript

variable {α : Type}

section

variable (less : α → α → Bool)

theorem perm_insertDescending (x : α) (xs : List α) :
    (insertDescending less x xs).Perm (x :: xs) := by
  induction xs with
  | nil => exact .refl _
  | cons y ys ih =>
    unfold insertDescending
    split
    · exact (ih.cons y).trans (.swap x y ys)
    · exact .refl _

private theorem perm_foldl_insertDescending (xs sorted : List α) :
    (xs.foldl (fun sorted x => insertDescending less x sorted) sorted).Perm (xs ++ sorted) := by
  induction xs generalizing sorted with
  | nil => exact .refl _
  | cons x xs ih =>
    have hx : (xs ++ insertDescending less x sorted).Perm (xs ++ x :: sorted) :=
      (perm_insertDescending less x sorted).append_left xs
    exact (ih _).trans (hx.trans List.perm_middle)

theorem perm_sortStable (xs : List α) : (sortStable less xs).Perm xs := by
  have hperm := perm_foldl_insertDescending less xs []
  rw [List.append_nil] at hperm
  exact (List.reverse_perm _).trans hperm

end

/-- On these elements, being incomparable is an equivalence that the order respects. -/
structure WeakOrder (less : α → α → Bool) (xs : List α) : Prop where
  asymm : ∀ a ∈ xs, ∀ b ∈ xs, less a b = true → less b a = false
  trans : ∀ a ∈ xs, ∀ b ∈ xs, ∀ c ∈ xs, less a b = false → less b c = false → less a c = false

variable {less : α → α → Bool}

theorem pairwise_insertDescending {x : α} {xs : List α} (horder : WeakOrder less (x :: xs))
    (hxs : xs.Pairwise fun a b => less a b = false) :
    (insertDescending less x xs).Pairwise fun a b => less a b = false := by
  induction xs with
  | nil => exact List.pairwise_singleton _ x
  | cons y ys ih =>
    obtain ⟨hy, hys⟩ := List.pairwise_cons.mp hxs
    unfold insertDescending
    split
    · rename_i hless
      have hsub : WeakOrder less (x :: ys) :=
        ⟨fun a ha b hb => horder.asymm a (by grind) b (by grind),
          fun a ha b hb c hc => horder.trans a (by grind) b (by grind) c (by grind)⟩
      refine List.pairwise_cons.mpr ⟨fun b hb => ?_, ih hsub hys⟩
      rcases (mem_insertDescending less x b ys).mp hb with rfl | hb
      · exact horder.asymm b (by simp) y (by simp) hless
      · exact hy b hb
    · rename_i hless
      rw [Bool.not_eq_true] at hless
      refine List.pairwise_cons.mpr ⟨fun b hb => ?_, hxs⟩
      rcases List.mem_cons.mp hb with rfl | hb
      · exact hless
      · exact horder.trans x (by simp) y (by simp) b (by simp [hb]) hless (hy b hb)

theorem pairwise_sortStable {xs : List α} (horder : WeakOrder less xs) :
    (sortStable less xs).Pairwise fun a b => less b a = false := by
  rw [sortStable, List.pairwise_reverse]
  suffices hfold : ∀ (ys sorted : List α), (∀ y ∈ ys ++ sorted, y ∈ xs) →
      sorted.Pairwise (fun a b => less a b = false) →
      (ys.foldl (fun sorted y => insertDescending less y sorted) sorted).Pairwise
        fun a b => less a b = false by
    exact hfold xs [] (by simp) .nil
  intro ys
  induction ys with
  | nil => exact fun _ _ hsorted => hsorted
  | cons y ys ih =>
    intro sorted hsub hsorted
    apply ih
    · intro z hz
      simp only [List.mem_append, mem_insertDescending] at hz
      exact hsub z (by grind)
    · apply pairwise_insertDescending _ hsorted
      exact ⟨fun a ha b hb => horder.asymm a (hsub a (by grind)) b (hsub b (by grind)),
        fun a ha b hb c hc => horder.trans a (hsub a (by grind)) b (hsub b (by grind))
          c (hsub c (by grind))⟩

private theorem filter_insertDescending {p : α → Bool} {x : α} {xs : List α}
    (hp : p x = true → ∀ y ∈ xs, p y = true → less x y = false) :
    (insertDescending less x xs).filter p = (x :: xs).filter p := by
  induction xs with
  | nil => rfl
  | cons y ys ih =>
    unfold insertDescending
    split
    · rename_i hless
      rw [List.filter_cons, ih fun hx z hz => hp hx z (List.mem_cons_of_mem y hz)]
      simp only [List.filter_cons]
      have hnot : ¬(p x = true ∧ p y = true) := by
        rintro ⟨hx, hy⟩
        simp [hp hx y List.mem_cons_self hy] at hless
      cases hx : p x <;> cases hy : p y <;> simp_all
    · rfl

theorem filter_sortStable {p : α → Bool} {xs : List α}
    (hp : ∀ x ∈ xs, ∀ y ∈ xs, p x = true → p y = true → less x y = false) :
    (sortStable less xs).filter p = xs.filter p := by
  suffices hfold : ∀ (ys sorted : List α), (∀ y ∈ ys ++ sorted, y ∈ xs) →
      (ys.foldl (fun sorted y => insertDescending less y sorted) sorted).filter p =
        (ys.filter p).reverse ++ sorted.filter p by
    rw [sortStable, List.filter_reverse, hfold xs [] (by simp)]
    simp
  intro ys
  induction ys with
  | nil => exact fun _ _ => rfl
  | cons y ys ih =>
    intro sorted hsub
    rw [List.foldl_cons, ih]
    · rw [filter_insertDescending fun hy z hz =>
        hp y (hsub y (by simp)) z (hsub z (by simp [hz])) hy]
      simp only [List.filter_cons]
      split <;> simp
    · intro z hz
      simp only [List.mem_append, mem_insertDescending] at hz
      exact hsub z (by grind)

theorem pairwise_lt_sortStable [Ord α] [Std.TransOrd α] [Std.LawfulEqOrd α] {xs : List α}
    (h : xs.Nodup) :
    (sortStable (fun a b => (compare a b).isLT) xs).Pairwise fun a b => compare a b = .lt := by
  have horder : WeakOrder (fun a b : α => (compare a b).isLT) xs := by
    refine ⟨fun a _ b _ hlt => ?_, fun a _ b _ c _ hab hbc => ?_⟩
    · rw [Ordering.isLT_iff_eq_lt] at hlt
      rw [Std.OrientedOrd.eq_swap, hlt]
      rfl
    · rw [← Bool.not_eq_true', Ordering.not_isLT_eq_isGE] at hab hbc ⊢
      exact Std.TransCmp.isGE_trans hab hbc
  have hnodup := (perm_sortStable (fun a b => (compare a b).isLT) xs).nodup_iff.mpr h
  refine ((pairwise_sortStable horder).and hnodup).imp fun {a b} ⟨hnot, hne⟩ => ?_
  cases hcmp : compare a b with
  | lt => rfl
  | eq => exact absurd (Std.LawfulEqOrd.eq_of_compare hcmp) hne
  | gt => rw [Std.OrientedCmp.gt_iff_lt.mp hcmp] at hnot; cases hnot

theorem eq_of_pairwise_lt {β : Type} [Ord β] [Std.TransOrd β] {f : α → β} {xs ys : List α}
    (hxs : xs.Pairwise fun a b => compare (f a) (f b) = .lt)
    (hys : ys.Pairwise fun a b => compare (f a) (f b) = .lt) (h : ∀ a, a ∈ xs ↔ a ∈ ys) :
    xs = ys := by
  have hnodup : ∀ {zs : List α}, zs.Pairwise (fun a b => compare (f a) (f b) = .lt) → zs.Nodup :=
    fun hzs => hzs.imp fun {a b} hlt heq => by simp [heq, Std.ReflOrd.compare_self] at hlt
  refine List.Perm.eq_of_pairwise (fun a b _ _ hab hba => ?_) hxs hys
    ((List.perm_ext_iff_of_nodup (hnodup hxs) (hnodup hys)).mpr h)
  exact absurd hba (Std.OrientedCmp.not_lt_of_lt hab)

variable [BEq α]

/-- `ys` are the elements of `xs` that `keep` accepts, each once, in the order in which `xs` first
has them. -/
structure FirstOccurrences (keep : α → Prop) (xs ys : List α) : Prop where
  mem : ∀ x, x ∈ ys ↔ x ∈ xs ∧ keep x
  inOrder : ys.Pairwise fun a b => xs.idxOf a < xs.idxOf b

theorem FirstOccurrences.nodup {keep : α → Prop} {xs ys : List α}
    (h : FirstOccurrences keep xs ys) : ys.Nodup := by
  refine List.Pairwise.imp ?_ h.inOrder
  rintro a _ hlt rfl
  exact Nat.lt_irrefl _ hlt

variable [LawfulBEq α]

private theorem idxOf_lt_of_filter {p : α → Bool} {xs : List α} {a b : α} (ha : p a = true)
    (hb : p b = true) (hlt : (xs.filter p).idxOf a < (xs.filter p).idxOf b) :
    xs.idxOf a < xs.idxOf b := by
  induction xs with
  | nil => exact hlt
  | cons x xs ih =>
    rw [List.filter_cons] at hlt
    split at hlt
    · simp only [List.idxOf_cons] at hlt ⊢
      cases hxa : x == a <;> cases hxb : x == b <;> simp_all
    · rename_i hx
      rw [List.idxOf_cons_ne _ (by grind), List.idxOf_cons_ne _ (by grind)]
      exact Nat.succ_lt_succ (ih hlt)

private theorem pairwise_eraseDups (xs : List α) :
    xs.eraseDups.Pairwise fun a b => xs.idxOf a < xs.idxOf b := by
  match xs with
  | [] => exact .nil
  | x :: xs =>
    rw [List.eraseDups_cons]
    have hmem : ∀ {b}, b ∈ (xs.filter fun b => !b == x).eraseDups → x ≠ b := fun hb => by
      simp only [List.mem_eraseDups, List.mem_filter] at hb
      grind
    refine List.pairwise_cons.mpr ⟨fun b hb => ?_, ?_⟩
    · rw [List.idxOf_cons_self, List.idxOf_cons_ne _ (hmem hb)]
      exact Nat.succ_pos _
    · refine (pairwise_eraseDups (xs.filter fun b => !b == x)).imp_of_mem fun {a b} ha hb hlt => ?_
      rw [List.idxOf_cons_ne _ (hmem ha), List.idxOf_cons_ne _ (hmem hb)]
      exact Nat.succ_lt_succ (idxOf_lt_of_filter (by grind) (by grind) hlt)
termination_by xs.length
decreasing_by simp only [List.length_cons]; exact Nat.lt_succ_of_le (List.length_filter_le _ _)

theorem firstOccurrences_filter (keep : α → Bool) (xs : List α) :
    FirstOccurrences (keep · = true) xs (xs.filter keep).eraseDups where
  mem x := by rw [List.mem_eraseDups, List.mem_filter]
  inOrder := by
    refine (pairwise_eraseDups (xs.filter keep)).imp_of_mem fun ha hb hlt => ?_
    rw [List.mem_eraseDups, List.mem_filter] at ha hb
    exact idxOf_lt_of_filter ha.2 hb.2 hlt

theorem eraseDups_of_nodup {xs : List α} (h : xs.Nodup) : xs.eraseDups = xs := by
  induction xs with
  | nil => rfl
  | cons x xs ih =>
    obtain ⟨hx, hxs⟩ := List.nodup_cons.mp h
    have hkeep : xs.filter (fun b => !b == x) = xs :=
      List.filter_eq_self.mpr fun b hb => by simpa using fun heq : b = x => hx (heq ▸ hb)
    rw [List.eraseDups_cons, hkeep, ih hxs]

theorem nodup_eraseDups (xs : List α) : xs.eraseDups.Nodup := by
  have hall := (firstOccurrences_filter (fun _ => true) xs).nodup
  rwa [List.filter_eq_self.mpr fun _ _ => rfl] at hall

end TriggerScript
