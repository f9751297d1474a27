import TriggerScript.Proofs.Distances
import TriggerScript.Proofs.Orders
import TriggerScript.Sensing

/-!
# Least elements

The least element of a list, the first among equals, is the one that a stable sort puts first.
Where an order tells all elements apart, as one does that breaks its ties by handle, the least one
does not depend on how the list is arranged.
-/

namespace TriggerScript

variable {α : Type} {less : α → α → Bool} {xs ys : List α} {m : α}

theorem WeakOrder.subset (horder : WeakOrder less xs) (hsub : ∀ y ∈ ys, y ∈ xs) :
    WeakOrder less ys where
  asymm a ha b hb := horder.asymm a (hsub a ha) b (hsub b hb)
  trans a ha b hb c hc := horder.trans a (hsub a ha) b (hsub b hb) c (hsub c hc)

theorem WeakOrder.irrefl (horder : WeakOrder less xs) {a : α} (ha : a ∈ xs) : less a a = false := by
  cases haa : less a a with
  | false => rfl
  | true => exact haa.symm.trans (horder.asymm a ha a ha haa)

theorem WeakOrder.flip (horder : WeakOrder less xs) : WeakOrder (fun a b => less b a) xs where
  asymm a ha b hb := horder.asymm b hb a ha
  trans a ha b hb c hc hab hbc := horder.trans c hc b hb a ha hbc hab

theorem weakOrder_lt {value : α → Float32} (hreal : ∀ x ∈ xs, (value x).isNaN = false) :
    WeakOrder (fun a b => value a < value b) xs where
  asymm _ _ _ _ hless := decide_eq_false (Single.lt_asymm (of_decide_eq_true hless))
  trans _ _ b hb _ _ hab hbc :=
    decide_eq_false (Single.not_lt_trans (hreal b hb) (of_decide_eq_false hab)
      (of_decide_eq_false hbc))

theorem weakOrder_ltWord {value : α → UInt32} :
    WeakOrder (fun a b => value a < value b) xs where
  asymm _ _ _ _ hless := decide_eq_false (UInt32.lt_asymm (of_decide_eq_true hless))
  trans _ _ _ _ _ _ hab hbc := by
    rw [decide_eq_false_iff_not, UInt32.not_lt] at hab hbc ⊢
    exact UInt32.le_trans hbc hab

theorem weakOrder_false : WeakOrder (fun _ _ => false) xs :=
  ⟨fun _ _ _ _ _ => rfl, fun _ _ _ _ _ _ _ _ => rfl⟩

private theorem getLast?_insertDescending {x best : α} (horder : WeakOrder less (x :: xs))
    (hxs : xs.Pairwise fun a b => less a b = false) (hbest : xs.getLast? = some best) :
    (insertDescending less x xs).getLast? = some (if less x best then x else best) := by
  induction xs with
  | nil => cases hbest
  | cons y ys ih =>
    obtain ⟨hy, hys⟩ := List.pairwise_cons.mp hxs
    have hmem : best ∈ y :: ys := List.mem_of_getLast? hbest
    unfold insertDescending
    split
    · rename_i hless
      cases ys with
      | nil =>
        obtain rfl : y = best := by simpa using hbest
        simp [insertDescending, hless]
      | cons z zs =>
        have hlast := ih (horder.subset (by grind)) hys (by simpa using hbest)
        rw [List.getLast?_cons, hlast]
        rfl
    · rename_i hless
      rw [Bool.not_eq_true] at hless
      have hkeep : less x best = false := by
        rcases List.mem_cons.mp hmem with rfl | hbehind
        · exact hless
        · exact horder.trans x (by simp) y (by simp) best (by simp [hbehind]) hless
            (hy best hbehind)
      rw [List.getLast?_cons_cons, hbest, hkeep]
      rfl

theorem head?_sortStable (horder : WeakOrder less xs) :
    (sortStable less xs).head? = leastBy less xs := by
  have hfold : ∀ (ys sorted : List α) (best : α), (∀ y ∈ ys ++ sorted, y ∈ xs) →
      sorted.Pairwise (fun a b => less a b = false) → sorted.getLast? = some best →
      (ys.foldl (fun sorted y => insertDescending less y sorted) sorted).getLast? =
        some (ys.foldl (fun best y => if less y best then y else best) best) := by
    intro ys
    induction ys with
    | nil => exact fun _ _ _ _ hlast => hlast
    | cons y ys ih =>
      intro sorted best hsub hsorted hlast
      have horder' : WeakOrder less (y :: sorted) := horder.subset (by grind)
      refine ih _ _ ?_ (pairwise_insertDescending horder' hsorted)
        (getLast?_insertDescending horder' hsorted hlast)
      intro z hz
      simp only [List.mem_append, mem_insertDescending] at hz
      exact hsub z (by grind)
  rw [sortStable, List.head?_reverse]
  cases xs with
  | nil => rfl
  | cons x xs => exact hfold xs [x] x (by simp [or_comm]) (List.pairwise_singleton _ x) rfl

theorem leastBy_concat (less : α → α → Bool) (xs : List α) (x : α) :
    leastBy less (xs ++ [x]) =
      some ((leastBy less xs).elim x fun best => if less x best then x else best) := by
  cases xs with
  | nil => rfl
  | cons y ys => simp [leastBy]

theorem leastBy_eq_none_iff : leastBy less xs = none ↔ xs = [] := by
  cases xs <;> simp [leastBy]

theorem least_of_leastBy (horder : WeakOrder less xs) (hleast : leastBy less xs = some m) :
    m ∈ xs ∧ ∀ y ∈ xs, less y m = false := by
  have hperm := perm_sortStable less xs
  have hsorted := pairwise_sortStable horder
  rw [← head?_sortStable horder] at hleast
  obtain ⟨rest, hrest⟩ := List.head?_eq_some_iff.mp hleast
  rw [hrest] at hperm hsorted
  have hm : m ∈ xs := hperm.mem_iff.mp List.mem_cons_self
  refine ⟨hm, fun y hy => ?_⟩
  rcases List.mem_cons.mp (hperm.mem_iff.mpr hy) with rfl | hbehind
  · exact horder.irrefl hm
  · exact List.rel_of_pairwise_cons hsorted hbehind

/-- An order that tells the elements of a list apart finds the same least one in every arrangement
of the list. -/
theorem leastBy_perm (horder : WeakOrder less xs)
    (hapart : ∀ a ∈ xs, ∀ b ∈ xs, less a b = false → less b a = false → a = b)
    (hperm : ys.Perm xs) : leastBy less ys = leastBy less xs := by
  have horder' : WeakOrder less ys := horder.subset fun y hy => hperm.mem_iff.mp hy
  cases hx : leastBy less xs with
  | none =>
    rw [leastBy_eq_none_iff] at hx ⊢
    rw [hx] at hperm
    exact hperm.eq_nil
  | some m =>
    obtain ⟨hm, hleast⟩ := least_of_leastBy horder hx
    cases hy : leastBy less ys with
    | none =>
      rw [leastBy_eq_none_iff] at hy
      rw [hy] at hperm
      rw [hperm.symm.eq_nil] at hm
      cases hm
    | some n =>
      obtain ⟨hn, hleast'⟩ := least_of_leastBy horder' hy
      have hnx := hperm.mem_iff.mp hn
      rw [hapart n hnx m hm (hleast n hnx) (hleast' m (hperm.mem_iff.mpr hm))]

/-- An order that puts the lower handle first where `outranks` does not tell. -/
def tiesByHandle (outranks : α → α → Bool) (handle : α → Handle) (a b : α) : Bool :=
  outranks a b || (!outranks b a && handle a < handle b)

section

variable {outranks : α → α → Bool} {handle : α → Handle}

theorem tiesByHandle_iff {a b : α} : tiesByHandle outranks handle a b = true ↔
    outranks a b = true ∨ outranks b a = false ∧ handle a < handle b := by
  simp [tiesByHandle]

theorem tiesByHandle_eq_false_iff {a b : α} : tiesByHandle outranks handle a b = false ↔
    outranks a b = false ∧ (outranks b a = true ∨ handle b ≤ handle a) := by
  simp [tiesByHandle, imp_iff_not_or]

theorem WeakOrder.tiesByHandle (horder : WeakOrder outranks xs) :
    WeakOrder (tiesByHandle outranks handle) xs where
  asymm a ha b hb hab := by
    rw [tiesByHandle_iff] at hab
    rw [tiesByHandle_eq_false_iff]
    rcases hab with hab | ⟨hba, hlt⟩
    · exact ⟨horder.asymm a ha b hb hab, .inl hab⟩
    · exact ⟨hba, .inr (UInt64.le_of_lt hlt)⟩
  trans a ha b hb c hc hab hbc := by
    rw [tiesByHandle_eq_false_iff] at hab hbc ⊢
    refine ⟨horder.trans a ha b hb c hc hab.1 hbc.1, ?_⟩
    cases hca : outranks c a with
    | true => exact .inl rfl
    | false =>
      -- What does not outrank `a` is not outranked by `b` either, nor does `b` outrank `a`.
      have hcb := horder.trans c hc a ha b hb hca hab.1
      have hba := horder.trans b hb c hc a ha hbc.1 hca
      refine .inr (UInt64.le_trans ?_ ?_ (b := handle b))
      · exact hbc.2.resolve_left (by rw [hcb]; exact Bool.false_ne_true)
      · exact hab.2.resolve_left (by rw [hba]; exact Bool.false_ne_true)

theorem handle_eq_of_tiesByHandle {a b : α} (hab : tiesByHandle outranks handle a b = false)
    (hba : tiesByHandle outranks handle b a = false) : handle a = handle b := by
  rw [tiesByHandle_eq_false_iff] at hab hba
  refine UInt64.le_antisymm ?_ ?_
  · exact hba.2.resolve_left (by rw [hab.1]; exact Bool.false_ne_true)
  · exact hab.2.resolve_left (by rw [hba.1]; exact Bool.false_ne_true)

theorem pairwise_sortStable_tiesByHandle (horder : WeakOrder outranks xs)
    (hnodup : (xs.map handle).Nodup) :
    (sortStable (tiesByHandle outranks handle) xs).Pairwise
      fun a b => tiesByHandle outranks handle a b = true := by
  have hapart : (sortStable (tiesByHandle outranks handle) xs).Pairwise
      fun a b => handle a ≠ handle b :=
    List.pairwise_map.mp (((perm_sortStable _ xs).map handle).nodup_iff.mpr hnodup)
  refine List.Pairwise.imp₂ (fun a b hba hne => ?_) (pairwise_sortStable horder.tiesByHandle) hapart
  rw [← Bool.not_eq_false]
  exact fun hab => hne (handle_eq_of_tiesByHandle hab hba)

end

end TriggerScript
