/-!
# Stable insertion sort

Each element in turn moves left past the sorted elements it is strictly less than. For a strict
weak order this is the stable sort; for incomparable elements the order of arrival decides.
-/

namespace TriggerScript

variable {α : Type}

/-- Insert into a list kept greatest first, stopping at the first element `x` is not less than. -/
def insertDescending (less : α → α → Bool) (x : α) : List α → List α
  | [] => [x]
  | y :: ys => if less x y then y :: insertDescending less x ys else x :: y :: ys

def sortStable (less : α → α → Bool) (xs : List α) : List α :=
  (xs.foldl (fun sorted x => insertDescending less x sorted) []).reverse

theorem mem_insertDescending (less : α → α → Bool) (x y : α) (xs : List α) :
    y ∈ insertDescending less x xs ↔ y = x ∨ y ∈ xs := by
  induction xs with
  | nil => simp [insertDescending]
  | cons z zs ih =>
      unfold insertDescending
      split
      · simp only [List.mem_cons, ih]
        grind
      · simp

end TriggerScript
