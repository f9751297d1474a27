/-!
# Saturating clocks

Clocks and counters are 32-bit words that stop at their greatest value instead of wrapping.
-/

namespace TriggerScript

/-- Sum of two words, held at the greatest word. -/
def addSat (a b : UInt32) : UInt32 :=
  if a.toNat + b.toNat < UInt32.size then a + b else 0xFFFFFFFF

theorem toNat_addSat (a b : UInt32) :
    (addSat a b).toNat = min (a.toNat + b.toNat) (UInt32.size - 1) := by
  unfold addSat
  split
  · rename_i h
    rw [UInt32.toNat_add]
    simp only [UInt32.size] at h ⊢
    omega
  · rename_i h
    have : (0xFFFFFFFF : UInt32).toNat = 4294967295 := rfl
    simp only [UInt32.size] at h ⊢
    omega

end TriggerScript
