import Mathlib.Logic.Function.Iterate
import TriggerScript.Proofs.ListTurns

/-!
# Clocks of timed action lists

The steps that come due are told by the time that a list had in all, and by the sums of their
delays. So it makes no difference in which slices the list gets its time.
-/

namespace TriggerScript.ListRunner

def movedOn (p : ListRunner × Rng) : ListRunner × Rng :=
  rollDelay { p.1 with cursor := p.1.cursor + 1 } p.2

def withElapsed (r : ListRunner) (elapsed : UInt32) : ListRunner := { r with elapsed }

/-- The delay of a step, counted from the next one: the pending delay, then those rolled on the
way. -/
def delay (p : ListRunner × Rng) (i : Nat) : Nat := (movedOn^[i] p).1.nextDelay.toNat

/-- The sum of the delays of the next steps. -/
def span (p : ListRunner × Rng) : Nat → Nat
  | 0 => 0
  | count + 1 => span p count + delay p count

variable {p q s : ListRunner × Rng} {time count : Nat}

@[simp] theorem cursor_movedOn (p : ListRunner × Rng) (count : Nat) :
    (movedOn^[count] p).1.cursor = p.1.cursor + count := by
  induction count generalizing p with
  | zero => rfl
  | succ count ih =>
    rw [Function.iterate_succ_apply, ih, Nat.add_comm count, ← Nat.add_assoc]
    rfl

@[simp] theorem rules_movedOn (p : ListRunner × Rng) (count : Nat) :
    (movedOn^[count] p).1.rules = p.1.rules := by
  induction count generalizing p with
  | zero => rfl
  | succ count ih =>
    rw [Function.iterate_succ_apply, ih]
    rfl

/-- Delays are rolled without a look at the clock. -/
theorem movedOn_withElapsed (r : ListRunner) (g : Rng) (elapsed : UInt32) (count : Nat) :
    movedOn^[count] (r.withElapsed elapsed, g) =
      ((movedOn^[count] (r, g)).1.withElapsed elapsed, (movedOn^[count] (r, g)).2) := by
  induction count generalizing r g with
  | zero => rfl
  | succ count ih =>
    rw [Function.iterate_succ_apply, Function.iterate_succ_apply]
    exact ih (movedOn (r, g)).1 (movedOn (r, g)).2

theorem delay_withElapsed (r : ListRunner) (g : Rng) (elapsed : UInt32) :
    delay (r.withElapsed elapsed, g) = delay (r, g) := by
  funext i
  rw [delay, movedOn_withElapsed]
  rfl

theorem span_withElapsed (r : ListRunner) (g : Rng) (elapsed : UInt32) :
    span (r.withElapsed elapsed, g) = span (r, g) := by
  funext count
  induction count with
  | zero => rfl
  | succ count ih => rw [span, span, ih, delay_withElapsed]

theorem span_add (p : ListRunner × Rng) (first second : Nat) :
    span p (first + second) = span p first + span (movedOn^[first] p) second := by
  induction second with
  | zero => rfl
  | succ second ih =>
    rw [← Nat.add_assoc, span, ih, span, Nat.add_assoc]
    congr 2
    rw [delay, delay, Nat.add_comm, Function.iterate_add_apply]

theorem span_mono (p : ListRunner × Rng) {first second : Nat} (h : first ≤ second) :
    span p first ≤ span p second := by
  obtain ⟨rest, rfl⟩ := Nat.exists_eq_add_of_le h
  rw [span_add]
  exact Nat.le_add_right _ _

/-- `count` steps are taken, and their delays are spent of the time that there is. -/
structure Spends (p : ListRunner × Rng) (time count : Nat) (q : ListRunner × Rng) : Prop where
  place : q = ((movedOn^[count] p).1.withElapsed q.1.elapsed, (movedOn^[count] p).2)
  clock : q.1.elapsed.toNat + span p count = time
  within : count = 0 ∨ p.1.cursor + count ≤ p.1.rules.size

def Rests (r : ListRunner) : Prop := r.cursor < r.rules.size → r.elapsed < r.nextDelay

namespace Spends

theorem cursor (h : Spends p time count q) : q.1.cursor = p.1.cursor + count := by
  rw [h.place]
  exact cursor_movedOn p count

theorem rules (h : Spends p time count q) : q.1.rules = p.1.rules := by
  rw [h.place]
  exact rules_movedOn p count

theorem pending (h : Spends p time count q) : q.1.nextDelay.toNat = delay p count := by
  rw [h.place]
  rfl

theorem span_after (h : Spends p time count q) (more : Nat) :
    span q more = span (movedOn^[count] p) more := by
  rw [h.place, span_withElapsed]

theorem nothing (p : ListRunner × Rng) : Spends p p.1.elapsed.toNat 0 p := ⟨rfl, rfl, .inl rfl⟩

theorem of_withElapsed {r : ListRunner} {g : Rng} {elapsed : UInt32}
    (h : Spends (r.withElapsed elapsed, g) time count q) : Spends (r, g) time count q where
  place := by
    have hplace := h.place
    rw [movedOn_withElapsed] at hplace
    exact hplace
  clock := by
    have hclock := h.clock
    rwa [span_withElapsed] at hclock
  within := h.within

/-- What is left over counts for the steps that follow. -/
theorem trans {more : Nat} {count' : Nat} (h : Spends p time count q)
    (h' : Spends q (q.1.elapsed.toNat + more) count' s) :
    Spends p (time + more) (count + count') s where
  place := by
    have hmoved : movedOn^[count'] q =
        ((movedOn^[count + count'] p).1.withElapsed q.1.elapsed,
          (movedOn^[count + count'] p).2) := by
      rw [h.place, movedOn_withElapsed, Nat.add_comm, Function.iterate_add_apply]
      rfl
    have hplace := h'.place
    rw [hmoved] at hplace
    exact hplace
  clock := by
    have hclock := h.clock
    have hclock' := h'.clock
    rw [h.span_after] at hclock'
    rw [span_add]
    omega
  within := by
    have hwithin' := h'.within
    rw [h.cursor, h.rules] at hwithin'
    have hwithin := h.within
    omega

theorem lt_count_iff (h : Spends p time count q) (hrests : q.1.Rests) (i : Nat) :
    i < count ↔ p.1.cursor + i < p.1.rules.size ∧ span p (i + 1) ≤ time := by
  have hclock := h.clock
  constructor
  · intro hi
    have hspan : span p (i + 1) ≤ span p count := span_mono p hi
    have hwithin := h.within
    exact ⟨by omega, by omega⟩
  · rintro ⟨hstep, htime⟩
    by_contra hi
    have hspan : span p (count + 1) ≤ span p (i + 1) := span_mono p (by omega)
    have hshort := UInt32.lt_iff_toNat_lt.mp (hrests (by rw [h.cursor, h.rules]; omega))
    rw [h.pending] at hshort
    rw [span] at hspan
    omega

/-- The time decides what is taken. -/
theorem unique {count' : Nat} (h : Spends p time count q) (hrests : q.1.Rests)
    (h' : Spends p time count' s) (hrests' : s.1.Rests) : count = count' ∧ q = s := by
  have hcount : count = count' := by
    have hiff : ∀ i, i < count ↔ i < count' := fun i =>
      (h.lt_count_iff hrests i).trans (h'.lt_count_iff hrests' i).symm
    have hle := (hiff count).mpr
    have hge := (hiff count').mp
    omega
  subst hcount
  have hclock : q.1.elapsed.toNat = s.1.elapsed.toNat := by
    have hq := h.clock
    have hs := h'.clock
    omega
  refine ⟨rfl, ?_⟩
  rw [h.place, h'.place, UInt32.toNat_inj.mp hclock]

end Spends

theorem spends_stepped {r : ListRunner} (hdue : r.nextDelay ≤ r.elapsed)
    (hstep : r.cursor < r.rules.size) (g : Rng) :
    Spends (r, g) r.elapsed.toNat 1
      ((movedOn (r, g)).1.withElapsed (r.elapsed - r.nextDelay), (movedOn (r, g)).2) where
  place := rfl
  clock := by
    have hle := UInt32.le_iff_toNat_le.mp hdue
    change (r.elapsed - r.nextDelay).toNat + (0 + r.nextDelay.toNat) = r.elapsed.toNat
    rw [UInt32.toNat_sub_of_le _ _ hdue]
    omega
  within := .inr hstep

/-- The loop takes steps as long as there is time and it has turns left. -/
theorem spends_takeDue (turns : Nat) (r : ListRunner) (g : Rng)
    (hturns : turns ≤ r.rules.size - r.cursor) :
    ∃ count ≤ turns, (takeDue turns r g).1 = List.range' r.cursor count ∧
      Spends (r, g) r.elapsed.toNat count (takeDue turns r g).2 ∧
      (count < turns →
        (takeDue turns r g).2.1.elapsed < (takeDue turns r g).2.1.nextDelay) := by
  induction turns generalizing r g with
  | zero => exact ⟨0, Nat.le_refl 0, rfl, .nothing (r, g), fun h => absurd h (Nat.lt_irrefl 0)⟩
  | succ turns ih =>
    unfold takeDue
    by_cases hearly : r.elapsed < r.nextDelay
    · rw [if_pos hearly]
      exact ⟨0, Nat.zero_le _, rfl, .nothing (r, g), fun _ => hearly⟩
    · rw [if_neg hearly]
      have hfirst := spends_stepped (UInt32.not_lt.mp hearly) (by omega) g
      obtain ⟨count, hcount, hdue, hrest, hearlier⟩ :=
        ih ((movedOn (r, g)).1.withElapsed (r.elapsed - r.nextDelay)) (movedOn (r, g)).2 (by
          change turns ≤ r.rules.size - (r.cursor + 1)
          omega)
      refine ⟨count + 1, Nat.succ_le_succ hcount, ?_, ?_, fun h => hearlier (by omega)⟩
      · rw [List.range'_succ]
        exact congrArg (r.cursor :: ·) hdue
      · rw [Nat.add_comm]
        exact hfirst.trans (show Spends _ (_ + 0) _ _ from hrest)

theorem spends_all (r : ListRunner) (g : Rng) :
    ∃ count, (takeDue (r.rules.size - r.cursor) r g).1 = List.range' r.cursor count ∧
      Spends (r, g) r.elapsed.toNat count (takeDue (r.rules.size - r.cursor) r g).2 ∧
      (takeDue (r.rules.size - r.cursor) r g).2.1.Rests := by
  obtain ⟨count, hcount, hdue, hspends, hearlier⟩ :=
    spends_takeDue (r.rules.size - r.cursor) r g (Nat.le_refl _)
  refine ⟨count, hdue, hspends, fun hstep => hearlier ?_⟩
  rw [hspends.rules, hspends.cursor] at hstep
  exact Nat.lt_of_le_of_ne hcount fun heq => by
    change r.cursor + count < r.rules.size at hstep
    omega

variable {r : ListRunner} {inCombat : Bool}

theorem advance_of_paused (h : r.mode.allows inCombat = false) (deltaMs : UInt32) (g : Rng) :
    r.advance deltaMs inCombat g = ([], r, g) := by
  rw [advance, h]
  rfl

theorem advance_of_allowed (h : r.mode.allows inCombat = true) (deltaMs : UInt32) (g : Rng) :
    r.advance deltaMs inCombat g =
      takeDue (r.rules.size - r.cursor) (r.withElapsed (addSat r.elapsed deltaMs)) g := by
  rw [advance, h]
  rfl

theorem toNat_addSat_of_le {a b : UInt32} (h : a.toNat + b.toNat ≤ 4294967295) :
    (addSat a b).toNat = a.toNat + b.toNat := by
  rw [toNat_addSat]
  exact Nat.min_eq_left h

/-- A list that is not paused takes all steps that its clock is enough for. -/
theorem spends_advance (h : r.mode.allows inCombat = true) (deltaMs : UInt32) (g : Rng) :
    ∃ count, (r.advance deltaMs inCombat g).1 = List.range' r.cursor count ∧
      Spends (r, g) (addSat r.elapsed deltaMs).toNat count (r.advance deltaMs inCombat g).2 ∧
      (r.advance deltaMs inCombat g).2.1.Rests := by
  rw [advance_of_allowed h]
  obtain ⟨count, hdue, hspends, hrests⟩ := spends_all (r.withElapsed (addSat r.elapsed deltaMs)) g
  exact ⟨count, hdue, hspends.of_withElapsed, hrests⟩

theorem spends_turn (h : r.mode.allows inCombat = true) (deltaMs : UInt32) (g : Rng) {k : Nat}
    (hk : r.cursor + k ∈ (r.advance deltaMs inCombat g).1) :
    Spends (r, g) (addSat r.elapsed deltaMs).toNat k
        (takeDue k (r.withElapsed (addSat r.elapsed deltaMs)) g).2 ∧
      (takeDue k (r.withElapsed (addSat r.elapsed deltaMs)) g).2.1.nextDelay ≤
        (takeDue k (r.withElapsed (addSat r.elapsed deltaMs)) g).2.1.elapsed := by
  obtain ⟨all, hall, hspendsAll, hrests⟩ := spends_advance h deltaMs g
  have hlt : k < all := by
    rw [hall, List.mem_range'_1] at hk
    omega
  obtain ⟨hstep, htime⟩ := (hspendsAll.lt_count_iff hrests k).mp hlt
  change r.cursor + k < r.rules.size at hstep
  obtain ⟨count, hcount, -, hspends, hearlier⟩ :=
    spends_takeDue k (r.withElapsed (addSat r.elapsed deltaMs)) g (by
      change k ≤ r.rules.size - r.cursor
      omega)
  have hspends' : Spends (r, g) (addSat r.elapsed deltaMs).toNat count _ :=
    hspends.of_withElapsed
  have heq : count = k := by
    by_contra hne
    have hbefore : count < k := Nat.lt_of_le_of_ne hcount hne
    exact Nat.lt_irrefl count ((hspends'.lt_count_iff (fun _ => hearlier hbefore) count).mpr
      ((hspendsAll.lt_count_iff hrests count).mp (Nat.lt_trans hbefore hlt)))
  subst heq
  refine ⟨hspends', UInt32.le_iff_toNat_le.mpr ?_⟩
  have hclock := hspends'.clock
  rw [hspends'.pending]
  rw [span] at htime
  omega

variable {a b : UInt32}

theorem advance_add (hfits : r.elapsed.toNat + a.toNat + b.toNat ≤ 4294967295) (g : Rng) :
    r.advance (a + b) inCombat g =
      ((r.advance a inCombat g).1 ++
          ((r.advance a inCombat g).2.1.advance b inCombat (r.advance a inCombat g).2.2).1,
        ((r.advance a inCombat g).2.1.advance b inCombat (r.advance a inCombat g).2.2).2) := by
  have hmode := (resumes_advance r a inCombat g).mode
  cases hallows : r.mode.allows inCombat with
  | false =>
    rw [advance_of_paused hallows, advance_of_paused hallows, advance_of_paused hallows]
    rfl
  | true =>
    obtain ⟨first, hfirst, hspends, hrests⟩ := spends_advance hallows a g
    generalize r.advance a inCombat g = slice at hmode hfirst hspends hrests ⊢
    rw [← hmode] at hallows
    obtain ⟨second, hsecond, hspends', hrests'⟩ := spends_advance hallows b slice.2.2
    rw [hmode] at hallows
    obtain ⟨all, hall, hspendsAll, hrestsAll⟩ := spends_advance hallows (a + b) g
    have hclock := hspends.clock
    have hsum : (a + b).toNat = a.toNat + b.toNat := by
      rw [UInt32.toNat_add]
      exact Nat.mod_eq_of_lt (by omega)
    rw [toNat_addSat_of_le (by omega)] at hspends hclock
    rw [toNat_addSat_of_le (by omega)] at hspends'
    rw [toNat_addSat_of_le (by omega), hsum, ← Nat.add_assoc] at hspendsAll
    obtain ⟨rfl, hrest⟩ := hspendsAll.unique hrestsAll (hspends.trans hspends') hrests'
    refine Prod.ext ?_ hrest
    rw [hall, hfirst, hsecond, hspends.cursor]
    exact (List.range'_append_1).symm

/-- How a list spends a slice `a` of time, and a slice `b` after it. -/
structure KeepsTime (r : ListRunner) (inCombat : Bool) (g : Rng) (a b : UInt32) : Prop where
  sliced : r.advance (a + b) inCombat g =
    ((r.advance a inCombat g).1 ++
        ((r.advance a inCombat g).2.1.advance b inCombat (r.advance a inCombat g).2.2).1,
      ((r.advance a inCombat g).2.1.advance b inCombat (r.advance a inCombat g).2.2).2)
  consecutive : (r.advance a inCombat g).1 =
    List.range' r.cursor (r.advance a inCombat g).1.length
  due : r.mode.allows inCombat = true → ∀ i, r.cursor + i ∈ (r.advance a inCombat g).1 ↔
    r.cursor + i < r.rules.size ∧ span (r, g) (i + 1) ≤ r.elapsed.toNat + a.toNat
  /-- The loop is at step `k` after `k` turns. -/
  turns : r.mode.allows inCombat = true → ∀ k, r.cursor + k ∈ (r.advance a inCombat g).1 →
    (takeDue k (r.withElapsed (addSat r.elapsed a)) g).2.1.cursor = r.cursor + k ∧
      (takeDue k (r.withElapsed (addSat r.elapsed a)) g).2.1.nextDelay ≤
        (takeDue k (r.withElapsed (addSat r.elapsed a)) g).2.1.elapsed
  left : r.mode.allows inCombat = true → (r.advance a inCombat g).2.1.elapsed.toNat +
    span (r, g) (r.advance a inCombat g).1.length = r.elapsed.toNat + a.toNat
  paused : r.mode.allows inCombat = false → r.advance a inCombat g = ([], r, g)

/-- As long as the clock does not reach its end, a list takes the steps whose delays add up to no
more than the time it had, whatever the slices. -/
theorem keepsTime_of_fits (hfits : r.elapsed.toNat + a.toNat + b.toNat ≤ 4294967295)
    (inCombat : Bool) (g : Rng) : KeepsTime r inCombat g a b := by
  have hclock : (addSat r.elapsed a).toNat = r.elapsed.toNat + a.toNat :=
    toNat_addSat_of_le (by omega)
  refine ⟨advance_add hfits g, ?consecutive, ?due, ?turns, ?left, fun h => advance_of_paused h a g⟩
  case consecutive =>
    cases h : r.mode.allows inCombat with
    | false => rw [advance_of_paused h, List.length_nil, List.range'_zero]
    | true =>
      obtain ⟨count, hdue, -⟩ := spends_advance h a g
      rw [hdue, List.length_range']
  case due =>
    intro h i
    obtain ⟨count, hdue, hspends, hrests⟩ := spends_advance h a g
    rw [hclock] at hspends
    rw [hdue, List.mem_range'_1, ← hspends.lt_count_iff hrests]
    omega
  case turns =>
    intro h k hk
    obtain ⟨hspends, hle⟩ := spends_turn h a g hk
    exact ⟨hspends.cursor, hle⟩
  case left =>
    intro h
    obtain ⟨count, hdue, hspends, -⟩ := spends_advance h a g
    rw [hdue, List.length_range', hspends.clock, hclock]

private def waiting (id min max : UInt32) : Rule where
  link := .timedList 5
  id
  spec :=
    { event := .update min max, phase := .always, flags := .none, chance := 100
      cooldownMin := 0, cooldownMax := 0 }
  actions := []
  target := { target := .none }
  linkTo := none
  comment := ""

private def volleys : RuleSet where
  link := .timedList 5
  rules := [waiting 0 500 1500, waiting 1 300 600, waiting 2 0 0, waiting 3 200 400,
    waiting 4 5000 6000]

private def begun : ListRunner × Rng :=
  start { listId := 5, mode := .outOfCombat, allowOverride := false, invoker := none } volleys
    (.ofSeed 1)

/-- Four steps come due in 2300 milliseconds, and one of them in the first 1400. -/
theorem keepsTime_volleys :
    begun.1.elapsed.toNat + (1400 : UInt32).toNat + (900 : UInt32).toNat ≤ 4294967295 ∧
      KeepsTime begun.1 false begun.2 1400 900 ∧
      (begun.1.advance 1400 false begun.2).1 = [0] ∧
      (begun.1.advance 2300 false begun.2).1 = [0, 1, 2, 3] := by
  have hfits : begun.1.elapsed.toNat + (1400 : UInt32).toNat + (900 : UInt32).toNat ≤
      4294967295 := by decide +kernel
  exact ⟨hfits, keepsTime_of_fits hfits false begun.2, by decide +kernel, by decide +kernel⟩

end TriggerScript.ListRunner
