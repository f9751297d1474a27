import TriggerScript.Proofs.Schedules
import TriggerScript.Proofs.Timers

/-!
# Turns of timed action lists

In its turn a running list takes the steps that are due, in order, and is dropped when none is left.
No step is taken before the least delays of the steps up to it have passed, since time that is left
over from a step is all that counts for the next one.
-/

namespace TriggerScript

namespace RuleSet

def leastDelay (set : RuleSet) (index : Nat) : Nat :=
  ((set.rules[index]?.bind (·.event.initialTimer)).getD (0, 0)).1.toNat

/-- The least time that the first steps of a list take. -/
def leastTime (set : RuleSet) : Nat → Nat
  | 0 => 0
  | count + 1 => set.leastTime count + set.leastDelay count

end RuleSet

namespace ListRunner

structure Paced (r : ListRunner) (time : Nat) : Prop where
  spent : r.rules.leastTime r.cursor + r.elapsed.toNat ≤ time
  waits : r.rules.leastDelay r.cursor ≤ r.nextDelay.toNat

theorem Paced.mono {r : ListRunner} {time time' : Nat} (h : r.Paced time) (hle : time ≤ time') :
    r.Paced time' :=
  ⟨Nat.le_trans h.spent hle, h.waits⟩

theorem waits_of_drawn {r : ListRunner} {g : Rng}
    (h : r.nextDelay = (g.roll r.delayRange.1 r.delayRange.2).1) :
    r.rules.leastDelay r.cursor ≤ r.nextDelay.toNat := by
  rw [h]
  exact (Rng.roll_bounds r.delayRange.1 r.delayRange.2 g).1

structure Resumes (r r' : ListRunner) : Prop where
  listId : r'.listId = r.listId
  rules : r'.rules = r.rules
  mode : r'.mode = r.mode
  invoker : r'.invoker = r.invoker

theorem Resumes.refl (r : ListRunner) : r.Resumes r := ⟨rfl, rfl, rfl, rfl⟩

theorem Resumes.trans {r r' r'' : ListRunner} (h : r.Resumes r') (h' : r'.Resumes r'') :
    r.Resumes r'' :=
  ⟨h'.listId.trans h.listId, h'.rules.trans h.rules, h'.mode.trans h.mode,
    h'.invoker.trans h.invoker⟩

theorem resumes_takeDue (steps : Nat) (r : ListRunner) (g : Rng) :
    r.Resumes (takeDue steps r g).2.1 := by
  induction steps generalizing r g with
  | zero => exact .refl r
  | succ steps ih =>
    unfold takeDue
    split
    · exact .refl r
    · have hrest := ih
        (rollDelay { r with elapsed := r.elapsed - r.nextDelay, cursor := r.cursor + 1 } g).1
        (rollDelay { r with elapsed := r.elapsed - r.nextDelay, cursor := r.cursor + 1 } g).2
      exact ⟨hrest.listId, hrest.rules, hrest.mode, hrest.invoker⟩

theorem resumes_advance (r : ListRunner) (deltaMs : UInt32) (inCombat : Bool) (g : Rng) :
    r.Resumes (r.advance deltaMs inCombat g).2.1 := by
  unfold advance
  split
  · have htaken := resumes_takeDue (r.rules.size - r.cursor)
      { r with elapsed := addSat r.elapsed deltaMs } g
    exact ⟨htaken.listId, htaken.rules, htaken.mode, htaken.invoker⟩
  · exact .refl r

structure Takes (r : ListRunner) (time : Nat) (due : List Nat) (r' : ListRunner) : Prop where
  steps : due = List.range' r.cursor due.length
  cursor : r'.cursor = r.cursor + due.length
  within : r.cursor ≤ r.rules.size → r'.cursor ≤ r.rules.size
  paced : r'.Paced time
  timely : ∀ k ∈ due, r.rules.leastTime (k + 1) ≤ time

theorem Takes.nothing {r : ListRunner} {time : Nat} (h : r.Paced time) : r.Takes time [] r where
  steps := rfl
  cursor := rfl
  within := id
  paced := h
  timely := fun _ hk => nomatch hk

theorem Takes.trans {r r' r'' : ListRunner} {time time' : Nat} {due due' : List Nat}
    (h : r.Takes time due r') (h' : r'.Takes time' due' r'') (hrules : r'.rules = r.rules)
    (hle : time ≤ time') : r.Takes time' (due ++ due') r'' where
  steps := by
    have hsteps' := h'.steps
    rw [h.cursor] at hsteps'
    rw [List.length_append, ← List.range'_append_1, ← h.steps, ← hsteps']
  cursor := by
    rw [h'.cursor, h.cursor, List.length_append, Nat.add_assoc]
  within hcursor := by
    rw [← hrules]
    apply h'.within
    rw [hrules]
    exact h.within hcursor
  paced := h'.paced
  timely k hk := by
    rcases List.mem_append.mp hk with hk | hk
    · exact Nat.le_trans (h.timely k hk) hle
    · rw [← hrules]
      exact h'.timely k hk

def stepped (r : ListRunner) (g : Rng) : ListRunner :=
  (rollDelay { r with elapsed := r.elapsed - r.nextDelay, cursor := r.cursor + 1 } g).1

theorem Paced.stepped {r : ListRunner} {time : Nat} (h : r.Paced time)
    (hdue : r.nextDelay ≤ r.elapsed) (g : Rng) : (r.stepped g).Paced time := by
  have hle := UInt32.le_iff_toNat_le.mp hdue
  have hspent := h.spent
  have hwaits := h.waits
  constructor
  · change r.rules.leastTime r.cursor + r.rules.leastDelay r.cursor +
      (r.elapsed - r.nextDelay).toNat ≤ time
    rw [UInt32.toNat_sub_of_le _ _ hdue]
    omega
  · exact waits_of_drawn (r := r.stepped g) rfl

theorem takes_takeDue {time : Nat} (steps : Nat) {r : ListRunner} (h : r.Paced time)
    (hsteps : steps ≤ r.rules.size - r.cursor) (g : Rng) :
    r.Takes time (takeDue steps r g).1 (takeDue steps r g).2.1 := by
  induction steps generalizing r g with
  | zero => exact .nothing h
  | succ steps ih =>
    unfold takeDue
    by_cases hearly : r.elapsed < r.nextDelay
    · rw [if_pos hearly]
      exact .nothing h
    · rw [if_neg hearly]
      have hdue : r.nextDelay ≤ r.elapsed := UInt32.not_lt.mp hearly
      have hsize : steps ≤ (r.stepped g).rules.size - (r.stepped g).cursor := by
        change steps ≤ r.rules.size - (r.cursor + 1)
        omega
      have hrest := ih (h.stepped hdue g) hsize
        (rollDelay { r with elapsed := r.elapsed - r.nextDelay, cursor := r.cursor + 1 } g).2
      refine ⟨?_, ?_, ?_, hrest.paced, ?_⟩
      · rw [List.length_cons, List.range'_succ]
        exact congrArg (r.cursor :: ·) hrest.steps
      · rw [List.length_cons, ← Nat.add_assoc, Nat.add_right_comm]
        exact hrest.cursor
      · intro _
        apply hrest.within
        change r.cursor + 1 ≤ r.rules.size
        omega
      · intro k hk
        rcases List.mem_cons.mp hk with rfl | hk
        · have hspent := (h.stepped hdue g).spent
          exact Nat.le_trans (Nat.le_add_right _ _) hspent
        · exact hrest.timely k hk

/-- The milliseconds of a turn that count for a runner: none while it is paused. -/
def credit (r : ListRunner) (deltaMs : UInt32) (inCombat : Bool) : Nat :=
  if r.mode.allows inCombat then deltaMs.toNat else 0

theorem takes_advance {r : ListRunner} {time : Nat} (h : r.Paced time) (deltaMs : UInt32)
    (inCombat : Bool) (g : Rng) :
    r.Takes (time + r.credit deltaMs inCombat) (r.advance deltaMs inCombat g).1
      (r.advance deltaMs inCombat g).2.1 := by
  unfold advance credit
  split
  · have hpaced : ListRunner.Paced { r with elapsed := addSat r.elapsed deltaMs }
        (time + deltaMs.toNat) := by
      refine ⟨?_, h.waits⟩
      have hspent := h.spent
      have hsum := toNat_addSat r.elapsed deltaMs
      change r.rules.leastTime r.cursor + (addSat r.elapsed deltaMs).toNat ≤ _
      omega
    have htakes := takes_takeDue (r.rules.size - r.cursor) hpaced (Nat.le_refl _) g
    exact ⟨htakes.steps, htakes.cursor, htakes.within, htakes.paced, htakes.timely⟩
  · exact .nothing h

end ListRunner

def Incident.stepsOf (id : UInt32) : Incident → List Nat
  | .resumed id' due => if id' = id then due else []
  | _ => []

def stepsOf (id : UInt32) (js : List Incident) : List Nat := js.flatMap (Incident.stepsOf id)

@[simp] theorem stepsOf_nil (id : UInt32) : stepsOf id [] = [] := rfl

@[simp] theorem stepsOf_cons (id : UInt32) (i : Incident) (js : List Incident) :
    stepsOf id (i :: js) = i.stepsOf id ++ stepsOf id js := rfl

@[simp] theorem stepsOf_append (id : UInt32) (js ks : List Incident) :
    stepsOf id (js ++ ks) = stepsOf id js ++ stepsOf id ks := List.flatMap_append

def Unlisted (js : List Incident) : Prop := ∀ id due, Incident.resumed id due ∉ js

theorem Unlisted.nil : Unlisted [] := fun _ _ h => nomatch h

theorem Unlisted.append {js ks : List Incident} (h : Unlisted js) (h' : Unlisted ks) :
    Unlisted (js ++ ks) := by
  intro id due hm
  rcases List.mem_append.mp hm with hm | hm
  · exact h id due hm
  · exact h' id due hm

theorem Unlisted.stepsOf {js : List Incident} (h : Unlisted js) (id : UInt32) :
    stepsOf id js = [] := by
  apply List.flatMap_eq_nil_iff.mpr
  intro i hi
  cases i with
  | resumed id' due => exact absurd hi (h id' due)
  | _ => rfl

theorem Firings.unlisted {js : List Incident} (h : Firings js) : Unlisted js := by
  intro id due hm
  have hi := h _ hm
  cases hi

namespace Script

variable {s : Script} {w : World} {id : UInt32} {r : ListRunner}

theorem unlisted_commitLaw : CommitLaw fun _ _ p => Unlisted p.journal where
  join _ h h' := h.append h'
  aside _ _ := .nil
  heard _ _ _ := by simp [Unlisted]
  react {s x} w signal _ _ := by
    unfold react
    split
    · exact (firings_of_passed (attempts_attempt _ x s w).passed).unlisted
    · exact .nil
  renewed _ _ := by simp [Unlisted]
  settled _ _ := .nil

theorem unlisted_advancePolled (hs : s.Listed) (deltaMs : UInt32) (w : World) :
    Unlisted (s.advancePolled deltaMs w).journal := by
  rw [journal_advancePolled, ← List.singleton_append]
  apply Unlisted.append
  · simp [Unlisted]
  · exact (firings_polls hs s.rules.rules deltaMs _ w).unlisted

theorem unlisted_fireSteps (r : ListRunner) (due : List Nat) (s : Script) (w : World) :
    Unlisted (inTurn (fireStep r) due s w).journal := by
  induction due generalizing s w with
  | nil => exact .nil
  | cons index due ih =>
    rw [inTurn_cons]
    apply Unlisted.append _ (ih _ _)
    unfold fireStep
    split
    · rename_i rule _
      exact (firings_of_passed (fires_fireHead r.rules _ false rule s w).passed).unlisted
    · exact .nil

/-- The turn of a running list in a stretch: it takes the steps that are due, has them fired in
order, and is dropped if it is finished. -/
structure Turn (id : UInt32) (r : ListRunner) (deltaMs : UInt32) (inCombat : Bool) (s : Script)
    (p : Progress) (due : List Nat) (r' : ListRunner) : Prop where
  advanced : ∃ g g', r.advance deltaMs inCombat g = (due, r', g')
  steps : stepsOf id p.journal = due
  lists : p.script.lists[id]? = if r'.isFinished then none else some r'
  fired : ∃ t v before after, s.Keeps t ∧ p.journal =
    before ++ .resumed id due :: ((inTurn (fireStep r') due t v).journal ++ after)

theorem turn_advanceList (hr : s.lists[id]? = some r) (deltaMs : UInt32) (inCombat : Bool)
    (w : World) :
    ∃ due r', Turn id r deltaMs inCombat s (s.advanceList deltaMs inCombat id w) due r' := by
  obtain ⟨due, r', rng, hadvance, hjournal, hlists⟩ := advanceList_eq hr deltaMs inCombat w
  refine ⟨due, r', ⟨s.rng, rng, hadvance⟩, ?_, ?_, ?_⟩
  · rw [hjournal, stepsOf_cons, (unlisted_fireSteps r' due _ w).stepsOf, List.append_nil]
    exact if_pos rfl
  · rw [hlists]
    split
    · exact Std.ExtTreeMap.getElem?_erase_self
    · exact Std.ExtTreeMap.getElem?_insert_self
  · refine ⟨{ s with rng, lists := s.lists.insert id r' }, w, [], [], ⟨rfl, rfl, rfl, rfl⟩, ?_⟩
    rw [List.append_nil, List.nil_append]
    exact hjournal

theorem stepsOf_advanceList_of_ne {id' : UInt32} (hne : id' ≠ id) (deltaMs : UInt32)
    (inCombat : Bool) (s : Script) (w : World) :
    stepsOf id (s.advanceList deltaMs inCombat id' w).journal = [] := by
  cases hr : s.lists[id']? with
  | none =>
    unfold advanceList
    rw [hr]
    rfl
  | some r =>
    obtain ⟨due, r', rng, -, hjournal, -⟩ := advanceList_eq hr deltaMs inCombat w
    rw [hjournal, stepsOf_cons, (unlisted_fireSteps r' due _ w).stepsOf, List.append_nil]
    exact if_neg hne

theorem keeps_advanceLists (s : Script) (deltaMs : UInt32) (inCombat : Bool) (ids : List UInt32)
    (hs : s.Listed) (w : World) : Walks Lasts s w (inTurn (advanceList deltaMs inCombat) ids s w) :=
  lasts_listLaw.walks_inTurn hs fun id _ _ _ _ hl =>
    lasts_listLaw.walks_advanceList hl deltaMs inCombat id

theorem turns_of_not_mem {ids : List UInt32} (hid : id ∉ ids) (deltaMs : UInt32)
    (inCombat : Bool) (s : Script) (w : World) :
    (inTurn (advanceList deltaMs inCombat) ids s w).script.lists[id]? = s.lists[id]? ∧
      stepsOf id (inTurn (advanceList deltaMs inCombat) ids s w).journal = [] := by
  induction ids generalizing s w with
  | nil => exact ⟨rfl, rfl⟩
  | cons id' ids ih =>
    rw [List.mem_cons, not_or] at hid
    obtain ⟨hlists, hsteps⟩ := ih hid.2 (s.advanceList deltaMs inCombat id' w).script
      (s.advanceList deltaMs inCombat id' w).world
    rw [inTurn_cons, Progress.script_andThen, Progress.journal_andThen, hlists, stepsOf_append,
      hsteps, stepsOf_advanceList_of_ne (Ne.symm hid.1)]
    exact ⟨lists_advanceList_of_ne (Ne.symm hid.1) deltaMs inCombat s w, rfl⟩

/-- Every running list takes its turn once. -/
theorem turn_advanceLists (hs : s.Listed) (hr : s.lists[id]? = some r) (deltaMs : UInt32)
    (w : World) :
    ∃ due r', Turn id r deltaMs (w.inCombat s.owner) s (s.advanceLists deltaMs w) due r' := by
  have hmem : id ∈ s.lists.keys := by
    rw [Std.ExtTreeMap.mem_keys, Std.ExtTreeMap.mem_iff_isSome_getElem?, hr]
    rfl
  obtain ⟨front, back, hkeys⟩ := List.append_of_mem hmem
  have hnodup : (front ++ id :: back).Nodup := hkeys ▸ Std.ExtTreeMap.nodup_keys
  have hmiddle := List.nodup_middle.mp hnodup
  have hother := (List.nodup_cons.mp hmiddle).1
  rw [List.mem_append, not_or] at hother
  unfold advanceLists
  rw [hkeys, inTurn_middle]
  generalize w.inCombat s.owner = inCombat
  obtain ⟨hbefore, hsilent⟩ := turns_of_not_mem hother.1 deltaMs inCombat s w
  have hkeeps := (keeps_advanceLists s deltaMs inCombat front hs w).keeps
  generalize inTurn (advanceList deltaMs inCombat) front s w = p at hbefore hsilent hkeeps ⊢
  rw [hr] at hbefore
  obtain ⟨due, r', hturn⟩ := turn_advanceList hbefore deltaMs inCombat p.world
  have hlater := turns_of_not_mem hother.2 deltaMs inCombat
  refine ⟨due, r', hturn.advanced, ?_, ?_, ?_⟩
  · rw [Progress.journal_andThen, Progress.journal_andThen, stepsOf_append, stepsOf_append,
      hsilent, (hlater _ _).2, hturn.steps, List.append_nil, List.nil_append]
  · rw [Progress.script_andThen, Progress.script_andThen, (hlater _ _).1, hturn.lists]
  · obtain ⟨t, v, before, after, ht, hjournal⟩ := hturn.fired
    rw [Progress.journal_andThen, Progress.journal_andThen, hjournal]
    generalize (inTurn (advanceList deltaMs inCombat) back _ _).journal = rest
    refine ⟨t, v, p.journal ++ before, after ++ rest, hkeeps.trans ht, ?_⟩
    simp only [List.append_assoc, List.cons_append]

theorem no_turn_advanceLists (hnone : s.lists[id]? = none) (deltaMs : UInt32) (w : World) :
    (s.advanceLists deltaMs w).script.lists[id]? = none ∧
      stepsOf id (s.advanceLists deltaMs w).journal = [] := by
  have hmem : id ∉ s.lists.keys := by
    rw [Std.ExtTreeMap.mem_keys, Std.ExtTreeMap.mem_iff_isSome_getElem?, hnone]
    exact Bool.false_ne_true
  rw [← hnone]
  exact turns_of_not_mem hmem deltaMs _ s w

theorem size_advanceList_le (deltaMs : UInt32) (inCombat : Bool) (id : UInt32) (s : Script)
    (w : World) : (s.advanceList deltaMs inCombat id w).script.lists.size ≤ s.lists.size := by
  cases hr : s.lists[id]? with
  | none =>
    apply Nat.le_of_eq
    unfold advanceList
    rw [hr]
  | some r =>
    obtain ⟨due, r', rng, -, -, hlists⟩ := advanceList_eq hr deltaMs inCombat w
    have hcontains : s.lists.contains id = true := by
      rw [Std.ExtTreeMap.contains_eq_isSome_getElem?, hr]
      rfl
    have hinsert : (s.lists.insert id r').size = s.lists.size := by
      rw [Std.ExtTreeMap.size_insert, if_pos hcontains]
    rw [hlists, ← hinsert]
    split
    · exact Std.ExtTreeMap.size_erase_le
    · exact Nat.le_refl _

theorem size_advanceLists_le (deltaMs : UInt32) (s : Script) (w : World) :
    (s.advanceLists deltaMs w).script.lists.size ≤ s.lists.size := by
  unfold advanceLists
  generalize s.lists.keys = ids, w.inCombat s.owner = inCombat
  induction ids generalizing s w with
  | nil => exact Nat.le_refl _
  | cons id ids ih =>
    rw [inTurn_cons, Progress.script_andThen]
    exact Nat.le_trans (ih _ _) (size_advanceList_le deltaMs inCombat id s w)

end Script

end TriggerScript
