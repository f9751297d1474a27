import TriggerScript.Proofs.Building
import TriggerScript.Proofs.Marks
import TriggerScript.Proofs.Timers

/-!
# Rules that fire only once

A once-only rule does not fire while it is marked. The mark is read off the journal, so that no
history of calls fires the rule twice without a reset between.
-/

namespace TriggerScript

/-- Whether an incident is a record of the rule, as link and number tell. -/
def Rule.isRecorded (r : Rule) (i : Incident) : Bool :=
  i.record?.any fun f => decide (f.link = r.link ∧ f.ruleId = r.id)

/-- The mark of a once-only rule after an incident; a marked rule has no further record. -/
def Rule.markAfter? (r : Rule) (marked : Bool) (i : Incident) : Option Bool :=
  if r.isRecorded i then (if marked then none else some true)
  else if i = .reset && !r.survivesReset then some false
  else some marked

section

variable {r : Rule} {i : Incident}

theorem Rule.markAfter?_of_record (h : r.isRecorded i = true) :
    r.markAfter? false i = some true := by
  unfold markAfter?
  rw [if_pos h, if_neg Bool.false_ne_true]

theorem Rule.markAfter?_reset (r : Rule) (marked : Bool) :
    r.markAfter? marked .reset = some (marked && r.survivesReset) := by
  unfold markAfter? isRecorded
  cases marked <;> cases r.survivesReset <;> rfl

theorem Rule.markAfter?_of_other (hrecord : r.isRecorded i = false) (hreset : i ≠ .reset)
    (marked : Bool) : r.markAfter? marked i = some marked := by
  unfold markAfter?
  rw [hrecord, decide_eq_false hreset]
  rfl

/-- As long as a mark lasts, there is one record of the rule at most. -/
theorem Rule.count_le_of_marks {js : List Incident} {marked marked' : Bool}
    (h : js.foldlM r.markAfter? marked = some marked') (hcalm : r.Calm js) :
    js.countP r.isRecorded + marked.toNat ≤ marked'.toNat := by
  -- Along the journal: a record sets the mark, and only a reset takes it away.
  induction js generalizing marked with
  | nil =>
    cases h
    simp
  | cons i js ih =>
    rw [List.foldlM_cons] at h
    obtain ⟨between, hi, hjs⟩ := Option.bind_eq_some_iff.mp h
    have hle := ih hjs hcalm.tail
    rw [List.countP_cons]
    cases hrecord : r.isRecorded i with
    | true =>
      cases marked with
      | true =>
        rw [markAfter?, if_pos hrecord, if_pos rfl] at hi
        cases hi
      | false =>
        rw [markAfter?_of_record hrecord] at hi
        cases hi
        simpa using hle
    | false =>
      have hkept : between = marked := by
        by_cases hreset : i = .reset
        · rcases hcalm with hsurvives | hno
          · rw [hreset, markAfter?_reset, hsurvives, Bool.and_true] at hi
            exact (Option.some.inj hi).symm
          · rw [hreset] at hno
            exact absurd List.mem_cons_self hno
        · rw [markAfter?_of_other hrecord hreset] at hi
          exact (Option.some.inj hi).symm
      rw [hkept] at hle
      simpa using hle

/-- In a journal that the marks follow, a rule is recorded once at most in any stretch without a
reset of its mark. -/
theorem Rule.count_le_one_of_marks {js l : List Incident} {marked marked' : Bool}
    (h : js.foldlM r.markAfter? marked = some marked') (hl : l <:+: js) (hcalm : r.Calm l) :
    l.countP r.isRecorded ≤ 1 := by
  obtain ⟨before, after, rfl⟩ := hl
  rw [List.foldlM_append, List.foldlM_append] at h
  obtain ⟨m', hm', -⟩ := Option.bind_eq_some_iff.mp h
  obtain ⟨m, -, hm⟩ := Option.bind_eq_some_iff.mp hm'
  have hle := count_le_of_marks hm hcalm
  have hone := Bool.toNat_le m'
  omega

end

namespace Script

variable {r : Rule}

structure OnceOnly (r : Rule) (s : Script) : Prop where
  mem : r ∈ s.rules.rules
  unrepeatable : r.isRepeatable = false
  distinct : (s.rules.rules.map (·.id)).Nodup
  apart : s.Apart
  unlisted : ∀ id set, s.store.timedList? id = some set → ∀ x ∈ set.rules, x.link ≠ r.link

theorem OnceOnly.of_keeps {s t : Script} (h : OnceOnly r s) (hk : s.Keeps t) : OnceOnly r t where
  mem := hk.rules ▸ h.mem
  unrepeatable := h.unrepeatable
  distinct := hk.rules ▸ h.distinct
  apart := h.apart.of_keeps hk
  unlisted := hk.store ▸ h.unlisted

/-- The marks of a rule after a stretch are as its journal tells. -/
def MarksFollow (r : Rule) (s : Script) (p : Progress) : Prop :=
  p.journal.foldlM r.markAfter? (s.isMarked r) = some (p.script.isMarked r)

theorem MarksFollow.join {s : Script} {p : Progress} {stage : Script → World → Progress}
    (h : MarksFollow r s p) (h' : MarksFollow r p.script (stage p.script p.world)) :
    MarksFollow r s (p.andThen stage) := by
  unfold MarksFollow at h h' ⊢
  rw [Progress.journal_andThen, List.foldlM_append, h]
  exact h'

theorem marksFollow_note {s t : Script} {i : Incident} (w : World)
    (h : r.markAfter? (s.isMarked r) i = some (t.isMarked r)) :
    MarksFollow r s { script := t, world := w, journal := [i] } := by
  unfold MarksFollow
  rw [List.foldlM_cons, h]
  rfl

theorem marksFollow_shoot {s : Script} (h : OnceOnly r s) {set : RuleSet} {forced : Bool}
    {rule : Rule} {w : World} (o : Occasion) (depth : Nat) (hset : s.Uses set)
    (hr : rule ∈ set.rules) (hthrough : s.LetsThrough w set forced rule) :
    MarksFollow r s (shoot set o depth forced rule s w) := by
  obtain ⟨n, hjournal⟩ := journal_shoot set o depth forced rule s w
  have hrecorded : r.isRecorded (.fired rule depth n) =
      decide (rule.link = r.link ∧ rule.id = r.id) := rfl
  unfold MarksFollow isMarked
  rw [hjournal, marks_shoot, List.foldlM_cons]
  rcases hset with rfl | ⟨id, hid⟩
  · by_cases hrule : rule = r
    · have hunmarked : s.state.firedOnce.contains r.id = false := by
        have hunspent := (isVetoed_eq_false_iff.mp hthrough.unvetoed).2.1
        rw [isSpent, owns_rules, hrule, h.unrepeatable] at hunspent
        exact hunspent
      have hrecord : r.isRecorded (.fired rule depth n) = true := by
        rw [hrecorded, hrule]
        simp
      rw [hunmarked, Rule.markAfter?_of_record hrecord, owns_rules, hrule, h.unrepeatable]
      simp
    · have hid : rule.id ≠ r.id := fun hid =>
        hrule (List.inj_on_of_nodup_map h.distinct hr h.mem hid)
      rw [Rule.markAfter?_of_other (by simp [hrecorded, hid]) (by simp)]
      split
      · simp [hid]
      · rfl
  · have hlink := h.unlisted id set hid rule hr
    rw [Rule.markAfter?_of_other (by simp [hrecorded, hlink]) (by simp), h.apart id set hid]
    rfl

theorem marksFollow_lifeLaw : LifeLaw fun s _ p => OnceOnly r s → MarksFollow r s p where
  join hk h h' := fun ho => (h ho).join (h' (ho.of_keeps hk))
  aside w h := by
    intro _
    unfold MarksFollow isMarked
    rw [h]
    rfl
  shot w o depth hset hr _ hthrough := fun ho => marksFollow_shoot ho o depth hset hr hthrough
  timed s w rng timers := fun _ => rfl
  noted s w hi hreset _ := by
    intro _
    apply marksFollow_note
    apply Rule.markAfter?_of_other _ hreset
    unfold Rule.isRecorded
    rw [hi]
    rfl
  taken s w := fun _ => rfl
  renewed s w := by
    intro ho
    apply marksFollow_note
    rw [isMarked_resetState ho.distinct ho.mem, Rule.markAfter?_reset]
  settled s w := by
    intro _
    have hmarks : s.commitState.isMarked r = s.isMarked r := by
      unfold isMarked
      rw [(lasts_commitState s).firedOnce]
    exact congrArg some hmarks.symm
  retired s w := fun _ => rfl

theorem marksFollow_calls {s : Script} (hs : s.Sound) (h : OnceOnly r s) (cs : List Call) :
    (s.calls cs).2.foldlM r.markAfter? (s.isMarked r) = some ((s.calls cs).1.isMarked r) := by
  induction cs generalizing s with
  | nil => rfl
  | cons c cs ih =>
    have hcall := marksFollow_lifeLaw.operate hs.listed c.world c.op h
    obtain ⟨hkeeps, hsound⟩ := sound_operate hs c.world c.op
    change ((s.operate c.world c.op).journal ++
      ((s.operate c.world c.op).script.calls cs).2).foldlM _ _ = _
    rw [List.foldlM_append, hcall]
    exact ih hsound (h.of_keeps hkeeps)

theorem apart_of_built {tables : List Table} {s : Script}
    (hstore : s.store = (Store.build tables).1)
    (hlink : s.rules.link.sourceType ≠ .timedActionList) : s.Apart := by
  intro id set hset
  rw [hstore] at hset
  have hother : set.link ≠ s.rules.link := by
    rw [(Store.built_of_find? hset).link]
    intro heq
    rw [← heq] at hlink
    exact hlink rfl
  unfold owns
  simp [hother]

theorem onceOnly_of_built {tables : List Table} {s : Script}
    (hstore : s.store = (Store.build tables).1)
    (hown : s.store.find? s.rules.link = some s.rules)
    (hlink : s.rules.link.sourceType ≠ .timedActionList) (hr : r ∈ s.rules.rules)
    (honce : r.isRepeatable = false) : OnceOnly r s := by
  have hapart := apart_of_built hstore hlink
  have hbuilt : s.rules.Built s.rules.link := Store.built_of_find? (hstore ▸ hown)
  refine ⟨hr, honce, hbuilt.distinct, hapart, ?_⟩
  intro id set hset x hx heq
  rw [hstore] at hset
  rw [(Store.built_of_find? hset).owned x hx, hbuilt.owned r hr] at heq
  rw [← heq] at hlink
  exact hlink rfl

/-- Between two resets a once-only rule is recorded once at most, and only once at all if it
survives resets; the steps of timed action lists neither heed the marks nor leave any. -/
theorem once_only_rules_fire_once {s : Script} (hs : s.Reachable) {tables : List Table}
    (hstore : s.store = (Store.build tables).1)
    (hown : s.store.find? s.rules.link = some s.rules)
    (hlink : s.rules.link.sourceType ≠ .timedActionList) :
    (∀ r ∈ s.rules.rules, r.isRepeatable = false → ∀ cs : List Call,
      (∀ l, l <:+: (s.calls cs).2 → .reset ∉ l → l.countP r.isRecorded ≤ 1) ∧
      (r.survivesReset = true → (s.calls cs).2.countP r.isRecorded ≤ 1)) ∧
    ∀ t, s.Keeps t → t.Listed → ∀ marks deltaMs w,
      (t.withMarks marks).advanceLists deltaMs w =
        (t.advanceLists deltaMs w).withMarks marks := by
  constructor
  · intro r hr honce cs
    have hmarks := marksFollow_calls hs.sound (onceOnly_of_built hstore hown hlink hr honce) cs
    constructor
    · intro l hl hreset
      exact Rule.count_le_one_of_marks hmarks hl (.inr hreset)
    · intro hsurvives
      exact Rule.count_le_one_of_marks hmarks List.infix_rfl (.inl hsurvives)
  · intro t hkeeps hlisted marks deltaMs w
    exact advanceLists_withMarks marks hlisted ((apart_of_built hstore hlink).of_keeps hkeeps)
      deltaMs w

private def onceTables : List Table :=
  [.single 100 0 4 fun row =>
      { row with
        flags := some 1, actionKind := 80, actionParams := row.actionParams.setIfInBounds 0 50 },
    .single 50 9 60 fun row => { row with flags := some 1 }]

private def onceSet : RuleSet := ((Store.build onceTables).1.find? (.creature 100)).getD default

private def once : Rule := onceSet.rules.headD default

private def starter : Script := create 1 onceSet (Store.build onceTables).1 {}

private def lonely : World := (World.empty.spawn .creature 100 .origin).2

private def aggros : List Call :=
  .replicate 2 { world := lonely, op := .advance 0 (some (.aggro 2)) }

private def resetThenForce : List Call :=
  [{ world := lonely, op := .reset }, { world := lonely, op := .forceFire 1 }]

/-- A rule that starts a list fires at the first of two signals, and once more after a reset. The
step of the list has the number of the rule and is a once-only one, too. -/
theorem once_until_reset :
    starter.Reachable ∧ starter.store.find? starter.rules.link = some starter.rules ∧
      starter.rules.link.sourceType ≠ .timedActionList ∧ once ∈ starter.rules.rules ∧
      once.isRepeatable = false ∧ Incident.reset ∉ (starter.calls aggros).2 ∧
      (starter.calls aggros).2.countP once.isRecorded ≤ 1 ∧
      (starter.calls (aggros ++ resetThenForce)).2.countP once.isRecorded = 2 ∧
      ∀ marks, ((starter.calls (aggros.take 1)).1.withMarks marks).advanceLists 0 lonely =
        ((starter.calls (aggros.take 1)).1.advanceLists 0 lonely).withMarks marks := by
  have hreach : starter.Reachable := .fresh 1 onceSet _ {} _
  have hlink : starter.rules.link.sourceType ≠ .timedActionList := by decide +kernel
  have hmem : once ∈ starter.rules.rules := by decide +kernel
  have hreset : Incident.reset ∉ (starter.calls aggros).2 := by decide +kernel
  obtain ⟨hfires, hlists⟩ := once_only_rules_fire_once hreach rfl rfl hlink
  have hcount := (hfires once hmem rfl aggros).1 _ List.infix_rfl hreset
  obtain ⟨hkeeps, hsound⟩ := hreach.sound.calls (aggros.take 1)
  exact ⟨hreach, rfl, hlink, hmem, rfl, hreset, hcount, by decide +kernel,
    fun marks => hlists _ hkeeps hsound.listed marks 0 lonely⟩

end Script

end TriggerScript
