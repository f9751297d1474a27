import TriggerScript.Proofs.Readiness
import TriggerScript.Proofs.Triggers

/-!
# Cooldowns of polled rules

A polled rule fires in its turn alone, once in a pass at most. Its cooldown counts the time of the
passes in which its gates were open when the own rules took their turns. An update rule that
nothing can veto fires as soon as its timer is due.
-/

namespace TriggerScript

theorem Rule.Counts.append {r : Rule} {js ks : List Incident} (h : r.Counts ks)
    (hk : ¬Unpolled ks) : r.Counts (js ++ ks) := by
  intro hlink x id due y hsplit
  rcases split_append hsplit with ⟨after', -, rfl⟩ | ⟨before', -, hks⟩
  · intro hu
    exact hk hu.right
  · exact h hlink before' id due y hks

namespace Script

variable {r : Rule}

theorem skip_silent {js ks before after : List Incident} {n : Nat}
    (hjs : ∀ m, Incident.fired r 0 m ∉ js) (hsplit : js ++ ks = before ++ .fired r 0 n :: after) :
    ∃ before', before = js ++ before' ∧ ks = before' ++ .fired r 0 n :: after := by
  rcases split_append hsplit with ⟨after', hj, -⟩ | h
  · exact absurd (mem_of_split hj) (hjs n)
  · exact h

theorem poll_of_fired {deltaMs : UInt32} {inCombat : Bool} {s : Script} {w : World}
    {before after : List Incident} {n : Nat}
    (hsplit : (s.poll deltaMs inCombat r w).journal = before ++ .fired r 0 n :: after) :
    before = [] ∧ ∃ o, (s.tickTimer deltaMs r).outcome o r w = .fired ∧
      s.poll deltaMs inCombat r w = (s.tickTimer deltaMs r).attempt o r w := by
  have hnot : [] ≠ before ++ Incident.fired r 0 n :: after := by simp
  rcases poll_cases deltaMs inCombat r s w with h | ⟨-, h | ⟨-, o, h⟩⟩
  · rw [h] at hsplit
    exact absurd hsplit hnot
  · rw [h] at hsplit
    exact absurd hsplit hnot
  · rw [h] at hsplit
    have hattempt := attempts_attempt o r (s.tickTimer deltaMs r) w
    have ho : (s.tickTimer deltaMs r).outcome o r w = .fired := by
      by_cases ho : (s.tickTimer deltaMs r).outcome o r w = .fired
      · exact ho
      · rw [hattempt.silent ho] at hsplit
        exact absurd hsplit hnot
    exact ⟨(split_firing (hattempt.journal ho) hsplit).1, o, ho, h⟩

/-- What a pass means for a polled rule: its turn, and nothing before and after. -/
structure Share (r : Rule) (s : Script) (a : Pass) (front : List Incident) (t : Script) (v : World)
    (inCombat : Bool) (back : List Incident) : Prop where
  keeps : s.Keeps t
  journal : (s.pass a).journal = front ++ ((t.poll a.deltaMs inCombat r v).journal ++ back)
  timerBefore : r.Calm front → t.timer? r = s.timer? r
  timerAfter : r.Calm back →
    (s.pass a).script.timer? r = (t.poll a.deltaMs inCombat r v).script.timer? r
  creditBefore : r.clocked front = r.credit (.polled a.deltaMs t.state.phase inCombat)
  creditAfter : r.clocked back = 0
  world : a.world.Becomes v
  worldAfter : (t.poll a.deltaMs inCombat r v).world.Becomes (s.pass a).world
  polled : ¬Unpolled front
  counts : r.Counts front
  place : ∀ before n after, (s.pass a).journal = before ++ .fired r 0 n :: after →
    r.Counts before → before = front ∧ ∃ linked,
      (t.poll a.deltaMs inCombat r v).journal = .fired r 0 n :: linked ∧ after = linked ++ back

theorem counts_of_firings {js ks : List Incident} {deltaMs : UInt32} {phase : PhaseMask}
    {inCombat : Bool} (h : Firings ks) : r.Counts (js ++ .polled deltaMs phase inCombat :: ks) := by
  apply Rule.Counts.append
  · intro _ x id due y hsplit
    cases x with
    | nil => simp at hsplit
    | cons i x =>
      rw [List.cons_append, List.cons.injEq] at hsplit
      have hi := h (.resumed id due) (hsplit.2 ▸ List.mem_append_right _ List.mem_cons_self)
      cases hi
  · intro hu
    exact hu _ _ _ List.mem_cons_self

/-- In the stages of a pass a record that counts can only be the head of the turn. -/
theorem place_of_record {front turn later listed committed before after : List Incident} {n : Nat}
    (hfront : ∀ m, Incident.fired r 0 m ∉ front)
    (hturn : ∀ {x m y}, turn = x ++ .fired r 0 m :: y → x = [])
    (hlater : ∀ m, Incident.fired r 0 m ∉ later)
    (hlisted : ∀ {x m y}, listed = x ++ .fired r 0 m :: y → ¬r.Counts x)
    (hcommitted : ∀ m, Incident.fired r 0 m ∉ committed)
    (hsplit : front ++ (turn ++ (later ++ (listed ++ committed))) = before ++ .fired r 0 n :: after)
    (hcounts : r.Counts before) :
    before = front ∧ ∃ linked, turn = .fired r 0 n :: linked ∧
      after = linked ++ (later ++ (listed ++ committed)) := by
  obtain ⟨inner, rfl, hrest⟩ := skip_silent hfront hsplit
  rcases split_append hrest with ⟨linked, hj, hafter⟩ | ⟨inner', rfl, hrest'⟩
  · obtain rfl := hturn hj
    rw [List.append_nil]
    exact ⟨rfl, linked, hj, hafter⟩
  · obtain ⟨last, rfl, hlast⟩ := skip_silent hlater hrest'
    rcases split_append hlast with ⟨after', hj, -⟩ | ⟨before', -, hj⟩
    · exact absurd hcounts.suffix.suffix.suffix (hlisted hj)
    · exact absurd (mem_of_split hj) (hcommitted n)

section Course

variable {s : Script} {a : Pass} {heard polled listed committed : Progress}

theorem Course.still (h : Course s a heard polled listed committed) (hp : r.isPolled = true)
    (ht : Timed r s) (hs : s.Sound) : Still r s.taken heard ∧ Still r listed.script committed := by
  have htaken := ht.of_keeps (keeps_taken s)
  have htl := ((htaken.of_keeps h.afterHearing.keeps).of_keeps h.afterPolling.keeps).of_keeps
    h.afterLists.keeps
  constructor
  · rw [h.hear]
    exact ((still_commitLaw hp).walks_hear hs.listed a.deltaMs a.signal).law htaken
  · rw [h.commit]
    exact ((still_commitLaw hp).walks_commit h.afterLists.listed).law htl

theorem Course.lists (h : Course s a heard polled listed committed) (ht : Timed r s) :
    listed.script.timer? r = polled.script.timer? r ∧ r.clocked listed.journal = 0 ∧
      ∀ {x m y}, listed.journal = x ++ .fired r 0 m :: y → ¬r.Counts x := by
  have htp := ((ht.of_keeps (keeps_taken s)).of_keeps h.afterHearing.keeps).of_keeps
    h.afterPolling.keeps
  have hl := h.afterPolling.listed
  rw [h.list]
  refine ⟨(untimed_listLaw.walks_advanceLists hl a.deltaMs).law,
    (unpolled_listLaw.walks_advanceLists hl a.deltaMs).law.clocked r, ?_⟩
  intro x m y hj
  exact not_counts_advanceLists htp hl a.deltaMs polled.world hj

end Course

theorem share_pass (hp : r.isPolled = true) {s : Script} (ht : Timed r s) (hs : s.Sound)
    (hd : s.despawned = false) {a : Pass} (hsig : a.signal ≠ some .despawn) :
    ∃ front t v inCombat back, Share r s a front t v inCombat back := by
  obtain ⟨heard, polled, listed, committed, hc⟩ := course_pass hs hd hsig
  obtain ⟨hheard, hcommitted⟩ := hc.still hp ht hs
  obtain ⟨htimer, hunclocked, hlisted⟩ := hc.lists ht
  have htp := (ht.of_keeps (keeps_taken s)).of_keeps hc.afterHearing.keeps
  -- The turns of the own rules are those before the turn of the rule, its own, and those after it.
  obtain ⟨p, turn, q, h⟩ := around_turn htp hc.afterHearing.listed a.deltaMs heard.world
  have hwhole := h.whole
  rw [← hc.poll] at hwhole
  have hscript : polled.script = q.script := by rw [hwhole]
  have hworld : polled.world = q.world := by rw [hwhole]
  have hjournal : (s.pass a).journal =
      (heard.journal ++ .polled a.deltaMs heard.script.state.phase
        (heard.world.inCombat heard.script.owner) :: p.journal) ++
      (turn.journal ++ (q.journal ++ (listed.journal ++ committed.journal))) := by
    rw [hc.journal, hwhole]
    simp
  refine ⟨_, p.script, p.world, heard.world.inCombat heard.script.owner, _, ?_, h.taken ▸ hjournal,
    ?_, ?_, ?_, ?_, ?_, ?_, ?_, counts_of_firings h.firings, ?_⟩
  · exact ((keeps_taken s).trans hc.afterHearing.keeps).trans h.before.toKeeps
  · intro hcalm
    obtain ⟨hcalm, hcalm'⟩ := Rule.calm_append.mp hcalm
    rw [h.spared.timer hcalm'.tail, hheard.timer hcalm]
    rfl
  · intro hcalm
    obtain ⟨hcalm, hcalm'⟩ := Rule.calm_append.mp hcalm
    rw [hc.script, hcommitted.timer (Rule.calm_append.mp hcalm').2, htimer, hscript,
      h.sparedAfter.timer hcalm, h.taken]
  · rw [Rule.clocked_append, Rule.clocked_cons, hheard.unclocked, h.spared.unclocked,
      h.before.phase, Nat.zero_add, Nat.add_zero]
  · rw [Rule.clocked_append, Rule.clocked_append, h.sparedAfter.unclocked, hunclocked,
      hcommitted.unclocked]
  · exact hc.afterHearing.law.world.trans h.lasts.world
  · have hafter := h.lastsAfter.world
    rw [← hworld] at hafter
    rw [← h.taken, hc.world]
    exact (hafter.trans hc.afterLists.law.world).trans hc.afterCommit.law.world
  · intro hu
    exact hu _ _ _ (List.mem_append_right _ List.mem_cons_self)
  · intro before n after hsplit hcounts
    have hfront : ∀ m, Incident.fired r 0 m ∉ heard.journal ++ .polled a.deltaMs
        heard.script.state.phase (heard.world.inCombat heard.script.owner) :: p.journal := by
      simp [hheard.silent, h.spared.silent]
    have hturn : ∀ {x m y}, turn.journal = x ++ .fired r 0 m :: y → x = [] := by
      intro x m y hj
      rw [h.taken] at hj
      exact (poll_of_fired hj).1
    rw [hjournal] at hsplit
    rw [← h.taken]
    exact place_of_record hfront hturn h.sparedAfter.silent hlisted hcommitted.silent hsplit
      hcounts

theorem silent_despawn (hp : r.isPolled = true) {s : Script} (ht : Timed r s) (hs : s.Listed)
    (w : World) (n : Nat) : Incident.fired r 0 n ∉ (s.despawn w).journal := by
  unfold despawn
  split
  · exact List.not_mem_nil
  · intro hn
    have htold := ((still_commitLaw hp).walks_handleSignal (w := w) hs .despawn).law ht
    rcases List.mem_append.mp hn with hn | hn
    · exact htold.silent n hn
    · simp [retire] at hn

theorem ordinary_of_fired (hp : r.isPolled = true) {s : Script} (ht : Timed r s) (hs : s.Sound)
    {a : Pass} {n : Nat} (h : Incident.fired r 0 n ∈ (s.pass a).journal) :
    s.despawned = false ∧ a.signal ≠ some .despawn := by
  unfold pass at h
  cases hd : s.despawned with
  | true =>
    rw [advance_of_despawned hd] at h
    cases h
  | false =>
    refine ⟨rfl, ?_⟩
    intro hsig
    rw [hsig, advance_despawn hd] at h
    have htold := (still_commitLaw hp).walks_handleDeferred (w := a.world) hs.listed
    have htaken := ht.of_keeps (keeps_taken s)
    rcases List.mem_append.mp h with h | h
    · exact (htold.law htaken).silent n h
    · exact silent_despawn hp (htaken.of_keeps htold.keeps) htold.listed _ n h

theorem share_of_fired (hp : r.isPolled = true) {s : Script} (ht : Timed r s) (hs : s.Sound)
    {a : Pass} {n : Nat} (h : Incident.fired r 0 n ∈ (s.pass a).journal) :
    s.despawned = false ∧ ∃ front t v inCombat back, Share r s a front t v inCombat back := by
  obtain ⟨hd, hsig⟩ := ordinary_of_fired hp ht hs h
  exact ⟨hd, share_pass hp ht hs hd hsig⟩

/-- A polled rule does not fire twice in a pass, except as a step of a list. -/
theorem fired_once (hp : r.isPolled = true) {s : Script} (ht : Timed r s) (hs : s.Sound) (a : Pass)
    {x l y : List Incident} {n m : Nat}
    (hsplit : (s.pass a).journal = x ++ .fired r 0 n :: (l ++ .fired r 0 m :: y))
    (hx : r.Counts x) : ¬r.Counts (x ++ .fired r 0 n :: l) := by
  intro hcounts
  obtain ⟨-, front, t, v, inCombat, back, h⟩ := share_of_fired hp ht hs (mem_of_split hsplit)
  have hfirst := (h.place x n _ hsplit hx).1
  have hsecond := (h.place (x ++ .fired r 0 n :: l) m y (by rw [hsplit]; simp) hcounts).1
  rw [← hfirst] at hsecond
  have hlength := congrArg List.length hsecond
  simp at hlength

/-- The timer of a rule counts to a moment within its repeat interval, and is not there yet. -/
def Waiting (r : Rule) (ms : Nat) (s : Script) : Prop :=
  ∃ d, Counting r d ms s ∧ d ≤ r.spec.cooldownMax ∧ ms < r.spec.cooldownMax.toNat

theorem Waiting.of_timer {s t : Script} {ms : Nat} (h : Waiting r ms s)
    (ht : t.timer? r = s.timer? r) : Waiting r ms t := by
  obtain ⟨d, hd, hrest⟩ := h
  exact ⟨d, hd.of_timer ht, hrest⟩

theorem Waiting.tick {s : Script} {ms : Nat} (h : Waiting r ms s) (deltaMs : UInt32)
    (hdue : ¬(s.tickTimer deltaMs r).state.timers[r.id]?.any (·.isDue) = true) :
    Waiting r (ms + deltaMs.toNat) (s.tickTimer deltaMs r) := by
  obtain ⟨d, hd, hmax, -⟩ := h
  have hticked := hd.tick deltaMs
  obtain ⟨t, htimer, hiff⟩ := hticked.isDue_iff
  rw [htimer, Option.any_some, hiff, Nat.not_le] at hdue
  exact ⟨d, hticked, hmax, Nat.lt_of_lt_of_le hdue (UInt32.le_iff_toNat_le.mp hmax)⟩

theorem waiting_of_fired {s : Script} (ht : Timed r s) (hmax : r.spec.cooldownMax ≠ 0)
    {o : Occasion} {w : World} (ho : s.outcome o r w = .fired) :
    Waiting r 0 (s.attempt o r w).script := by
  obtain ⟨d, -, hle, hd⟩ := counting_attempt ht ho fun _ => hmax
  have hne : r.spec.cooldownMax.toNat ≠ 0 := fun h => hmax (UInt32.toNat_inj.mp h)
  exact ⟨d, hd, hle, Nat.pos_of_ne_zero hne⟩

structure Prompt (r : Rule) : Prop where
  update : r.event.isUpdate = true
  plain : r.flags = .none
  certain : 100 ≤ r.spec.chance

def Free (owner : Handle) (w : World) : Prop := w.exists? owner = true ∧ w.charmed owner = false

theorem Prompt.holds (h : Prompt r) {owner : Handle} {w : World} (hw : w.exists? owner = true) :
    ∃ hit, w.holds? owner r.event = some hit :=
  ⟨_, Event.holds?_of_isUpdate h.update hw⟩

theorem Prompt.outcome (h : Prompt r) {s : Script} {w : World} (o : Occasion)
    (hphase : r.spec.phase.allows s.state.phase = true) (hw : Free s.owner w) :
    s.outcome o r w = .fired := by
  apply fire_of_certain h.certain
  have hrepeatable : r.isRepeatable = true := by
    unfold Rule.isRepeatable
    rw [h.plain]
    rfl
  have hclear : s.Clears w r := by
    constructor
    · rw [h.plain]
      rfl
    · rw [h.plain]
      exact fun hdebug => absurd hdebug (by decide)
    · rw [hw.2]
      exact nofun
  exact isVetoed_eq_false_iff.mpr ⟨hphase, by simp [isSpent, hrepeatable], hclear⟩

def Along (P : Script → Pass → Prop) (s : Script) : List Pass → Prop
  | [] => True
  | a :: as => P s a ∧ Along P (s.pass a).script as

def Unfired (r : Rule) (s : Script) (a : Pass) : Prop :=
  ∀ before n after, (s.pass a).journal = before ++ .fired r 0 n :: after → ¬r.Counts before

def FreeIn (s : Script) (a : Pass) : Prop :=
  World.Throughout (Free s.owner) a.world (s.pass a).world

section Poll

variable {t : Script} {v : World} {deltaMs : UInt32} {inCombat : Bool}

theorem poll_of_closed (hp : r.isPolled = true) (hclosed : ¬t.runsTimer inCombat r = true) :
    t.poll deltaMs inCombat r v = { script := t, world := v } := by
  unfold poll
  rw [if_neg (by simp [hp]), if_pos (by simp [hclosed])]

theorem poll_of_early (hp : r.isPolled = true) (hopen : t.runsTimer inCombat r = true)
    (hdue : ¬(t.tickTimer deltaMs r).state.timers[r.id]?.any (·.isDue) = true) :
    t.poll deltaMs inCombat r v = { script := t.tickTimer deltaMs r, world := v } := by
  unfold poll
  rw [if_neg (by simp [hp]), if_neg (by simp [hopen])]
  exact if_neg hdue

theorem poll_of_due (hp : r.isPolled = true) (hopen : t.runsTimer inCombat r = true)
    (hdue : (t.tickTimer deltaMs r).state.timers[r.id]?.any (·.isDue) = true) {hit : Hit}
    (hhit : v.holds? t.owner r.event = some hit) :
    t.poll deltaMs inCombat r v =
      (t.tickTimer deltaMs r).attempt { owner := t.owner, invoker := hit.invoker } r v := by
  unfold poll
  rw [if_neg (by simp [hp]), if_neg (by simp [hopen])]
  dsimp only
  have howner : (t.tickTimer deltaMs r).owner = t.owner := rfl
  rw [if_pos hdue, howner, hhit]

/-- In its turn a rule that nothing vetoes fires or waits on. -/
theorem Waiting.turn (hp : r.isPolled = true) (hr : Prompt r) {ms : Nat} (h : Waiting r ms t)
    (hv : Free t.owner v)
    (hsilent : ∀ n linked, (t.poll deltaMs inCombat r v).journal ≠ .fired r 0 n :: linked) :
    Waiting r (ms + r.credit (.polled deltaMs t.state.phase inCombat))
      (t.poll deltaMs inCombat r v).script := by
  have hcredit : r.credit (.polled deltaMs t.state.phase inCombat) =
      if t.runsTimer inCombat r = true then deltaMs.toNat else 0 := by
    unfold Rule.credit Rule.runsIn
    dsimp only
    rw [hp]
    rfl
  rw [hcredit]
  by_cases hopen : t.runsTimer inCombat r = true
  · rw [if_pos hopen]
    by_cases hdue : (t.tickTimer deltaMs r).state.timers[r.id]?.any (·.isDue) = true
    · obtain ⟨hit, hhit⟩ := hr.holds hv.1
      have hphase : r.spec.phase.allows (t.tickTimer deltaMs r).state.phase = true := by
        simp only [runsTimer, Bool.and_eq_true] at hopen
        exact hopen.1
      have ho := hr.outcome { owner := t.owner, invoker := hit.invoker } hphase hv
      obtain ⟨n, linked, hj, -⟩ := (attempts_attempt _ r _ v).journal ho
      rw [poll_of_due hp hopen hdue hhit] at hsilent
      exact absurd hj (hsilent n linked)
    · rw [poll_of_early hp hopen hdue]
      exact h.tick deltaMs hdue
  · rw [if_neg hopen, poll_of_closed hp hopen]
    exact h

end Poll

theorem Waiting.pass (hp : r.isPolled = true) (hr : Prompt r) {s : Script} (ht : Timed r s)
    (hs : s.Sound) (hd : s.despawned = false) {a : Pass} (hsig : a.signal ≠ some .despawn)
    {ms : Nat} (h : Waiting r ms s) (hfree : FreeIn s a) (hunfired : Unfired r s a)
    (hcalm : r.Calm (s.pass a).journal) :
    Waiting r (ms + r.clocked (s.pass a).journal) (s.pass a).script := by
  obtain ⟨front, t, v, inCombat, back, hshare⟩ := share_pass hp ht hs hd hsig
  have hjournal := hshare.journal
  rw [hjournal] at hcalm
  obtain ⟨hfront, hcalm⟩ := Rule.calm_append.mp hcalm
  have hback := (Rule.calm_append.mp hcalm).2
  have hturns : v.Becomes (t.poll a.deltaMs inCombat r v).world :=
    (keeps_poll a.deltaMs inCombat r t v).2.2
  have hv : Free t.owner v := by
    rw [hshare.keeps.owner]
    exact (hfree.of_becomes hshare.world (hturns.trans hshare.worldAfter)).1
  have hsilent : ∀ n linked,
      (t.poll a.deltaMs inCombat r v).journal ≠ .fired r 0 n :: linked := by
    intro n linked hj
    rw [hj] at hjournal
    exact hunfired front n _ hjournal hshare.counts
  have hturn := (h.of_timer (hshare.timerBefore hfront)).turn hp hr hv hsilent
  have hpass := hturn.of_timer (hshare.timerAfter hback)
  have hclocked : r.clocked (s.pass a).journal =
      r.credit (.polled a.deltaMs t.state.phase inCombat) := by
    rw [hjournal, Rule.clocked_append, Rule.clocked_append, hshare.creditBefore,
      hshare.creditAfter, (firings_poll a.deltaMs inCombat r t v).unpolled.clocked]
    rfl
  rw [hclocked]
  exact hpass

theorem Waiting.run (hp : r.isPolled = true) (hr : Prompt r) {s : Script} (ht : Timed r s)
    (hs : s.Sound) {as : List Pass} (halive : (s.run as).1.despawned = false) {ms : Nat}
    (h : Waiting r ms s) (hcalm : r.Calm (s.run as).2)
    (halong : Along (fun t a => FreeIn t a ∧ Unfired r t a) s as) :
    Waiting r (ms + r.clocked (s.run as).2) (s.run as).1 := by
  induction as generalizing s ms with
  | nil => exact h
  | cons a as ih =>
    rw [run_cons] at halive hcalm ⊢
    obtain ⟨hcalm, hcalm'⟩ := Rule.calm_append.mp hcalm
    obtain ⟨⟨hfree, hunfired⟩, halong⟩ := halong
    have hsound := hs.pass a
    obtain ⟨hd, hsig⟩ := ordinary_of_alive hs.listed (alive_of_run halive)
    have hpass := h.pass hp hr ht hs hd hsig hfree hunfired hcalm
    have hrest := ih (ht.of_keeps hsound.1) hsound.2 halive hpass hcalm' halong
    rw [Rule.clocked_append, ← Nat.add_assoc]
    exact hrest

theorem before_record (hp : r.isPolled = true) {s : Script} (ht : Timed r s) (hs : s.Sound)
    {a : Pass} {before after : List Incident} {n : Nat}
    (hsplit : (s.pass a).journal = before ++ .fired r 0 n :: after) (hcounts : r.Counts before) :
    s.despawned = false ∧ ¬Unpolled before := by
  obtain ⟨hd, front, t, v, inCombat, back, h⟩ := share_of_fired hp ht hs (mem_of_split hsplit)
  rw [(h.place before n after hsplit hcounts).1]
  exact ⟨hd, h.polled⟩

/-- After the record of a polled rule no time passes for the rule, and the rule waits. -/
theorem after_record (hp : r.isPolled = true) {s : Script} (ht : Timed r s) (hs : s.Sound)
    {a : Pass} {x after : List Incident} {n : Nat}
    (hsplit : (s.pass a).journal = x ++ .fired r 0 n :: after) (hx : r.Counts x) :
    r.clocked after = 0 ∧
      (r.Calm after → r.spec.cooldownMax ≠ 0 → Waiting r 0 (s.pass a).script) := by
  obtain ⟨-, front, t, v, inCombat, back, h⟩ := share_of_fired hp ht hs (mem_of_split hsplit)
  obtain ⟨-, linked, hj, rfl⟩ := h.place x n after hsplit hx
  constructor
  · have hturn := (firings_poll a.deltaMs inCombat r t v).unpolled.clocked r
    rw [hj] at hturn
    rw [Rule.clocked_cons, Nat.add_eq_zero_iff] at hturn
    rw [Rule.clocked_append, h.creditAfter, hturn.2]
  · intro hcalm hmax
    have hfirst : (t.poll a.deltaMs inCombat r v).journal = [] ++ .fired r 0 n :: linked := hj
    obtain ⟨-, o, ho, hattempt⟩ := poll_of_fired hfirst
    have ht' := ht.of_keeps h.keeps
    have hticked := ht'.of_keeps (keeps_tickTimer a.deltaMs r t).toKeeps
    apply (waiting_of_fired hticked hmax ho).of_timer
    rw [← hattempt]
    exact h.timerAfter (Rule.calm_append.mp hcalm).2

/-- A polled rule fires once in a pass at most. When it fires again its repeat interval was over,
counting the time of the passes since in which its gates were open; a rule that nothing vetoes
fires again before the interval can be over in an earlier pass. -/
theorem polled_rule_keeps_interval {tables : List Table} {s : Script} (hs : s.Reachable)
    (hstore : s.store = (Store.build tables).1)
    (hown : s.store.find? s.rules.link = some s.rules) (hr : r ∈ s.rules.rules)
    (hp : r.isPolled = true) :
    (∀ a x n l m y, (s.pass a).journal = x ++ .fired r 0 n :: (l ++ .fired r 0 m :: y) →
      r.Counts x → ¬r.Counts (x ++ .fired r 0 n :: l)) ∧
    ∀ a between b x n after before m y,
      let mid := (s.pass a).script.run between
      (s.pass a).journal = x ++ .fired r 0 n :: after → r.Counts x →
      (mid.1.pass b).journal = before ++ .fired r 0 m :: y → r.Counts before →
      r.Calm (after ++ (mid.2 ++ before)) →
      (r.spec.cooldownMax ≠ 0 ∧
        r.spec.cooldownMin.toNat ≤ r.clocked (mid.2 ++ (mid.1.pass b).journal)) ∧
      (Prompt r → Along (fun t c => FreeIn t c ∧ Unfired r t c) (s.pass a).script between →
        r.clocked mid.2 < r.spec.cooldownMax.toNat ∧
        (r.spec.phase = .always → r.event.combatGate = .any →
          totalMs between < r.spec.cooldownMax.toNat)) := by
  have ht := timed_of_built hstore hown hr (by simp [cools, hp])
  have hsound := hs.sound
  refine ⟨fun a x n l m y hsplit hx => fired_once hp ht hsound a hsplit hx, ?_⟩
  intro a between b x n after before m y mid hfirst hx hlast hbefore hcalm
  have hpass := hsound.pass a
  have ht' := ht.of_keeps hpass.1
  have hmid := hpass.2.run between
  obtain ⟨halive, hpolled⟩ := before_record hp (ht'.of_keeps hmid.1) hmid.2 hlast hbefore
  obtain ⟨hafter, hwaiting⟩ := after_record hp ht hsound hfirst hx
  have hrested : r.Rested (r.clocked (after ++ (mid.2 ++ before))) := by
    have hrun : (s.run (a :: (between ++ [b]))).2 =
        x ++ .fired r 0 n :: (after ++ (mid.2 ++ before) ++ .fired r 0 m :: y) := by
      rw [run_cons, run_append, hfirst, run_cons, hlast]
      simp [run, calls, mid]
    apply rested_between ht hsound _ hrun hx _ hcalm
    have hcounts : r.Counts ((x ++ .fired r 0 n :: (after ++ mid.2)) ++ before) :=
      hbefore.append hpolled
    simpa using hcounts
  obtain ⟨hmin, hmax⟩ := hrested
  refine ⟨⟨hmax hp, ?_⟩, ?_⟩
  · simp only [Rule.clocked_append, hafter] at hmin ⊢
    rw [hlast, Rule.clocked_append]
    omega
  · intro hprompt halong
    have hcalms := Rule.calm_append.mp hcalm
    have hrun := (hwaiting hcalms.1 (hmax hp)).run hp hprompt ht' hpass.2 halive
      (Rule.calm_append.mp hcalms.2).1 halong
    obtain ⟨_, _, _, hlt⟩ := hrun
    rw [Nat.zero_add] at hlt
    refine ⟨hlt, ?_⟩
    intro hphase hgate
    have hgates : ∀ phase inCombat, r.runsIn phase inCombat = true := by
      intro phase inCombat
      unfold Rule.runsIn
      rw [hphase, hgate]
      simp [PhaseGate.allows, CombatGate.allows]
    rwa [clocked_run hgates hpass.2 halive] at hlt

private def tickTables : List Table :=
  [.single 100 0 60 fun row => { row with cooldownMin := some 1000, cooldownMax := some 1000 }]

private def tickSet : RuleSet := ((Store.build tickTables).1.find? (.creature 100)).getD default

private def onTick : Rule := tickSet.rules.headD default

private def clock : Script := create 1 tickSet (Store.build tickTables).1 {}

private def firstTick : Pass :=
  { world := (World.empty.spawn .creature 100 .origin).2, deltaMs := 0, signal := none }

private def shortTick : Pass := { firstTick with deltaMs := 400 }

private def longTick : Pass := { firstTick with deltaMs := 700 }

private theorem journal_firstTick :
    (clock.pass firstTick).journal =
      [.polled 0 .empty false] ++ .fired onTick 0 0 :: [] := rfl

private theorem journal_shortTick :
    ((clock.pass firstTick).script.pass shortTick).journal = [.polled 400 .empty false] := rfl

private theorem run_shortTick :
    ((clock.pass firstTick).script.run [shortTick]).2 = [.polled 400 .empty false] := by
  rw [run_cons, journal_shortTick]
  rfl

private theorem journal_longTick :
    (((clock.pass firstTick).script.run [shortTick]).1.pass longTick).journal =
      [.polled 700 .empty false] ++ .fired onTick 0 0 :: [] := rfl

private theorem freeIn_shortTick : FreeIn (clock.pass firstTick).script shortTick := by
  intro cs hcs
  have hlog : ((clock.pass firstTick).script.pass shortTick).world.log = [] := rfl
  rw [hlog, List.prefix_nil, List.append_eq_nil_iff] at hcs
  rw [hcs.2]
  exact ⟨rfl, rfl⟩

/-- With a repeat interval of a second the rule fires after 1100 ms, and not after 400 ms. -/
theorem second_keeps_interval :
    clock.Reachable ∧ clock.store.find? clock.rules.link = some clock.rules ∧
      onTick ∈ clock.rules.rules ∧ onTick.isPolled = true ∧
      onTick.spec.cooldownMin.toNat ≤
        onTick.clocked [.polled 400 .empty false, .polled 700 .empty false,
          .fired onTick 0 0] ∧
      totalMs [shortTick] < onTick.spec.cooldownMax.toNat := by
  have hreach : clock.Reachable := .fresh 1 tickSet _ {} _
  have hmem : onTick ∈ clock.rules.rules := by decide +kernel
  have hcreature : onTick.link.sourceType ≠ .timedActionList := by decide +kernel
  have hcounts : ∀ before, onTick.Counts before := fun _ h => absurd h hcreature
  have hkeeps := (polled_rule_keeps_interval hreach rfl rfl hmem rfl).2 firstTick [shortTick]
    longTick _ _ _ _ _ _ journal_firstTick (hcounts _) journal_longTick (hcounts _)
    (.inr (by rw [run_shortTick]; simp))
  have hprompt : Prompt onTick := ⟨rfl, rfl, by decide +kernel⟩
  have hunfired : Unfired onTick (clock.pass firstTick).script shortTick := by
    intro before n after hsplit
    rw [journal_shortTick] at hsplit
    cases before <;> simp at hsplit
  have hlast := (hkeeps.2 hprompt ⟨⟨freeIn_shortTick, hunfired⟩, trivial⟩).2 rfl rfl
  have hmin := hkeeps.1.2
  rw [run_shortTick, journal_longTick] at hmin
  exact ⟨hreach, rfl, hmem, rfl, hmin, hlast⟩

private def loopTables : List Table :=
  [.single 50 9 60 fun row =>
    { row with actionKind := 80, actionParams := row.actionParams.setIfInBounds 0 50 }]

private def loopSet : RuleSet := ((Store.build loopTables).1.timedList? 50).getD default

private def onLoop : Rule := loopSet.rules.headD default

private def looping : Script := create 1 loopSet (Store.build loopTables).1 {}

/-- A rule without a repeat interval is recorded in two passes when its rule set is a timed action
list that it starts. -/
theorem step_repeats_own_rule :
    looping.Reachable ∧ looping.store = (Store.build loopTables).1 ∧
      looping.store.find? looping.rules.link = some looping.rules ∧
      onLoop ∈ looping.rules.rules ∧ onLoop.isPolled = true ∧ onLoop.spec.cooldownMax = 0 ∧
      Incident.fired onLoop 0 0 ∈ (looping.pass firstTick).journal ∧
      Incident.fired onLoop 0 0 ∈ ((looping.pass firstTick).script.pass firstTick).journal ∧
      Incident.reset ∉ (looping.pass firstTick).journal ∧
      Incident.reset ∉ ((looping.pass firstTick).script.pass firstTick).journal := by
  have hfirst : (looping.pass firstTick).journal =
      [.polled 0 .empty false, .fired onLoop 0 0] := by decide +kernel
  have hsecond : ((looping.pass firstTick).script.pass firstTick).journal =
      [.polled 0 .empty false, .resumed 50 [0], .fired onLoop 0 0] := by decide +kernel
  rw [hfirst, hsecond]
  have hmem : onLoop ∈ looping.rules.rules := by decide +kernel
  exact ⟨.fresh 1 loopSet _ {} _, rfl, rfl, hmem, rfl, rfl, by simp, by simp, by simp, by simp⟩

end Script

end TriggerScript
