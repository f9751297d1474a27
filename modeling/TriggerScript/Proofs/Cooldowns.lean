import TriggerScript.Proofs.Timers
import TriggerScript.Proofs.Visibility

/-!
# Cooldowns

Between two records of a rule that a reset does not touch, the timer of the rule has to count up to
its lower bound. The invariant is an upper bound of what the timer has counted: the time that passed
for the rule since it fired.
-/

namespace TriggerScript

/-- Enough time for a rule that fired to fire again. A polled rule without a repeat interval does
not fire again at all. -/
def Rule.Rested (r : Rule) (ms : Nat) : Prop :=
  r.spec.cooldownMin.toNat ≤ ms ∧ (r.isPolled = true → r.spec.cooldownMax ≠ 0)

/-- Whether a record at this place counts. In a script whose own rules are a timed action list, a
list may have taken its turn since the own rules took theirs; then the record is a step of it. -/
def Rule.Counts (r : Rule) (before : List Incident) : Prop :=
  r.link.sourceType = .timedActionList →
    ∀ x id due y, before = x ++ .resumed id due :: y → ¬Unpolled y

theorem Rule.Counts.suffix {r : Rule} {js ks : List Incident} (h : r.Counts (js ++ ks)) :
    r.Counts ks := by
  intro hlink x id due y hks
  apply h hlink (js ++ x) id due y
  rw [hks, List.append_assoc]

namespace Script

variable {r : Rule}

theorem timed_of_built {tables : List Table} {s : Script}
    (hstore : s.store = (Store.build tables).1)
    (hown : s.store.find? s.rules.link = some s.rules) (hr : r ∈ s.rules.rules)
    (hcools : cools r = true) : Timed r s := by
  rw [hstore] at hown
  have hbuilt := Store.built_of_find? hown
  refine ⟨hr, hbuilt.distinct, (hbuilt.decoded r hr).cooldown, hcools, ?_, ?_⟩
  · intro hp hlink
    have hupdate := Event.isPolled_of_isUpdate ((hbuilt.decoded r hr).listed hlink)
    rw [Rule.isPolled, hupdate] at hp
    cases hp
  · intro hlink id set hset hmem
    rw [hstore] at hset
    apply hlink
    rw [(Store.built_of_find? hset).owned r hmem]
    rfl

/-- The timer of a rule that fired has counted at most `ms` milliseconds since. -/
def Cooling (r : Rule) (ms : Nat) (s : Script) : Prop :=
  ∃ t, s.timer? r = some t ∧ r.spec.cooldownMin.toNat ≤ t.nextFireAt.toNat ∧
    t.elapsed.toNat ≤ ms ∧
    (r.isPolled = true → r.spec.cooldownMax = 0 → t.exhausted = true)

theorem Cooling.of_timer {s t : Script} {ms : Nat} (h : Cooling r ms s)
    (ht : t.timer? r = s.timer? r) : Cooling r ms t := by
  obtain ⟨timer, htimer, hrest⟩ := h
  exact ⟨timer, ht.trans htimer, hrest⟩

theorem Cooling.mono {s : Script} {ms ms' : Nat} (h : Cooling r ms s) (hle : ms ≤ ms') :
    Cooling r ms' s := by
  obtain ⟨timer, htimer, hmin, helapsed, hexhausted⟩ := h
  exact ⟨timer, htimer, hmin, Nat.le_trans helapsed hle, hexhausted⟩

theorem Cooling.rested {s : Script} {ms : Nat} (h : Cooling r ms s)
    (hdue : ∀ t, s.timer? r = some t → t.isDue = true) : r.Rested ms := by
  obtain ⟨timer, htimer, hmin, helapsed, hexhausted⟩ := h
  have hd := hdue timer htimer
  simp only [Timer.isDue, Bool.and_eq_true, Bool.not_eq_true', decide_eq_true_eq] at hd
  obtain ⟨hfresh, hle⟩ := hd
  refine ⟨?_, ?_⟩
  · have hle' := UInt32.le_iff_toNat_le.mp hle
    omega
  · intro hp hmax
    rw [hexhausted hp hmax] at hfresh
    cases hfresh

theorem Cooling.tick {s : Script} {ms : Nat} (h : Cooling r ms s) (deltaMs : UInt32) :
    Cooling r (ms + deltaMs.toNat) (s.tickTimer deltaMs r) := by
  obtain ⟨timer, htimer, hmin, helapsed, hexhausted⟩ := h
  refine ⟨timer.advance deltaMs, ?_, hmin, ?_, hexhausted⟩
  · rw [timer?_tickTimer_self, htimer]
    rfl
  · change (addSat timer.elapsed deltaMs).toNat ≤ _
    rw [toNat_addSat]
    omega

/-- How a stretch treats a rule that fired before it or fires in it. -/
structure Clocks (r : Rule) (s : Script) (p : Progress) : Prop where
  goesOn : ∀ {ms}, Cooling r ms s → r.Calm p.journal →
    Cooling r (ms + r.clocked p.journal) p.script
  waits : ∀ {ms before n after}, Cooling r ms s → p.journal = before ++ .fired r 0 n :: after →
    r.Counts before → r.Calm before → r.Rested (ms + r.clocked before)
  starts : ∀ {before n after}, p.journal = before ++ .fired r 0 n :: after → r.Counts before →
    r.Calm after → Cooling r (r.clocked after) p.script
  spaced : ∀ {x n l m y}, p.journal = x ++ .fired r 0 n :: (l ++ .fired r 0 m :: y) →
    r.Counts x → r.Counts (x ++ .fired r 0 n :: l) → r.Calm l → r.Rested (r.clocked l)

theorem Clocks.join {s : Script} {p : Progress} {stage : Script → World → Progress}
    (h : Clocks r s p) (h' : Clocks r p.script (stage p.script p.world)) :
    Clocks r s (p.andThen stage) where
  goesOn := by
    intro ms hms hcalm
    obtain ⟨hp, hq⟩ := Rule.calm_append.mp hcalm
    rw [Progress.journal_andThen, Rule.clocked_append, ← Nat.add_assoc]
    exact h'.goesOn (h.goesOn hms hp) hq
  waits := by
    intro ms before n after hms hsplit hcounts hcalm
    rcases split_append hsplit with ⟨after', hp, -⟩ | ⟨before', rfl, hq⟩
    · exact h.waits hms hp hcounts hcalm
    · obtain ⟨hcp, hcq⟩ := Rule.calm_append.mp hcalm
      rw [Rule.clocked_append, ← Nat.add_assoc]
      exact h'.waits (h.goesOn hms hcp) hq hcounts.suffix hcq
  starts := by
    intro before n after hsplit hcounts hcalm
    rcases split_append hsplit with ⟨after', hp, rfl⟩ | ⟨before', rfl, hq⟩
    · obtain ⟨hcp, hcq⟩ := Rule.calm_append.mp hcalm
      rw [Rule.clocked_append]
      exact h'.goesOn (h.starts hp hcounts hcp) hcq
    · exact h'.starts hq hcounts.suffix hcalm
  spaced := by
    intro x n l m y hsplit hx hcounts hcalm
    rcases split_append hsplit with ⟨after', hp, hafter⟩ | ⟨before', rfl, hq⟩
    · rcases split_append hafter.symm with ⟨y', hp', -⟩ | ⟨l', rfl, hq⟩
      · rw [hp'] at hp
        exact h.spaced hp hx hcounts hcalm
      · obtain ⟨hcp, hcq⟩ := Rule.calm_append.mp hcalm
        rw [Rule.clocked_append]
        have hrest : r.Counts ((x ++ .fired r 0 n :: after') ++ l') := by
          rw [List.append_assoc]
          exact hcounts
        exact h'.waits (h.starts hp hx hcp) hq hrest.suffix hcq
    · rw [List.append_assoc] at hcounts
      exact h'.spaced hq hx.suffix hcounts.suffix hcalm

theorem clocks_of_silent {s : Script} {p : Progress}
    (hgoes : ∀ ms, Cooling r ms s → r.Calm p.journal →
      Cooling r (ms + r.clocked p.journal) p.script)
    (hsilent : ∀ before n after, p.journal = before ++ .fired r 0 n :: after → ¬r.Counts before) :
    Clocks r s p where
  goesOn := fun h hc => hgoes _ h hc
  waits := fun _ hsplit hcounts _ => absurd hcounts (hsilent _ _ _ hsplit)
  starts := fun hsplit hcounts _ => absurd hcounts (hsilent _ _ _ hsplit)
  spaced := fun hsplit hx _ _ => absurd hx (hsilent _ _ _ hsplit)

theorem Still.clocks {s : Script} {p : Progress} (h : Still r s p) : Clocks r s p := by
  apply clocks_of_silent
  · intro ms hms hcalm
    rw [h.unclocked, Nat.add_zero]
    exact hms.of_timer (h.timer hcalm)
  · intro before n after hsplit
    exact absurd (mem_of_split hsplit) (h.silent n)

theorem clocks_chains : Chains fun s _ p => Timed r s → Clocks r s p where
  join hk h h' := fun ht => (h ht).join (h' (ht.of_keeps hk))
  aside w h := fun ht => (still_chains.aside w h ht).clocks

/-- The timer of a rule after an attempt that was not vetoed. -/
theorem timer?_attempt_self (ht : cools r = true) (o : Occasion) (s : Script) (w : World)
    (hv : s.outcome o r w ≠ .vetoed) :
    ∃ t, (s.attempt o r w).script.timer? r = some t ∧
      r.spec.cooldownMin.toNat ≤ t.nextFireAt.toNat ∧
      (r.spec.cooldownMin ≤ r.spec.cooldownMax →
        t.nextFireAt.toNat ≤ r.spec.cooldownMax.toNat) ∧
      t.elapsed = 0 ∧
      t.exhausted = (r.isPolled && r.spec.cooldownMax == 0 && s.outcome o r w == .fired) := by
  obtain ⟨g, hg⟩ := timers_attempt o r s w
  rw [if_pos ⟨hv, ht⟩] at hg
  have hroll := g.roll_bounds r.spec.cooldownMin r.spec.cooldownMax
  have hself : (s.attempt o r w).script.timer? r = some
      { nextFireAt := (g.roll r.spec.cooldownMin r.spec.cooldownMax).1
        exhausted := r.isPolled && r.spec.cooldownMax == 0 && s.outcome o r w == .fired } := by
    unfold timer?
    rw [hg, Std.ExtTreeMap.getElem?_insert_self]
  exact ⟨_, hself, hroll.1, hroll.2, rfl, rfl⟩

/-- The journal of an attempt begins with the rule itself, which does not fire again in it. -/
theorem split_firing {set : RuleSet} {phase : PhaseMask} {js before after : List Incident}
    {n : Nat} (h : FiringJournal set phase 0 r js) (hsplit : js = before ++ .fired r 0 n :: after) :
    before = [] ∧ ∀ m, Incident.fired r 0 m ∉ after := by
  obtain ⟨k, linked, rfl, -, hl⟩ := h
  have hlinked : ∀ m, Incident.fired r 0 m ∉ linked := by
    intro m hm
    obtain ⟨y, d, j, hy, -, hd, -⟩ := hl _ hm
    cases hy
    exact Nat.lt_irrefl 0 hd
  cases before with
  | nil =>
    rw [List.nil_append, List.cons.injEq] at hsplit
    obtain ⟨-, rfl⟩ := hsplit
    exact ⟨rfl, hlinked⟩
  | cons b before =>
    rw [List.cons_append, List.cons.injEq] at hsplit
    apply absurd _ (hlinked n)
    rw [hsplit.2]
    exact List.mem_append_right _ List.mem_cons_self

theorem clocks_attempt {s : Script} (ht : Timed r s)
    (hdue : ∀ t, s.timer? r = some t → t.isDue = true) (o : Occasion) (w : World) :
    Clocks r s (s.attempt o r w) := by
  have h := attempts_attempt o r s w
  have hclocked : r.clocked (s.attempt o r w).journal = 0 := h.unpolled.clocked r
  have hfired : ∀ before n after,
      (s.attempt o r w).journal = before ++ .fired r 0 n :: after → s.outcome o r w = .fired := by
    intro before n after hsplit
    by_cases ho : s.outcome o r w = .fired
    · exact ho
    · rw [h.silent ho] at hsplit
      simp at hsplit
  refine ⟨?_, ?_, ?_, ?_⟩
  · intro ms hms _
    -- A veto leaves the timer, and any other attempt starts it over.
    rw [hclocked, Nat.add_zero]
    by_cases hv : s.outcome o r w = .vetoed
    · apply hms.of_timer
      obtain ⟨g, hg⟩ := timers_attempt o r s w
      rw [if_neg (fun hc => hc.1 hv)] at hg
      unfold timer?
      rw [hg]
    · obtain ⟨t, htimer, hmin, -, helapsed, -⟩ := timer?_attempt_self ht.starts o s w hv
      refine ⟨t, htimer, hmin, ?_, ?_⟩
      · rw [helapsed]
        exact Nat.zero_le _
      · intro hp hmax
        exact absurd hmax ((hms.rested hdue).2 hp)
  · intro ms before n after hms hsplit _ _
    obtain ⟨rfl, -⟩ := split_firing (h.journal (hfired _ _ _ hsplit)) hsplit
    exact hms.rested hdue
  · intro before n after hsplit _ _
    have ho := hfired _ _ _ hsplit
    obtain ⟨t, htimer, hmin, -, helapsed, hexhausted⟩ :=
      timer?_attempt_self ht.starts o s w (by rw [ho]; simp)
    refine ⟨t, htimer, hmin, ?_, ?_⟩
    · rw [helapsed]
      exact Nat.zero_le _
    · intro hp hmax
      rw [hexhausted, ho, hp, hmax]
      rfl
  · intro x n l m y hsplit _ _ _
    obtain ⟨-, hnot⟩ := split_firing (h.journal (hfired _ _ _ hsplit)) hsplit
    apply absurd _ (hnot m)
    exact List.mem_append_right _ List.mem_cons_self

theorem clocks_commitLaw : CommitLaw fun s _ p => Timed r s → Clocks r s p where
  toChains := clocks_chains
  heard s w signal := fun _ => (still_heard s w signal).clocks
  react {s x} w signal _ hx := by
    intro ht
    by_cases hxr : x = r
    · subst hxr
      unfold react
      split
      · rename_i hready
        apply clocks_attempt ht
        intro t htimer
        simp only [isReady, Bool.and_eq_true] at hready
        have hall := hready.2
        unfold timer? at htimer
        rw [htimer] at hall
        exact hall
      · exact (still_of_timer w rfl).clocks
    · exact (still_react ht w signal hx hxr).clocks
  renewed _ w := fun ht => (still_renewed ht w).clocks
  settled s w := fun _ => (still_settled s w).clocks

theorem still_poll {s : Script} (ht : Timed r s) {x : Rule} (hx : x ∈ s.rules.rules) (hne : x ≠ r)
    (deltaMs : UInt32) (inCombat : Bool) (w : World) :
    Still r s (s.poll deltaMs inCombat x w) := by
  have htick : Still r s { script := s.tickTimer deltaMs x, world := w } :=
    still_of_timer w (timer?_tickTimer_of_ne (ht.id_ne hx hne) deltaMs s)
  rcases poll_cases deltaMs inCombat x s w with h | ⟨-, h | ⟨-, o, h⟩⟩
  · rw [h]
    exact still_of_timer w rfl
  · rw [h]
    exact htick
  · rw [h]
    have ht' : Timed r (s.tickTimer deltaMs x) := ht.of_keeps (keeps_tickTimer deltaMs x s).toKeeps
    exact @Still.join r s { script := s.tickTimer deltaMs x, world := w }
      (fun t v => t.attempt o x v) htick (still_attempt ht' hx hne o w)

theorem clocks_turn {s : Script} (ht : Timed r s) (deltaMs : UInt32) (inCombat : Bool) (w : World) :
    ∃ t, (∀ ms, Cooling r ms s →
        Cooling r (ms + r.credit (.polled deltaMs s.state.phase inCombat)) t) ∧
      Clocks r t (s.poll deltaMs inCombat r w) := by
  rcases poll_cases deltaMs inCombat r s w with h | ⟨hruns, h⟩
  · rw [h]
    refine ⟨s, ?_, (still_of_timer w rfl).clocks⟩
    intro ms hms
    exact hms.mono (Nat.le_add_right _ _)
  · have hcredit : r.credit (.polled deltaMs s.state.phase inCombat) = deltaMs.toNat := by
      unfold Rule.credit
      exact if_pos hruns
    rw [hcredit]
    refine ⟨s.tickTimer deltaMs r, fun ms hms => hms.tick deltaMs, ?_⟩
    rcases h with h | ⟨hdue, o, h⟩
    · rw [h]
      exact (still_of_timer w rfl).clocks
    · rw [h]
      apply clocks_attempt (ht.of_keeps (keeps_tickTimer deltaMs r s).toKeeps)
      intro t htimer
      unfold timer? at htimer
      rw [htimer] at hdue
      exact hdue

theorem visible_chains : Chains fun s _ p => s.KeepsVisible p.script where
  join _ h h' := h.trans h'
  aside _ h := h.keeps

theorem still_polls {s : Script} (hs : s.Listed) {rules : List Rule}
    (hrules : ∀ x ∈ rules, x ∈ s.rules.rules ∧ x ≠ r) (deltaMs : UInt32) (inCombat : Bool)
    (w : World) :
    Walks (fun s w p => s.KeepsVisible p.script ∧ Lasts s w p ∧ (Timed r s → Still r s p)) s w
      (inTurn (poll deltaMs inCombat) rules s w) := by
  apply (visible_chains.and (lasts_chains.and still_chains)).walks_inTurn hs
  intro x hx t v hk hl
  obtain ⟨hkeeps, hlists, hworld⟩ := keeps_poll deltaMs inCombat x t v
  refine ⟨hkeeps.toKeeps, hl.of_eq hlists hkeeps.store, hkeeps, ⟨hkeeps.despawned, hworld⟩, ?_⟩
  intro htimed
  obtain ⟨hmem, hne⟩ := hrules x hx
  exact still_poll htimed (by rwa [hk.rules]) hne deltaMs inCombat v

theorem Timed.split {s : Script} (ht : Timed r s) :
    ∃ front back, s.rules.rules = front ++ r :: back ∧
      (∀ x ∈ front, x ∈ s.rules.rules ∧ x ≠ r) ∧ ∀ x ∈ back, x ∈ s.rules.rules ∧ x ≠ r := by
  obtain ⟨front, back, hsplit, hothers⟩ := exists_split_of_mem ht.distinct ht.mem
  refine ⟨front, back, hsplit, ?_, ?_⟩
  · intro x hx
    refine ⟨hsplit ▸ List.mem_append_left _ hx, ?_⟩
    rintro rfl
    exact hothers _ (List.mem_append_left _ hx) rfl
  · intro x hx
    refine ⟨hsplit ▸ List.mem_append_right _ (List.mem_cons_of_mem _ hx), ?_⟩
    rintro rfl
    exact hothers _ (List.mem_append_right _ hx) rfl

/-- The turns of the own rules before and after that of one of them. -/
structure Around (r : Rule) (deltaMs : UInt32) (s : Script) (w : World) (p turn q : Progress) :
    Prop where
  taken : turn = p.script.poll deltaMs (w.inCombat s.owner) r p.world
  before : s.KeepsVisible p.script
  lasts : Lasts s w p
  spared : Still r s p
  firings : Firings p.journal
  listed : turn.script.Listed
  after : turn.script.KeepsVisible q.script
  lastsAfter : Lasts turn.script turn.world q
  sparedAfter : Still r turn.script q
  whole : s.advancePolled deltaMs w =
    { script := q.script, world := q.world
      journal := .polled deltaMs s.state.phase (w.inCombat s.owner) ::
        (p.journal ++ (turn.journal ++ q.journal)) }

theorem around_turn {s : Script} (ht : Timed r s) (hs : s.Listed) (deltaMs : UInt32) (w : World) :
    ∃ p turn q, Around r deltaMs s w p turn q := by
  obtain ⟨front, back, hrules, hfront, hback⟩ := ht.split
  have hbefore := still_polls hs hfront deltaMs (w.inCombat s.owner) w
  have hfirings := firings_polls hs front deltaMs (w.inCombat s.owner) w
  generalize hp : inTurn (poll deltaMs (w.inCombat s.owner)) front s w = p at hbefore hfirings
  obtain ⟨hkeeps, hlists, -⟩ := keeps_poll deltaMs (w.inCombat s.owner) r p.script p.world
  have hlisted := hbefore.listed.of_eq hlists hkeeps.store
  have hafter := still_polls hlisted (by rwa [hkeeps.rules, hbefore.keeps.rules]) deltaMs
    (w.inCombat s.owner) (p.script.poll deltaMs (w.inCombat s.owner) r p.world).world
  have ht' := (ht.of_keeps hbefore.keeps).of_keeps hkeeps.toKeeps
  refine ⟨p, _, _, rfl, hbefore.law.1, hbefore.law.2.1, hbefore.law.2.2 ht, hfirings, hlisted,
    hafter.law.1, hafter.law.2.1, hafter.law.2.2 ht', ?_⟩
  have hsplit := inTurn_middle (poll deltaMs (w.inCombat s.owner)) front r back s w
  rw [← hrules, hp] at hsplit
  unfold advancePolled Progress.andThen
  dsimp only
  rw [hsplit]
  rfl

theorem clocks_advancePolled {s : Script} (ht : Timed r s) (hs : s.Listed) (deltaMs : UInt32)
    (w : World) : Clocks r s (s.advancePolled deltaMs w) := by
  obtain ⟨p, turn, q, h⟩ := around_turn ht hs deltaMs w
  obtain ⟨t, hcooling, hturn⟩ := clocks_turn (ht.of_keeps h.before.toKeeps) deltaMs
    (w.inCombat s.owner) p.world
  rw [← h.taken] at hturn
  -- The time of the turn is credited by the note, so it is accounted for before the turn.
  have hnoted : Clocks r s
      { script := t, world := p.world
        journal := .polled deltaMs s.state.phase (w.inCombat s.owner) :: p.journal } := by
    apply clocks_of_silent
    · intro ms hms hcalm
      have hspared := hms.of_timer (h.spared.timer hcalm.tail)
      have hticked := hcooling ms hspared
      rw [Rule.clocked_cons, h.spared.unclocked, ← h.before.phase]
      exact hticked
    · intro before n after hsplit
      dsimp only at hsplit
      apply absurd _ (h.spared.silent n)
      have hmem : Incident.fired r 0 n ∈
          .polled deltaMs s.state.phase (w.inCombat s.owner) :: p.journal := mem_of_split hsplit
      simpa using hmem
  have hrest : Clocks r t (turn.andThen fun _ _ => q) := hturn.join h.sparedAfter.clocks
  rw [h.whole]
  exact @Clocks.join r s { script := t, world := p.world, journal := _ }
    (fun _ _ => turn.andThen fun _ _ => q) hnoted hrest

theorem not_counts_advanceLists {s : Script} (ht : Timed r s) (hs : s.Listed) (deltaMs : UInt32)
    (w : World) {before after : List Incident} {n : Nat}
    (hsplit : (s.advanceLists deltaMs w).journal = before ++ .fired r 0 n :: after) :
    ¬r.Counts before := by
  intro hcounts
  by_cases hlink : r.link.sourceType = .timedActionList
  · have hunpolled := (unpolled_listLaw.walks_advanceLists (w := w) hs deltaMs).law
    rw [hsplit] at hunpolled
    rcases resumes_advanceLists deltaMs s w with hnil | ⟨id, due, rest, hcons⟩
    · rw [hnil] at hsplit
      simp at hsplit
    · rw [hcons] at hsplit
      cases before with
      | nil => simp at hsplit
      | cons i before =>
        rw [List.cons_append, List.cons.injEq] at hsplit
        obtain ⟨rfl, -⟩ := hsplit
        apply hcounts hlink [] id due before rfl
        intro d ph c hm
        exact hunpolled d ph c (List.mem_append_left _ (List.mem_cons_of_mem _ hm))
  · apply ((silent_listLaw hlink).walks_advanceLists (w := w) hs deltaMs).law ht n
    rw [hsplit]
    exact List.mem_append_right _ List.mem_cons_self

theorem clocks_advanceLists {s : Script} (ht : Timed r s) (hs : s.Listed) (deltaMs : UInt32)
    (w : World) : Clocks r s (s.advanceLists deltaMs w) := by
  have huntimed := (untimed_listLaw (r := r)).walks_advanceLists (w := w) hs deltaMs
  have hunpolled := (unpolled_listLaw.walks_advanceLists (w := w) hs deltaMs).law
  apply clocks_of_silent
  · intro ms hms _
    rw [hunpolled.clocked r, Nat.add_zero]
    exact hms.of_timer huntimed.law
  · intro before n after hsplit
    exact not_counts_advanceLists ht hs deltaMs w hsplit

theorem Clocks.of_taken {s : Script} {p : Progress} (h : Clocks r s.taken p) : Clocks r s p := by
  have htaken : Still r s { script := s.taken, world := p.world } := still_of_timer p.world rfl
  exact @Clocks.join r s { script := s.taken, world := p.world } (fun _ _ => p) htaken.clocks h

theorem clocks_despawn {s : Script} (ht : Timed r s) (hs : s.Listed) (hd : s.despawned = false)
    (w : World) : ∃ t, Clocks r s { s.despawn w with script := t } := by
  have hlast := ((clocks_commitLaw (r := r)).walks_handleSignal (w := w) hs .despawn).law ht
  unfold despawn
  rw [hd, if_neg (by simp)]
  refine ⟨(s.handleSignal .despawn w).script, ?_⟩
  have hnote : Still r (s.handleSignal .despawn w).script
      { script := (s.handleSignal .despawn w).script, world := (s.handleSignal .despawn w).world
        journal := [.despawned] } := ⟨fun _ => rfl, by simp, rfl⟩
  exact @Clocks.join r s (s.handleSignal .despawn w) (fun t v => ⟨t, v, [.despawned]⟩) hlast
    hnote.clocks

/-- A pass is such a stretch, too, except that a script that despawns forgets its timers. -/
theorem clocks_pass {s : Script} (ht : Timed r s) (hs : s.Sound) (a : Pass) :
    ∃ t, Clocks r s { s.pass a with script := t } ∧
      ((s.pass a).script.despawned = false → t = (s.pass a).script) := by
  obtain ⟨w, deltaMs, signal⟩ := a
  have htaken := ht.of_keeps (keeps_taken s)
  unfold pass
  dsimp only
  cases hd : s.despawned with
  | true =>
    rw [advance_of_despawned hd]
    exact ⟨s, (still_of_timer w rfl).clocks, fun _ => rfl⟩
  | false =>
    by_cases hsig : signal = some .despawn
    · rw [hsig, advance_despawn hd]
      have htold := (clocks_commitLaw (r := r)).walks_handleDeferred (w := w) hs.listed
      have halive := (lasts_commitLaw.walks_handleDeferred (w := w) hs.listed).law.despawned
      rw [despawned_taken, hd] at halive
      have ht' := htaken.of_keeps htold.keeps
      generalize s.handleDeferred w = p at htold halive ht'
      obtain ⟨t, hlast⟩ := clocks_despawn ht' htold.listed halive p.world
      refine ⟨t, ?_, ?_⟩
      · exact @Clocks.join r s p (fun s w => { s.despawn w with script := t })
          (htold.law htaken).of_taken hlast
      · intro h
        have hdead : (p.script.despawn p.world).script.despawned = true := by
          unfold despawn
          rw [halive, if_neg (by simp)]
          rfl
        rw [Progress.script_andThen, hdead] at h
        cases h
    · have hpass := law_pass clocks_commitLaw ht hs.listed hd (a := ⟨w, deltaMs, signal⟩) hsig
        (fun t v ht hl => clocks_advancePolled ht hl deltaMs v)
        (fun t v ht hl => clocks_advanceLists ht hl deltaMs v)
      exact ⟨_, hpass.of_taken, fun _ => rfl⟩

theorem clocks_run {s : Script} (ht : Timed r s) (hs : s.Sound) (as : List Pass) (w : World) :
    ∃ t, Clocks r s { script := t, world := w, journal := (s.run as).2 } := by
  induction as generalizing s with
  | nil => exact ⟨s, (still_of_timer w rfl).clocks⟩
  | cons a as ih =>
    have hsound := hs.pass a
    obtain ⟨t, hpass, halive⟩ := clocks_pass ht hs a
    rw [run_cons]
    cases hd : (s.pass a).script.despawned with
    | true =>
      rw [run_of_despawned hd, List.append_nil]
      exact ⟨t, hpass.goesOn, hpass.waits, hpass.starts, hpass.spaced⟩
    | false =>
      rw [halive hd] at hpass
      obtain ⟨u, hrest⟩ := ih (ht.of_keeps hsound.1) hsound.2
      exact ⟨u, @Clocks.join r s (s.pass a) (fun _ _ => ⟨u, w, ((s.pass a).script.run as).2⟩)
        hpass hrest⟩

/-- Between two records of a rule in a run, the timer of the rule counts up to its lower bound,
unless a reset lies between them. -/
theorem rested_between {s : Script} (ht : Timed r s) (hs : s.Sound) (as : List Pass)
    {x l y : List Incident} {n m : Nat}
    (hsplit : (s.run as).2 = x ++ .fired r 0 n :: (l ++ .fired r 0 m :: y))
    (hx : r.Counts x) (hl : r.Counts (x ++ .fired r 0 n :: l)) (hcalm : r.Calm l) :
    r.Rested (r.clocked l) := by
  obtain ⟨t, h⟩ := clocks_run ht hs as .empty
  exact h.spaced hsplit hx hl hcalm

end Script

end TriggerScript
