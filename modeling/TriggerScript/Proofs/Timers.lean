import TriggerScript.Proofs.Building
import TriggerScript.Proofs.Draws
import TriggerScript.Proofs.Reachability

/-!
# Timers of own rules

Only the turns of a rule, its own attempts and resets touch the timer of the rule. The journal tells
how much time each of its stretches lets pass for the timer.
-/

namespace TriggerScript

namespace Rule

/-- Whether time counts for the rule in these turns of the own rules. -/
def runsIn (r : Rule) (phase : PhaseMask) (inCombat : Bool) : Bool :=
  !r.isPolled || (r.spec.phase.allows phase && r.event.combatGate.allows inCombat)

/-- The milliseconds that an incident lets pass for the timer of the rule. -/
def credit (r : Rule) : Incident → Nat
  | .polled deltaMs phase inCombat => if r.runsIn phase inCombat then deltaMs.toNat else 0
  | _ => 0

/-- The milliseconds that pass for the timer of the rule. -/
def clocked (r : Rule) : List Incident → Nat
  | [] => 0
  | i :: js => r.credit i + r.clocked js

@[simp] theorem clocked_nil (r : Rule) : r.clocked [] = 0 := rfl

@[simp] theorem clocked_cons (r : Rule) (i : Incident) (js : List Incident) :
    r.clocked (i :: js) = r.credit i + r.clocked js := rfl

@[simp] theorem clocked_append (r : Rule) (js ks : List Incident) :
    r.clocked (js ++ ks) = r.clocked js + r.clocked ks := by
  induction js with
  | nil => simp
  | cons i js ih => rw [List.cons_append, clocked_cons, clocked_cons, ih, Nat.add_assoc]

theorem credit_le (r : Rule) (deltaMs : UInt32) (phase : PhaseMask) (inCombat : Bool) :
    r.credit (.polled deltaMs phase inCombat) ≤ deltaMs.toNat := by
  unfold credit
  dsimp only
  split
  · exact Nat.le_refl _
  · exact Nat.zero_le _

/-- No reset touches the rule. -/
def Calm (r : Rule) (js : List Incident) : Prop := r.survivesReset = true ∨ Incident.reset ∉ js

theorem calm_append {r : Rule} {js ks : List Incident} :
    r.Calm (js ++ ks) ↔ r.Calm js ∧ r.Calm ks := by
  unfold Calm
  rw [List.mem_append, not_or]
  by_cases h : r.survivesReset = true <;> simp [h]

theorem Calm.tail {r : Rule} {i : Incident} {js : List Incident} (h : r.Calm (i :: js)) :
    r.Calm js := by
  rw [← List.singleton_append, calm_append] at h
  exact h.2

end Rule

def Unpolled (js : List Incident) : Prop :=
  ∀ deltaMs phase inCombat, Incident.polled deltaMs phase inCombat ∉ js

theorem Unpolled.append {js ks : List Incident} (h : Unpolled js) (h' : Unpolled ks) :
    Unpolled (js ++ ks) := by
  intro deltaMs phase inCombat hm
  rcases List.mem_append.mp hm with hm | hm
  · exact h deltaMs phase inCombat hm
  · exact h' deltaMs phase inCombat hm

theorem Unpolled.left {js ks : List Incident} (h : Unpolled (js ++ ks)) : Unpolled js :=
  fun deltaMs phase inCombat hm => h deltaMs phase inCombat (List.mem_append_left ks hm)

theorem Unpolled.right {js ks : List Incident} (h : Unpolled (js ++ ks)) : Unpolled ks :=
  fun deltaMs phase inCombat hm => h deltaMs phase inCombat (List.mem_append_right js hm)

theorem Unpolled.clocked {js : List Incident} (h : Unpolled js) (r : Rule) : r.clocked js = 0 := by
  induction js with
  | nil => rfl
  | cons i js ih =>
    have hi : r.credit i = 0 := by
      cases i with
      | polled deltaMs phase inCombat => exact absurd List.mem_cons_self (h deltaMs phase inCombat)
      | _ => rfl
    rw [Rule.clocked_cons, hi, ih fun d p c hm => h d p c (List.mem_cons_of_mem i hm)]

def Firings (js : List Incident) : Prop := ∀ i ∈ js, i.record?.isSome = true

theorem Firings.nil : Firings [] := fun _ hi => nomatch hi

theorem Firings.append {js ks : List Incident} (h : Firings js) (h' : Firings ks) :
    Firings (js ++ ks) := by
  intro i hi
  rcases List.mem_append.mp hi with hi | hi
  · exact h i hi
  · exact h' i hi

theorem Firings.unpolled {js : List Incident} (h : Firings js) : Unpolled js := by
  intro deltaMs phase inCombat hm
  have hi := h _ hm
  cases hi

namespace Script

def timer? (s : Script) (r : Rule) : Option Timer := s.state.timers[r.id]?

/-- An own rule with a cooldown, in a script whose rules are told apart by their numbers. -/
structure Timed (r : Rule) (s : Script) : Prop where
  mem : r ∈ s.rules.rules
  distinct : (s.rules.rules.map (·.id)).Nodup
  bounds : r.spec.cooldownMin ≤ r.spec.cooldownMax
  starts : cools r = true
  /-- Steps of timed action lists are polled. -/
  pushed : r.isPolled = false → r.link.sourceType ≠ .timedActionList
  unlisted : r.link.sourceType ≠ .timedActionList →
    ∀ id set, s.store.timedList? id = some set → r ∉ set.rules

variable {r : Rule}

theorem Timed.of_keeps {s t : Script} (h : Timed r s) (hk : s.Keeps t) : Timed r t where
  mem := hk.rules ▸ h.mem
  distinct := hk.rules ▸ h.distinct
  bounds := h.bounds
  starts := h.starts
  pushed := h.pushed
  unlisted := hk.store ▸ h.unlisted

theorem Timed.id_ne {s : Script} (h : Timed r s) {x : Rule} (hx : x ∈ s.rules.rules)
    (hne : x ≠ r) : x.id ≠ r.id :=
  fun hid => hne (List.inj_on_of_nodup_map h.distinct hx h.mem hid)

theorem timer?_insert_of_ne {timers : Std.ExtTreeMap RuleId Timer} {x : Rule} (hne : x.id ≠ r.id)
    (t : Timer) : (timers.insert x.id t)[r.id]? = timers[r.id]? := by
  rw [Std.ExtTreeMap.getElem?_insert, if_neg (by simpa using hne)]

theorem timer?_tickTimer_self (deltaMs : UInt32) (s : Script) :
    (s.tickTimer deltaMs r).timer? r = (s.timer? r).map (·.advance deltaMs) := by
  unfold tickTimer timer?
  dsimp only
  rw [Std.ExtTreeMap.getElem?_modify]
  simp

theorem timer?_tickTimer_of_ne {x : Rule} (hne : x.id ≠ r.id) (deltaMs : UInt32) (s : Script) :
    (s.tickTimer deltaMs x).timer? r = s.timer? r := by
  unfold tickTimer timer?
  dsimp only
  rw [Std.ExtTreeMap.getElem?_modify, if_neg (by simpa using hne)]

theorem timer?_attempt_of_ne {x : Rule} (hne : x.id ≠ r.id) (o : Occasion) (s : Script)
    (w : World) : (s.attempt o x w).script.timer? r = s.timer? r := by
  obtain ⟨g, hg⟩ := timers_attempt o x s w
  unfold timer?
  rw [hg]
  split
  · exact timer?_insert_of_ne hne _
  · rfl

structure Still (r : Rule) (s : Script) (p : Progress) : Prop where
  timer : r.Calm p.journal → p.script.timer? r = s.timer? r
  silent : ∀ n, Incident.fired r 0 n ∉ p.journal
  unclocked : r.clocked p.journal = 0

theorem Still.join {s : Script} {p : Progress} {stage : Script → World → Progress}
    (h : Still r s p) (h' : Still r p.script (stage p.script p.world)) :
    Still r s (p.andThen stage) where
  timer := by
    intro hcalm
    obtain ⟨hp, hq⟩ := Rule.calm_append.mp hcalm
    exact (h'.timer hq).trans (h.timer hp)
  silent := by
    intro n hn
    rcases List.mem_append.mp hn with hn | hn
    · exact h.silent n hn
    · exact h'.silent n hn
  unclocked := by rw [Progress.journal_andThen, Rule.clocked_append, h.unclocked, h'.unclocked]

theorem still_of_timer {s t : Script} (w : World) (h : t.timer? r = s.timer? r) :
    Still r s { script := t, world := w } where
  timer := fun _ => h
  silent := fun _ hn => nomatch hn
  unclocked := rfl

theorem timer?_aside {s t : Script} (h : s.Aside t) : t.timer? r = s.timer? r := by
  rw [h]
  rfl

theorem still_chains : Chains fun s _ p => Timed r s → Still r s p where
  join hk h h' := fun ht => (h ht).join (h' (ht.of_keeps hk))
  aside w h := fun _ => still_of_timer w (timer?_aside h)

theorem firings_of_passed {phase : PhaseMask} {js : List Incident}
    (h : ∀ i ∈ js, Passed phase i) : Firings js := by
  intro i hi
  obtain ⟨x, d, n, rfl, -⟩ := h i hi
  rfl

theorem Attempts.unpolled {x : Rule} {s : Script} {w : World} {outcome : FireOutcome}
    {p : Progress} (h : Attempts x s w outcome p) : Unpolled p.journal :=
  (firings_of_passed h.passed).unpolled

theorem firings_chains : Chains fun _ _ p => Firings p.journal where
  join _ h h' := h.append h'
  aside _ _ := .nil

theorem silent_of_firing {set : RuleSet} {phase : PhaseMask} {x : Rule} (hne : x ≠ r)
    {js : List Incident} (h : FiringJournal set phase 0 x js) (n : Nat) :
    Incident.fired r 0 n ∉ js := by
  obtain ⟨m, linked, rfl, -, hl⟩ := h
  intro hn
  rcases List.mem_cons.mp hn with hn | hn
  · cases hn
    exact hne rfl
  · obtain ⟨y, d, k, hy, -, hd, -⟩ := hl _ hn
    cases hy
    exact Nat.lt_irrefl 0 hd

theorem still_attempt {s : Script} (ht : Timed r s) {x : Rule} (hx : x ∈ s.rules.rules)
    (hne : x ≠ r) (o : Occasion) (w : World) : Still r s (s.attempt o x w) where
  timer := fun _ => timer?_attempt_of_ne (ht.id_ne hx hne) o s w
  silent := by
    intro n
    have h := attempts_attempt o x s w
    by_cases ho : s.outcome o x w = .fired
    · exact silent_of_firing hne (h.journal ho) n
    · rw [h.silent ho]
      exact List.not_mem_nil
  unclocked := (attempts_attempt o x s w).unpolled.clocked r

theorem still_heard (s : Script) (w : World) (signal : Signal) :
    Still r s { script := s, world := w, journal := [.heard signal] } where
  timer := fun _ => rfl
  silent := by simp
  unclocked := rfl

theorem still_react {s : Script} (ht : Timed r s) (w : World) (signal : Signal) {x : Rule}
    (hx : x ∈ s.rules.rules) (hne : x ≠ r) : Still r s (s.react signal x w) := by
  unfold react
  split
  · exact still_attempt ht hx hne _ w
  · exact still_of_timer w rfl

theorem timer?_initTimers_of_ne {rules : List Rule} (h : ∀ x ∈ rules, x.id ≠ r.id) (s : Script) :
    (initTimers rules s).timer? r = s.timer? r := by
  unfold initTimers
  apply List.foldlRecOn (motive := fun t : Script => t.timer? r = s.timer? r)
  · rfl
  · intro t ih x hx
    rw [← ih]
    unfold initTimer
    split
    · exact timer?_insert_of_ne (h x hx) _
    · unfold timer?
      dsimp only
      rw [Std.ExtTreeMap.getElem?_erase, if_neg (by simpa using h x hx)]

theorem timer?_resetState {s : Script} (hids : (s.rules.rules.map (·.id)).Nodup)
    (hr : r ∈ s.rules.rules) (hsurvives : r.survivesReset = true) :
    s.resetState.timer? r = s.timer? r :=
  timer?_initTimers_of_ne (id_ne_of_renewed hids hr hsurvives) _

theorem still_renewed {s : Script} (ht : Timed r s) (w : World) :
    Still r s { script := s.resetState, world := w, journal := [.reset] } where
  timer := by
    rintro (hr | hn)
    · exact timer?_resetState ht.distinct ht.mem hr
    · exact absurd List.mem_cons_self hn
  silent := by simp
  unclocked := rfl

theorem still_settled (s : Script) (w : World) : Still r s (s.settle w) := by
  apply still_of_timer w
  unfold timer?
  rw [(lasts_commitState s).timers]

theorem still_commitLaw (hp : r.isPolled = true) :
    CommitLaw fun s _ p => Timed r s → Still r s p where
  toChains := still_chains
  heard s w signal := fun _ => still_heard s w signal
  react {s x} w signal _ hx := by
    intro ht
    by_cases hxr : x = r
    · unfold react
      rw [if_neg (by simp [hxr, hp])]
      exact still_of_timer w rfl
    · exact still_react ht w signal hx hxr
  renewed _ w := fun ht => still_renewed ht w
  settled s w := fun _ => still_settled s w

theorem untimed_listLaw : ListLaw fun s _ p => p.script.timer? r = s.timer? r where
  join _ h h' := h'.trans h
  aside _ h := timer?_aside h
  resumed _ _ _ _ := rfl
  step {s _ runner} w index _ _ := by
    unfold fireStep
    split
    · rename_i x _
      have h := fires_fireHead runner.rules { owner := s.owner, invoker := runner.invoker } false
        x s w
      unfold timer?
      rw [h.keeps.timers]
    · rfl

theorem silent_listLaw (hlink : r.link.sourceType ≠ .timedActionList) :
    ListLaw fun s _ p => Timed r s → ∀ n, Incident.fired r 0 n ∉ p.journal where
  join hk h h' := by
    intro ht n hn
    rcases List.mem_append.mp hn with hn | hn
    · exact h ht n hn
    · exact h' (ht.of_keeps hk) n hn
  aside _ _ := fun _ _ hn => nomatch hn
  resumed _ _ _ _ := by simp
  step {s id runner} w index _ hrunner := by
    intro ht n
    unfold fireStep
    split
    · rename_i x hx
      have h := fires_fireHead runner.rules { owner := s.owner, invoker := runner.invoker } false
        x s w
      have hne : x ≠ r := by
        intro hxr
        apply ht.unlisted hlink id runner.rules hrunner
        rw [← hxr]
        exact List.mem_of_getElem? hx
      by_cases ho : (fireHead runner.rules { owner := s.owner, invoker := runner.invoker } false
          x s w).1 = .fired
      · exact silent_of_firing hne (h.journal ho) n
      · rw [h.silent ho]
        exact List.not_mem_nil
    · exact List.not_mem_nil

/-- The journal of a stretch is empty or begins with a list that takes its turn. -/
def Resumes (p : Progress) : Prop :=
  p.journal = [] ∨ ∃ id due rest, p.journal = .resumed id due :: rest

theorem Resumes.join {p : Progress} {stage : Script → World → Progress} (h : Resumes p)
    (h' : Resumes (stage p.script p.world)) : Resumes (p.andThen stage) := by
  unfold Resumes
  rw [Progress.journal_andThen]
  rcases h with h | ⟨id, due, rest, h⟩
  · rw [h, List.nil_append]
    exact h'
  · rw [h]
    exact .inr ⟨id, due, _, rfl⟩

theorem resumes_advanceList (deltaMs : UInt32) (inCombat : Bool) (id : UInt32) (s : Script)
    (w : World) : Resumes (s.advanceList deltaMs inCombat id w) := by
  unfold advanceList
  split
  · exact .inl rfl
  · dsimp only
    split
    · exact .inr ⟨id, _, _, rfl⟩
    · exact .inr ⟨id, _, _, rfl⟩

theorem resumes_advanceLists (deltaMs : UInt32) (s : Script) (w : World) :
    Resumes (s.advanceLists deltaMs w) := by
  unfold advanceLists
  generalize s.lists.keys = ids
  generalize w.inCombat s.owner = inCombat
  induction ids generalizing s w with
  | nil => exact .inl rfl
  | cons id ids ih =>
    rw [inTurn_cons]
    exact (resumes_advanceList deltaMs inCombat id s w).join (ih _ _)

theorem unpolled_chains : Chains fun _ _ p => Unpolled p.journal where
  join _ h h' := h.append h'
  aside _ _ := fun _ _ _ hm => nomatch hm

theorem unpolled_commitLaw : CommitLaw fun _ _ p => Unpolled p.journal where
  toChains := unpolled_chains
  heard _ _ _ := by simp [Unpolled]
  react {s x} w signal _ _ := by
    unfold react
    split
    · exact (attempts_attempt _ x s w).unpolled
    · exact fun _ _ _ hm => nomatch hm
  renewed _ _ := by simp [Unpolled]
  settled _ _ := fun _ _ _ hm => nomatch hm

theorem unpolled_listLaw : ListLaw fun _ _ p => Unpolled p.journal where
  toChains := unpolled_chains
  resumed _ _ _ _ := by simp [Unpolled]
  step {s _ runner} w index _ _ := by
    unfold fireStep
    split
    · exact (firings_of_passed (fires_fireHead runner.rules _ false _ s w).passed).unpolled
    · exact fun _ _ _ hm => nomatch hm

theorem firings_poll (deltaMs : UInt32) (inCombat : Bool) (x : Rule) (s : Script) (w : World) :
    Firings (s.poll deltaMs inCombat x w).journal := by
  rcases poll_cases deltaMs inCombat x s w with h | ⟨-, h | ⟨-, o, h⟩⟩
  · rw [h]
    exact .nil
  · rw [h]
    exact .nil
  · rw [h]
    exact firings_of_passed (attempts_attempt o x _ w).passed

theorem firings_polls {s : Script} (hs : s.Listed) (rules : List Rule) (deltaMs : UInt32)
    (inCombat : Bool) (w : World) :
    Firings (inTurn (poll deltaMs inCombat) rules s w).journal := by
  have h : Walks (fun _ _ p => Firings p.journal) s w
      (inTurn (poll deltaMs inCombat) rules s w) := by
    apply firings_chains.walks_inTurn hs
    intro x _ t v _ hl
    obtain ⟨hkeeps, hlists, -⟩ := keeps_poll deltaMs inCombat x t v
    exact ⟨hkeeps.toKeeps, hl.of_eq hlists hkeeps.store, firings_poll deltaMs inCombat x t v⟩
  exact h.law

theorem journal_advancePolled (deltaMs : UInt32) (s : Script) (w : World) :
    (s.advancePolled deltaMs w).journal =
      .polled deltaMs s.state.phase (w.inCombat s.owner) ::
        (inTurn (poll deltaMs (w.inCombat s.owner)) s.rules.rules s w).journal := rfl

theorem unpolled_despawn {s : Script} (hs : s.Listed) (w : World) :
    Unpolled (s.despawn w).journal := by
  unfold despawn
  split
  · exact fun _ _ _ hm => nomatch hm
  · apply (unpolled_commitLaw.walks_handleSignal (w := w) hs .despawn).law.append
    simp [retire, Unpolled]

/-- In a pass that is not an ordinary one the own rules take no turns. -/
theorem unpolled_pass {s : Script} (hs : s.Sound) {a : Pass}
    (h : s.despawned = true ∨ a.signal = some .despawn) : Unpolled (s.pass a).journal := by
  unfold pass
  cases hd : s.despawned with
  | true =>
    rw [advance_of_despawned hd]
    exact fun _ _ _ hm => nomatch hm
  | false =>
    rw [hd] at h
    rw [h.resolve_left (by simp), advance_despawn hd]
    have htold := unpolled_commitLaw.walks_handleDeferred (w := a.world) hs.listed
    exact htold.law.append (unpolled_despawn htold.listed _)

/-- In an ordinary pass they take their turns once, when all signals were heard. -/
theorem Course.unpolled {s : Script} {a : Pass} {heard polled listed committed : Progress}
    (h : Course s a heard polled listed committed) (hs : s.Sound) :
    Unpolled heard.journal ∧ Unpolled (listed.journal ++ committed.journal) ∧
      ∃ turns, Unpolled turns ∧ polled.journal =
        .polled a.deltaMs heard.script.state.phase (heard.world.inCombat heard.script.owner) ::
          turns := by
  refine ⟨?_, ?_, ?_⟩
  · rw [h.hear]
    exact (unpolled_commitLaw.walks_hear (w := a.world) hs.listed a.deltaMs a.signal).law
  · rw [h.list, h.commit]
    exact (unpolled_listLaw.walks_advanceLists h.afterPolling.listed a.deltaMs).law.append
      (unpolled_commitLaw.walks_commit h.afterLists.listed).law
  · rw [h.poll, journal_advancePolled]
    exact ⟨_, (firings_polls h.afterHearing.listed _ a.deltaMs _ _).unpolled, rfl⟩

/-- An ordinary pass in a law about a rule with a timer. -/
theorem law_pass {R : Script → Progress → Prop} (L : CommitLaw fun s _ p => Timed r s → R s p)
    {s : Script} (ht : Timed r s) (hs : s.Listed) (hd : s.despawned = false) {a : Pass}
    (hsig : a.signal ≠ some .despawn)
    (hpolled : ∀ t v, Timed r t → t.Listed → R t (t.advancePolled a.deltaMs v))
    (hlisted : ∀ t v, Timed r t → t.Listed → R t (t.advanceLists a.deltaMs v)) :
    R s.taken (s.pass a) := by
  have hstages := L.walks_stages (w := a.world) hs a.deltaMs a.signal
    (fun t v _ hl =>
      have hwalks := lasts_advancePolled (w := v) hl a.deltaMs
      ⟨hwalks.keeps, hwalks.listed, fun ht => hpolled t v ht hl⟩)
    (fun t v _ hl =>
      have hwalks := lasts_listLaw.walks_advanceLists (w := v) hl a.deltaMs
      ⟨hwalks.keeps, hwalks.listed, fun ht => hlisted t v ht hl⟩)
  have hcommit := L.walks_join hstages (L.walks_commit hstages.listed)
  unfold pass
  rw [advance_eq hd a.deltaMs hsig]
  exact hcommit.law (ht.of_keeps (keeps_taken s))

def totalMs : List Pass → Nat
  | [] => 0
  | a :: as => a.deltaMs.toNat + totalMs as

theorem clocked_pass {s : Script} (hs : s.Sound) (hd : s.despawned = false) {a : Pass}
    (hsig : a.signal ≠ some .despawn) :
    ∃ phase inCombat,
      r.clocked (s.pass a).journal = r.credit (.polled a.deltaMs phase inCombat) := by
  obtain ⟨heard, polled, listed, committed, hc⟩ := course_pass hs hd hsig
  obtain ⟨hheard, hlater, turns, hturns, hpolled⟩ := hc.unpolled hs
  refine ⟨heard.script.state.phase, heard.world.inCombat heard.script.owner, ?_⟩
  rw [hc.journal, Rule.clocked_append, Rule.clocked_append, hheard.clocked, hlater.clocked,
    hpolled, Rule.clocked_cons, hturns.clocked, Nat.zero_add, Nat.add_zero]

theorem clocked_pass_le {s : Script} (hs : s.Sound) (a : Pass) (r : Rule) :
    r.clocked (s.pass a).journal ≤ a.deltaMs.toNat := by
  by_cases h : s.despawned = true ∨ a.signal = some .despawn
  · rw [(unpolled_pass hs h).clocked r]
    exact Nat.zero_le _
  · rw [not_or, Bool.not_eq_true] at h
    obtain ⟨phase, inCombat, hclocked⟩ := clocked_pass (r := r) hs h.1 h.2
    rw [hclocked]
    exact r.credit_le a.deltaMs phase inCombat

theorem clocked_run_le {s : Script} (hs : s.Sound) (as : List Pass) (r : Rule) :
    r.clocked (s.run as).2 ≤ totalMs as := by
  induction as generalizing s with
  | nil => exact Nat.le_refl _
  | cons a as ih =>
    rw [run_cons]
    have hpass := clocked_pass_le hs a r
    have hrest := ih (hs.pass a).2
    simp only [Rule.clocked_append, totalMs]
    omega

theorem clocked_run (hgates : ∀ phase inCombat, r.runsIn phase inCombat = true) {s : Script}
    (hs : s.Sound) {as : List Pass} (halive : (s.run as).1.despawned = false) :
    r.clocked (s.run as).2 = totalMs as := by
  induction as generalizing s with
  | nil => rfl
  | cons a as ih =>
    rw [run_cons] at halive ⊢
    obtain ⟨hd, hsig⟩ := ordinary_of_alive hs.listed (alive_of_run halive)
    obtain ⟨phase, inCombat, hclocked⟩ := clocked_pass (r := r) hs hd hsig
    have hcredit : r.credit (.polled a.deltaMs phase inCombat) = a.deltaMs.toNat :=
      if_pos (hgates phase inCombat)
    rw [Rule.clocked_append, hclocked, hcredit, ih (hs.pass a).2 halive]
    rfl

end Script

end TriggerScript
