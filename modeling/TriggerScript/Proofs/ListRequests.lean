import TriggerScript.Proofs.Passes

/-!
# Requests for timed action lists

A commit carries out the requests of its pass one after the other. Each of them starts its list,
starts it over or changes nothing, and leaves the other running lists alone.
-/

namespace TriggerScript

structure ListRunner.StartedBy (r : ListRunner) (q : ListRequest) (rules : RuleSet) : Prop where
  listId : r.listId = q.listId
  rules : r.rules = rules
  cursor : r.cursor = 0
  elapsed : r.elapsed = 0
  mode : r.mode = q.mode
  invoker : r.invoker = q.invoker
  drawn : ∃ g : Rng, r.nextDelay = (g.roll r.delayRange.1 r.delayRange.2).1

theorem ListRunner.startedBy_start (q : ListRequest) (rules : RuleSet) (g : Rng) :
    (start q rules g).1.StartedBy q rules :=
  ⟨rfl, rfl, rfl, rfl, rfl, rfl, g, rfl⟩

namespace Script

variable {s : Script} {q : ListRequest} {rules : RuleSet} {id : UInt32} {r : ListRunner}

/-- Whether a request may start its list: a running one has to be replaceable, and a new one needs
room. -/
def Admits (s : Script) (q : ListRequest) : Prop :=
  if s.lists.contains q.listId then q.allowOverride = true
  else s.lists.size < s.config.maxTimedLists.toNat

theorem admits_of_running (hr : s.lists[q.listId]? = some r) :
    s.Admits q ↔ q.allowOverride = true := by
  have hcontains : s.lists.contains q.listId = true := by
    rw [Std.ExtTreeMap.contains_eq_isSome_getElem?, hr]
    rfl
  rw [Admits, if_pos hcontains]

theorem admits_of_new (hnew : s.lists[q.listId]? = none) :
    s.Admits q ↔ s.lists.size < s.config.maxTimedLists.toNat := by
  have hcontains : ¬s.lists.contains q.listId = true := by
    rw [Std.ExtTreeMap.contains_eq_isSome_getElem?, hnew]
    exact Bool.false_ne_true
  rw [Admits, if_neg hcontains]

theorem startList_of_unknown (h : s.store.timedList? q.listId = none) : s.startList q = s := by
  unfold startList
  rw [h]
  exact ite_self s

theorem startList_of_not_admits (h : ¬s.Admits q) : s.startList q = s := by
  unfold startList
  unfold Admits at h
  by_cases hrunning : s.lists.contains q.listId = true
  · rw [if_pos hrunning] at h
    rw [if_pos (by simp [hrunning, h])]
  · rw [if_neg hrunning, Nat.not_lt] at h
    rw [if_neg (by simp [hrunning])]
    cases s.store.timedList? q.listId with
    | none => rfl
    | some rules => exact if_pos (by simp [hrunning, h])

theorem startList_of_admits (hknown : s.store.timedList? q.listId = some rules)
    (h : s.Admits q) :
    s.startList q =
      { s with
        rng := (ListRunner.start q rules s.rng).2
        lists := s.lists.insert q.listId (ListRunner.start q rules s.rng).1 } := by
  unfold startList
  unfold Admits at h
  rw [hknown]
  by_cases hrunning : s.lists.contains q.listId = true
  · rw [if_pos hrunning] at h
    rw [if_neg (by simp [h])]
    exact if_neg (by simp [hrunning])
  · rw [if_neg hrunning] at h
    rw [if_neg (by simp [hrunning])]
    exact if_neg (by simp [h])

theorem startList_cases (s : Script) (q : ListRequest) :
    s.startList q = s ∨
      ∃ rules rng r, s.store.timedList? q.listId = some rules ∧ s.Admits q ∧ r.StartedBy q rules ∧
        s.startList q = { s with rng, lists := s.lists.insert q.listId r } := by
  cases hknown : s.store.timedList? q.listId with
  | none => exact .inl (startList_of_unknown hknown)
  | some rules =>
    by_cases h : s.Admits q
    · exact .inr ⟨rules, _, _, rfl, h, ListRunner.startedBy_start q rules s.rng,
        startList_of_admits hknown h⟩
    · exact .inl (startList_of_not_admits h)

/-- The policy by which a request turns `s` into `t`. -/
structure Answers (s : Script) (q : ListRequest) (t : Script) : Prop where
  spared : ∀ r, s.lists[q.listId]? = some r → q.allowOverride = false → t = s
  replaced : ∀ r, s.lists[q.listId]? = some r → q.allowOverride = true →
    ∃ rules r', s.store.timedList? q.listId = some rules ∧ t.lists[q.listId]? = some r' ∧
      r'.StartedBy q rules
  unknown : s.store.timedList? q.listId = none → t = s
  full : s.lists[q.listId]? = none → s.config.maxTimedLists.toNat ≤ s.lists.size → t = s
  started : ∀ rules, s.store.timedList? q.listId = some rules → s.lists[q.listId]? = none →
    s.lists.size < s.config.maxTimedLists.toNat →
    ∃ r', t.lists[q.listId]? = some r' ∧ r'.StartedBy q rules
  others : ∀ id, id ≠ q.listId → t.lists[id]? = s.lists[id]?

theorem lists_startList_of_admits (hknown : s.store.timedList? q.listId = some rules)
    (h : s.Admits q) :
    ∃ r, (s.startList q).lists[q.listId]? = some r ∧ r.StartedBy q rules := by
  rw [startList_of_admits hknown h]
  exact ⟨_, Std.ExtTreeMap.getElem?_insert_self, ListRunner.startedBy_start q rules s.rng⟩

theorem lists_startList_of_ne (hne : id ≠ q.listId) :
    (s.startList q).lists[id]? = s.lists[id]? := by
  rcases startList_cases s q with h | ⟨rules, rng, r, -, -, -, h⟩
  · rw [h]
  · rw [h, Std.ExtTreeMap.getElem?_insert, if_neg (by simpa using hne.symm)]

theorem answers_startList (hs : s.Listed) (q : ListRequest) : s.Answers q (s.startList q) where
  spared r hr hspared := by
    apply startList_of_not_admits
    rw [admits_of_running hr, hspared]
    exact Bool.false_ne_true
  replaced r hr hoverride := by
    have hknown := hs q.listId r hr
    obtain ⟨r', hr', hstarted⟩ :=
      lists_startList_of_admits hknown ((admits_of_running hr).mpr hoverride)
    exact ⟨r.rules, r', hknown, hr', hstarted⟩
  unknown := startList_of_unknown
  full hnew hfull := by
    apply startList_of_not_admits
    rw [admits_of_new hnew]
    exact Nat.not_lt.mpr hfull
  started rules hknown hnew hroom :=
    lists_startList_of_admits hknown ((admits_of_new hnew).mpr hroom)
  others id hne := lists_startList_of_ne hne

theorem size_startList_le (h : s.lists.size ≤ s.config.maxTimedLists.toNat) (q : ListRequest) :
    (s.startList q).lists.size ≤ s.config.maxTimedLists.toNat := by
  rcases startList_cases s q with heq | ⟨rules, rng, r, -, hadmits, -, heq⟩
  · rw [heq]
    exact h
  · rw [heq]
    unfold Admits at hadmits
    change (s.lists.insert q.listId r).size ≤ _
    rw [Std.ExtTreeMap.size_insert]
    split at hadmits
    · rename_i hrunning
      rw [if_pos hrunning]
      exact h
    · rename_i hrunning
      rw [if_neg hrunning]
      exact hadmits

theorem foldl_startList {β : Type} (read : Script → β)
    (h : ∀ t q, read (startList t q) = read t) (s : Script) (qs : List ListRequest) :
    read (qs.foldl startList s) = read s := by
  induction qs generalizing s with
  | nil => rfl
  | cons q qs ih => rw [List.foldl_cons, ih, h]

theorem config_startList (t : Script) (q : ListRequest) : (t.startList q).config = t.config :=
  (aside_startList t q).keeps.config

theorem store_startList (t : Script) (q : ListRequest) : (t.startList q).store = t.store :=
  (aside_startList t q).keeps.store

theorem state_startList (t : Script) (q : ListRequest) : (t.startList q).state = t.state := by
  rcases startList_cases t q with h | ⟨rules, rng, r, -, -, -, h⟩ <;> rw [h]

theorem size_startLists_le (h : s.lists.size ≤ s.config.maxTimedLists.toNat)
    (qs : List ListRequest) :
    (qs.foldl startList s).lists.size ≤ s.config.maxTimedLists.toNat := by
  induction qs generalizing s with
  | nil => exact h
  | cons q qs ih =>
    have hq := size_startList_le h q
    rw [← config_startList s q] at hq ⊢
    exact ih hq

theorem listed_startLists (h : s.Listed) (qs : List ListRequest) :
    (qs.foldl startList s).Listed := by
  apply List.foldlRecOn (motive := Listed)
  · exact h
  · intro t ht q _
    exact listed_startList ht q

/-- Requests spare a running list that none of them may replace. -/
theorem lists_startLists_of_spared {qs : List ListRequest} (hr : s.lists[id]? = some r)
    (hspared : ∀ q ∈ qs, q.listId = id → q.allowOverride = false) :
    (qs.foldl startList s).lists[id]? = some r := by
  induction qs generalizing s with
  | nil => exact hr
  | cons q qs ih =>
    rw [List.foldl_cons]
    have hrest : ∀ q' ∈ qs, q'.listId = id → q'.allowOverride = false :=
      fun q' hq' => hspared q' (List.mem_cons_of_mem q hq')
    apply ih _ hrest
    by_cases hid : q.listId = id
    · have hoverride := hspared q List.mem_cons_self hid
      have hrefused : ¬s.Admits q := by
        rw [admits_of_running (hid ▸ hr), hoverride]
        exact Bool.false_ne_true
      rw [startList_of_not_admits hrefused]
      exact hr
    · rw [lists_startList_of_ne (Ne.symm hid)]
      exact hr

/-- A list that runs after some requests ran before them or was started by one of them. -/
theorem lists_startLists {qs : List ListRequest}
    (h : (qs.foldl startList s).lists[id]? = some r) :
    s.lists[id]? = some r ∨ ∃ q ∈ qs, ∃ rules, q.listId = id ∧
      s.store.timedList? id = some rules ∧ r.StartedBy q rules := by
  induction qs generalizing s with
  | nil => exact .inl h
  | cons q qs ih =>
    rw [List.foldl_cons] at h
    rcases ih h with hbefore | ⟨q', hq', rules, hid, hknown, hstarted⟩
    · by_cases hid : id = q.listId
      · rcases startList_cases s q with heq | ⟨rules, rng, r', hknown, -, hstarted, heq⟩
        · rw [heq] at hbefore
          exact .inl hbefore
        · rw [heq, hid, Std.ExtTreeMap.getElem?_insert_self] at hbefore
          cases hbefore
          exact .inr ⟨q, List.mem_cons_self, rules, hid.symm, hid ▸ hknown, hstarted⟩
      · rw [lists_startList_of_ne hid] at hbefore
        exact .inl hbefore
    · rw [store_startList] at hknown
      exact .inr ⟨q', List.mem_cons_of_mem q hq', rules, hid, hknown, hstarted⟩

/-- A running list that a request may replace is started over, by one of the requests that may. -/
theorem lists_startLists_of_overridden (hs : s.Listed) {qs : List ListRequest}
    (hr : s.lists[id]? = some r)
    (hoverride : ∃ q ∈ qs, q.listId = id ∧ q.allowOverride = true) :
    ∃ q ∈ qs, ∃ r', q.listId = id ∧ q.allowOverride = true ∧
      (qs.foldl startList s).lists[id]? = some r' ∧ r'.StartedBy q r.rules := by
  induction qs generalizing s r with
  | nil =>
    obtain ⟨q, hq, -⟩ := hoverride
    cases hq
  | cons q qs ih =>
    rw [List.foldl_cons]
    have hq : ∃ r', (s.startList q).lists[id]? = some r' ∧ r'.rules = r.rules ∧
        (q.listId = id → q.allowOverride = true → r'.StartedBy q r.rules) := by
      by_cases hid : q.listId = id
      · subst hid
        cases hmay : q.allowOverride with
        | false =>
          rw [(answers_startList hs q).spared r hr hmay]
          exact ⟨r, hr, rfl, fun _ h => nomatch h⟩
        | true =>
          obtain ⟨rules, r', hknown, hr', hstarted⟩ := (answers_startList hs q).replaced r hr hmay
          rw [hs q.listId r hr] at hknown
          cases hknown
          exact ⟨r', hr', hstarted.rules, fun _ _ => hstarted⟩
      · rw [lists_startList_of_ne (Ne.symm hid)]
        exact ⟨r, hr, rfl, fun h => absurd h hid⟩
    obtain ⟨r', hr', hrules, hfresh⟩ := hq
    by_cases hlater : ∃ q' ∈ qs, q'.listId = id ∧ q'.allowOverride = true
    · obtain ⟨q', hq', r'', hid, hmay, hr'', hstarted⟩ := ih (listed_startList hs q) hr' hlater
      exact ⟨q', List.mem_cons_of_mem q hq', r'', hid, hmay, hr'', hrules ▸ hstarted⟩
    · -- No later request may replace the list, so the first one is the last to do so.
      obtain ⟨q', hq', hid, hmay⟩ := hoverride
      have hfirst : q' = q := by
        rcases List.mem_cons.mp hq' with heq | hmem
        · exact heq
        · exact absurd ⟨q', hmem, hid, hmay⟩ hlater
      subst hfirst
      refine ⟨q', hq', r', hid, hmay, ?_, hfresh hid hmay⟩
      apply lists_startLists_of_spared hr'
      intro q'' hq'' hid''
      rw [← Bool.not_eq_true]
      exact fun hmay'' => hlater ⟨q'', hq'', hid'', hmay''⟩

end Script

end TriggerScript
