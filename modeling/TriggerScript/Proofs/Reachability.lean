import TriggerScript.Proofs.Passes

/-!
# Reachable scripts

A script is reached from a fresh one by operations, each in a world of its own. What every operation
keeps holds of all reachable scripts.
-/

namespace TriggerScript

inductive Operation where
  | advance (deltaMs : UInt32) (signal : Option Signal)
  | reset
  | forceFire (id : RuleId)
  | despawn
deriving DecidableEq

structure Call where
  world : World
  op : Operation

structure Pass where
  world : World
  deltaMs : UInt32
  signal : Option Signal

def Pass.call (a : Pass) : Call := { world := a.world, op := .advance a.deltaMs a.signal }

namespace Script

/-- Carry out an operation; forcing an unknown rule does nothing. -/
def operate (s : Script) (w : World) : Operation → Progress
  | .advance deltaMs signal => s.advance deltaMs signal w
  | .reset => s.reset w
  | .forceFire id => (s.forceFire? id w).getD { script := s, world := w }
  | .despawn => s.despawn w

def calls (s : Script) : List Call → Script × List Incident
  | [] => (s, [])
  | c :: cs =>
      let p := s.operate c.world c.op
      let rest := calls p.script cs
      (rest.1, p.journal ++ rest.2)

theorem calls_cons (s : Script) (c : Call) (cs : List Call) :
    s.calls (c :: cs) = (((s.operate c.world c.op).script.calls cs).1,
      (s.operate c.world c.op).journal ++ ((s.operate c.world c.op).script.calls cs).2) := rfl

theorem calls_append (s : Script) (cs ds : List Call) :
    s.calls (cs ++ ds) =
      (((s.calls cs).1.calls ds).1, (s.calls cs).2 ++ ((s.calls cs).1.calls ds).2) := by
  induction cs generalizing s with
  | nil => rfl
  | cons c cs ih =>
    rw [List.cons_append, calls_cons, calls_cons, ih, List.append_assoc]

def pass (s : Script) (a : Pass) : Progress := s.advance a.deltaMs a.signal a.world

def run (s : Script) (as : List Pass) : Script × List Incident := s.calls (as.map Pass.call)

theorem run_cons (s : Script) (a : Pass) (as : List Pass) :
    s.run (a :: as) =
      (((s.pass a).script.run as).1, (s.pass a).journal ++ ((s.pass a).script.run as).2) := rfl

theorem run_append (s : Script) (as bs : List Pass) :
    s.run (as ++ bs) = (((s.run as).1.run bs).1, (s.run as).2 ++ ((s.run as).1.run bs).2) := by
  unfold run
  rw [List.map_append, calls_append]

inductive Reachable : Script → Prop where
  | fresh (owner rules store config rng) : Reachable (fresh owner rules store config rng)
  | operate {s} (w op) : Reachable s → Reachable (s.operate w op).script

theorem Reachable.calls {s : Script} (hs : s.Reachable) (cs : List Call) :
    (s.calls cs).1.Reachable := by
  induction cs generalizing s with
  | nil => exact hs
  | cons c cs ih => exact ih (hs.operate c.world c.op)

theorem operate_of_despawned {s : Script} (hd : s.despawned = true) (w : World) (op : Operation) :
    s.operate w op = { script := s, world := w } := by
  cases op with
  | advance deltaMs signal => exact advance_of_despawned hd deltaMs signal w
  | reset =>
    show s.reset w = { script := s, world := w }
    unfold reset
    rw [if_pos hd]
  | forceFire ruleId =>
    show (s.forceFire? ruleId w).getD { script := s, world := w } = { script := s, world := w }
    unfold forceFire?
    cases s.rules.find? ruleId with
    | none => rfl
    | some rule => rw [Option.map_some, Option.getD_some, if_pos hd]
  | despawn =>
    show s.despawn w = { script := s, world := w }
    unfold despawn
    rw [if_pos hd]

theorem calls_of_despawned {s : Script} (hd : s.despawned = true) (cs : List Call) :
    s.calls cs = (s, []) := by
  induction cs with
  | nil => rfl
  | cons c cs ih =>
    rw [calls_cons, operate_of_despawned hd, ih]
    rfl

theorem run_of_despawned {s : Script} (hd : s.despawned = true) (as : List Pass) :
    s.run as = (s, []) :=
  calls_of_despawned hd _

structure Lasts (s : Script) (w : World) (p : Progress) : Prop where
  despawned : p.script.despawned = s.despawned
  world : w.Becomes p.world

theorem lasts_chains : Chains Lasts where
  join _ h h' := ⟨h'.despawned.trans h.despawned, h.world.trans h'.world⟩
  aside w h := ⟨h.keeps.despawned, .refl w⟩

theorem lasts_commitLaw : CommitLaw Lasts where
  toChains := lasts_chains
  heard _ w _ := ⟨rfl, .refl w⟩
  react {s rule} w signal _ _ := by
    unfold react
    split
    · have h := attempts_attempt
        { owner := s.owner, invoker := signal.invoker, position := signal.position } rule s w
      exact ⟨h.keeps.despawned, h.world⟩
    · exact ⟨rfl, .refl w⟩
  renewed s w := by
    rw [resetState_eq]
    exact ⟨rfl, .refl w⟩
  settled s w := ⟨despawned_commitState s, .refl w⟩

theorem lasts_listLaw : ListLaw Lasts where
  toChains := lasts_chains
  resumed _ w _ _ := ⟨rfl, .refl w⟩
  step {s _ runner} w index _ _ := by
    unfold fireStep
    split
    · rename_i rule _
      have h := fires_fireHead runner.rules { owner := s.owner, invoker := runner.invoker } false
        rule s w
      exact ⟨h.keeps.despawned, h.world⟩
    · exact ⟨rfl, .refl w⟩

theorem lasts_advancePolled {s : Script} {w : World} (hs : s.Listed) (deltaMs : UInt32) :
    Walks Lasts s w (s.advancePolled deltaMs w) := by
  apply lasts_commitLaw.walks_advancePolled hs deltaMs ⟨rfl, .refl w⟩
  intro rule _ t v _
  obtain ⟨hk, -, hw⟩ := keeps_poll deltaMs (w.inCombat s.owner) rule t v
  exact ⟨hk.despawned, hw⟩

theorem lasts_stages {s : Script} {w : World} (hs : s.Listed) (deltaMs : UInt32)
    (signal : Option Signal) : Walks Lasts s.taken w (s.stages deltaMs signal w) := by
  apply lasts_commitLaw.walks_stages hs
  · intro t v _ hl
    exact lasts_advancePolled hl deltaMs
  · intro t v _ hl
    exact lasts_listLaw.walks_advanceLists hl deltaMs

structure Sound (s : Script) : Prop where
  listed : s.Listed
  settled : s.state.staged = {}
  retired : s.despawned = true → s.state.deferred = []

theorem sound_fresh (owner : Handle) (rules : RuleSet) (store : Store) (config : EngineConfig)
    (rng : Rng) : (fresh owner rules store config rng).Sound := by
  unfold fresh
  rw [initTimers_eq]
  refine ⟨?_, rfl, fun _ => rfl⟩
  intro id runner hr
  simp at hr

theorem sound_commit {s : Script} (hs : s.Listed) (hd : s.despawned = false) (w : World) :
    s.Keeps (s.commit w).script ∧ (s.commit w).script.Sound := by
  have h := lasts_commitLaw.walks_commit (w := w) hs
  refine ⟨h.keeps, h.listed, ?_, ?_⟩
  · unfold commit
    split <;> exact staged_commitState _
  · intro hc
    rw [h.law.despawned, hd] at hc
    cases hc

theorem sound_despawn {s : Script} (h : s.Listed) (w : World)
    (hd : s.despawned = true → s.Sound) :
    s.Keeps (s.despawn w).script ∧ (s.despawn w).script.Sound := by
  unfold despawn
  split
  · rename_i hdead
    exact ⟨.refl s, hd hdead⟩
  · have hlast := (lasts_commitLaw.walks_handleSignal (w := w) h .despawn).keeps
    refine ⟨⟨hlast.owner, hlast.store, hlast.rules, hlast.config⟩, ?_, rfl, fun _ => rfl⟩
    intro id runner hr
    simp [retire] at hr

theorem sound_advance {s : Script} (h : s.Sound) (w : World) (deltaMs : UInt32)
    (signal : Option Signal) :
    s.Keeps (s.advance deltaMs signal w).script ∧ (s.advance deltaMs signal w).script.Sound := by
  cases hd : s.despawned with
  | true =>
    rw [advance_of_despawned hd]
    exact ⟨.refl s, h⟩
  | false =>
    by_cases hsig : signal = some .despawn
    · rw [hsig, advance_despawn hd, Progress.script_andThen]
      have htold := lasts_commitLaw.walks_handleDeferred (w := w) h.listed
      have hdespawn := sound_despawn htold.listed (s.handleDeferred w).world
        (fun hdead => by rw [htold.law.despawned, despawned_taken, hd] at hdead; cases hdead)
      exact ⟨((keeps_taken s).trans htold.keeps).trans hdespawn.1, hdespawn.2⟩
    · rw [advance_eq hd deltaMs hsig, Progress.script_andThen]
      have hstages := lasts_stages (w := w) h.listed deltaMs signal
      generalize s.stages deltaMs signal w = p at hstages ⊢
      have hcommit := sound_commit hstages.listed
        (by rw [hstages.law.despawned, despawned_taken, hd]) p.world
      exact ⟨((keeps_taken s).trans hstages.keeps).trans hcommit.1, hcommit.2⟩

theorem sound_operate {s : Script} (h : s.Sound) (w : World) (op : Operation) :
    s.Keeps (s.operate w op).script ∧ (s.operate w op).script.Sound := by
  cases op with
  | advance deltaMs signal => exact sound_advance h w deltaMs signal
  | reset =>
    change s.Keeps (s.reset w).script ∧ (s.reset w).script.Sound
    unfold reset
    split
    · exact ⟨.refl s, h⟩
    · rename_i hd
      have hover := lasts_commitLaw.walks_startOver (s := s) (w := w)
      have hcommit := sound_commit hover.listed (by simpa [hover.law.despawned] using hd)
        (s.startOver w).world
      exact ⟨hover.keeps.trans hcommit.1, hcommit.2⟩
  | forceFire id =>
    change s.Keeps ((s.forceFire? id w).getD _).script ∧ ((s.forceFire? id w).getD _).script.Sound
    unfold forceFire?
    cases s.rules.find? id with
    | none => exact ⟨.refl s, h⟩
    | some rule =>
      rw [Option.map_some, Option.getD_some]
      split
      · exact ⟨.refl s, h⟩
      · rename_i hd
        have hfires := (fires_fireHead s.rules { owner := s.owner } true rule s w).keeps
        have hcommit := sound_commit (h.listed.of_eq hfires.lists hfires.store)
          (by simpa [hfires.despawned] using hd)
          (fireHead s.rules { owner := s.owner } true rule s w).2.world
        exact ⟨hfires.toKeeps.trans hcommit.1, hcommit.2⟩
  | despawn => exact sound_despawn h.listed w fun _ => h

theorem Sound.calls {s : Script} (h : s.Sound) (cs : List Call) :
    s.Keeps (s.calls cs).1 ∧ (s.calls cs).1.Sound := by
  induction cs generalizing s with
  | nil => exact ⟨.refl s, h⟩
  | cons c cs ih =>
    have hc := sound_operate h c.world c.op
    have hcs := ih hc.2
    exact ⟨hc.1.trans hcs.1, hcs.2⟩

theorem Sound.run {s : Script} (h : s.Sound) (as : List Pass) :
    s.Keeps (s.run as).1 ∧ (s.run as).1.Sound :=
  h.calls _

theorem Sound.pass {s : Script} (h : s.Sound) (a : Pass) :
    s.Keeps (s.pass a).script ∧ (s.pass a).script.Sound :=
  sound_advance h a.world a.deltaMs a.signal

/-- A pass that leaves a script alive is an ordinary one. -/
theorem ordinary_of_alive {s : Script} (hs : s.Listed) {a : Pass}
    (h : (s.pass a).script.despawned = false) :
    s.despawned = false ∧ a.signal ≠ some .despawn := by
  unfold pass at h
  cases hd : s.despawned with
  | true =>
    rw [advance_of_despawned hd, hd] at h
    cases h
  | false =>
    refine ⟨rfl, ?_⟩
    intro hsig
    rw [hsig, advance_despawn hd, Progress.script_andThen] at h
    have htold := (lasts_commitLaw.walks_handleDeferred (w := a.world) hs).law.despawned
    rw [despawned_taken, hd] at htold
    unfold despawn at h
    rw [htold, if_neg (by simp)] at h
    cases h

theorem alive_of_run {s : Script} {as : List Pass} (h : (s.run as).1.despawned = false) :
    s.despawned = false := by
  cases hd : s.despawned with
  | true =>
    rw [run_of_despawned hd, hd] at h
    cases h
  | false => rfl

/-- The stages of an ordinary pass: what is heard, the turns of the own rules, the lists, and the
commit. -/
structure Course (s : Script) (a : Pass) (heard polled listed committed : Progress) : Prop where
  hear : heard = s.hear a.deltaMs a.signal a.world
  poll : polled = heard.script.advancePolled a.deltaMs heard.world
  list : listed = polled.script.advanceLists a.deltaMs polled.world
  commit : committed = listed.script.commit listed.world
  script : (s.pass a).script = committed.script
  world : (s.pass a).world = committed.world
  journal : (s.pass a).journal =
    heard.journal ++ (polled.journal ++ (listed.journal ++ committed.journal))
  afterHearing : Walks Lasts s.taken a.world heard
  afterPolling : Walks Lasts heard.script heard.world polled
  afterLists : Walks Lasts polled.script polled.world listed
  afterCommit : Walks Lasts listed.script listed.world committed

theorem course_pass {s : Script} (hs : s.Sound) (hd : s.despawned = false) {a : Pass}
    (hsig : a.signal ≠ some .despawn) :
    ∃ heard polled listed committed, Course s a heard polled listed committed := by
  have heq := advance_eq hd a.deltaMs hsig a.world
  have hhear := lasts_commitLaw.walks_hear (w := a.world) hs.listed a.deltaMs a.signal
  unfold stages at heq
  generalize hp : s.hear a.deltaMs a.signal a.world = p at heq hhear
  have hpoll := lasts_advancePolled (w := p.world) hhear.listed a.deltaMs
  have hlist := lasts_listLaw.walks_advanceLists
    (w := (p.script.advancePolled a.deltaMs p.world).world) hpoll.listed a.deltaMs
  refine ⟨p, _, _, _, hp.symm, rfl, rfl, rfl, ?_, ?_, ?_, hhear, hpoll, hlist,
    lasts_commitLaw.walks_commit hlist.listed⟩
  · unfold pass
    rw [heq]
    rfl
  · unfold pass
    rw [heq]
    rfl
  · unfold pass
    rw [heq]
    simp only [Progress.journal_andThen, Progress.script_andThen, Progress.world_andThen,
      List.append_assoc]

theorem Reachable.sound {s : Script} (h : s.Reachable) : s.Sound := by
  induction h with
  | fresh owner rules store config rng => exact sound_fresh owner rules store config rng
  | operate w op _ ih => exact (sound_operate ih w op).2

end Script

end TriggerScript
