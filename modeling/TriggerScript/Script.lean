import TriggerScript.Config
import TriggerScript.Dispatch
import TriggerScript.Journal
import TriggerScript.ListRunner
import TriggerScript.Sensing

/-!
# Scripts of entities

A script evaluates the rules of one entity, a pass per tick. A pass handles the signals deferred by
the last commit, then the signal of the tick, the timed events, the polled rules in declaration
order and the timed action lists; the commit comes last. What happens is kept in a journal.
-/

namespace TriggerScript

inductive FireOutcome where
  | fired
  | chanceFailed
  | vetoed
deriving DecidableEq

structure Script where
  owner : Handle
  /-- Where timed action lists come from. -/
  store : Store
  rules : RuleSet
  config : EngineConfig
  rng : Rng
  state : ScriptState := {}
  lists : Std.ExtTreeMap UInt32 ListRunner := ∅
  despawned : Bool := false

/-- A script and its world on the way through a pass, with the journal of the last stretch. -/
structure Progress where
  script : Script
  world : World
  journal : List Incident := []

namespace Progress

def fired (p : Progress) : List Fired := p.journal.filterMap Incident.record?

/-- Continue with a further stretch; the journals add up. -/
def andThen (p : Progress) (stage : Script → World → Progress) : Progress :=
  let q := stage p.script p.world
  { q with journal := p.journal ++ q.journal }

end Progress

namespace Script

/-- The timer of a rule at spawn: polled rules start with a rolled delay, others without a timer. -/
def initTimer (rule : Rule) (s : Script) : Script :=
  if rule.isPolled then
    let (min, max) := rule.event.initialTimer.getD (0, 0)
    let (delay, rng) := s.rng.roll min max
    { s with rng, state := { s.state with timers := s.state.timers.insert rule.id (.dueIn delay) } }
  else { s with state := { s.state with timers := s.state.timers.erase rule.id } }

/-- Set the timers of these rules as at spawn. -/
def initTimers (rules : List Rule) (s : Script) : Script :=
  rules.foldl (fun s rule => s.initTimer rule) s

/-- The script of a new entity, with a generator for its draws. -/
def fresh (owner : Handle) (rules : RuleSet) (store : Store) (config : EngineConfig) (rng : Rng) :
    Script :=
  initTimers rules.rules { owner, store, rules, config, rng }

/-- The script of a new entity. Its draws depend on the seed and on the entity. -/
def create (owner : Handle) (rules : RuleSet) (store : Store) (config : EngineConfig) : Script :=
  fresh owner rules store config (.ofSeed (config.rngSeed.getD 0 ^^^ owner))

/-- Back to the spawn state, except for what rules keep over a reset. -/
def resetState (s : Script) : Script :=
  let renewed := s.rules.rules.filter fun rule => !rule.survivesReset
  let s :=
    { s with
      state := { s.state with
        firedOnce :=
          renewed.foldl (fun marks (rule : Rule) => marks.erase rule.id) s.state.firedOnce } }
  let s := s.initTimers renewed
  { s with state := s.state.clearVolatile, lists := ∅ }

/-- Start the cooldown of a rule that fired or lost its chance. A polled rule without a repeat
interval is exhausted by firing. -/
def rollCooldown (rule : Rule) (outcome : FireOutcome) (s : Script) : Script :=
  let spec := rule.spec
  if rule.isPolled || spec.cooldownMax > 0 then
    let (delay, rng) := s.rng.roll spec.cooldownMin spec.cooldownMax
    let timer : Timer :=
      { nextFireAt := delay
        exhausted := rule.isPolled && spec.cooldownMax == 0 && outcome == .fired }
    { s with rng, state := { s.state with timers := s.state.timers.insert rule.id timer } }
  else s

/-- Whether a set is the script's own one, whose once-only rules leave a mark. Another set of the
same link is not. -/
def owns (s : Script) (set : RuleSet) : Bool :=
  set.link == s.rules.link && set.serial == s.rules.serial

/-- Whether a rule of the script's own set fired before and may not fire again. -/
def isSpent (s : Script) (set : RuleSet) (rule : Rule) : Bool :=
  s.owns set && !rule.isRepeatable && s.state.firedOnce.contains rule.id

def isCharmedAway (s : Script) (w : World) (rule : Rule) : Bool :=
  w.charmed s.owner && !rule.flags.contains .whileCharmed &&
    match rule.event with
    | .charmed _ => false
    | _ => true

/-- Whether something else than chance forbids the rule. -/
def isVetoed (s : Script) (w : World) (set : RuleSet) (rule : Rule) : Bool :=
  !rule.spec.phase.allows s.state.phase || s.isSpent set rule ||
    !rule.flags.allowsDifficulty w.difficulty ||
    (rule.flags.contains .debugOnly && !s.config.debugRules) || s.isCharmedAway w rule

/-- Draw the chance of a rule; a certain or forced rule draws nothing. -/
def losesChance (forced : Bool) (rule : Rule) (s : Script) : Bool × Script :=
  if !forced && rule.spec.chance < 100 then
    let (n, rng) := s.rng.below 100
    (n ≥ rule.spec.chance.toUInt32, { s with rng })
  else (false, s)

/-- Remember a once-only rule of the script's own set. -/
def mark (set : RuleSet) (rule : Rule) (s : Script) : Script :=
  if s.owns set && !rule.isRepeatable then
    { s with state := { s.state with firedOnce := s.state.firedOnce.insert rule.id () } }
  else s

def perform (rule : Rule) (o : Occasion) (depth : Nat) (s : Script) (w : World) : Progress :=
  let d := Dispatch.execute o rule { world := w, state := s.state, rng := s.rng }
  { script := { s with state := d.state, rng := d.rng }
    world := d.world
    journal := [.fired rule depth d.performed] }

/-- Fire a rule of a set and follow its links, at most `links` of them. -/
def fire (set : RuleSet) (o : Occasion) :
    (links : Nat) → (depth : Nat) → (forced : Bool) → Rule → Script → World → FireOutcome × Progress
  | links, depth, forced, rule, s, w =>
      if s.isVetoed w set rule then (.vetoed, { script := s, world := w })
      else
        let draw := s.losesChance forced rule
        if draw.1 then (.chanceFailed, { script := draw.2, world := w })
        else
          let p := (draw.2.mark set rule).perform rule o depth w
          (.fired,
            match links, rule.linkTo.bind set.find? with
            | links + 1, some next =>
                p.andThen fun s w => (fire set o links (depth + 1) false next s w).2
            | _, _ => p)

/-- Fire a rule directly, with as many links as the configuration allows. -/
def fireHead (set : RuleSet) (o : Occasion) (forced : Bool) (rule : Rule) (s : Script)
    (w : World) : FireOutcome × Progress :=
  fire set o s.config.maxLinkDepth.toNat 0 forced rule s w

/-- Fire an own rule whose event holds. Its cooldown starts unless it was vetoed. -/
def attempt (o : Occasion) (rule : Rule) (s : Script) (w : World) : Progress :=
  let (outcome, p) := fireHead s.rules o false rule s w
  if outcome = .vetoed then p else { p with script := p.script.rollCooldown rule outcome }

def inTurn {α : Type} (stage : α → Script → World → Progress) (xs : List α) (s : Script)
    (w : World) : Progress :=
  xs.foldl (fun p x => p.andThen (stage x)) { script := s, world := w }

/-- Whether a pushed rule is off its cooldown. -/
def isReady (s : Script) (rule : Rule) : Bool := s.state.timers[rule.id]?.all (·.isDue)

def react (signal : Signal) (rule : Rule) (s : Script) (w : World) : Progress :=
  if !rule.isPolled && signal.triggers rule.event && s.isReady rule then
    s.attempt { owner := s.owner, invoker := signal.invoker, position := signal.position } rule w
  else { script := s, world := w }

def handleSignal (signal : Signal) (s : Script) (w : World) : Progress :=
  ({ script := s, world := w, journal := [.heard signal] } : Progress).andThen
    (inTurn (react signal) s.rules.rules)

def handleSignals (signals : List Signal) (s : Script) (w : World) : Progress :=
  inTurn handleSignal signals s w

/-- Take the deferred signals of the last commit and handle them. -/
def handleDeferred (s : Script) (w : World) : Progress :=
  handleSignals s.state.deferred { s with state := { s.state with deferred := [] } } w

/-- What becomes of a timed event when time passes: whether it is raised, and the event left. -/
def tickEvent (deltaMs : UInt32) (e : TimedEvent) (g : Rng) : Bool × Option TimedEvent × Rng :=
  let e := { e with elapsed := addSat e.elapsed deltaMs }
  if e.elapsed < e.nextFireAt then (false, some e, g)
  else
    let (raised, g) :=
      if e.chance ≥ 100 then (true, g)
      else
        let (n, g) := g.inRange 0 99
        (decide (n < e.chance), g)
    match e.repeats with
    | some (min, max) =>
        let (delay, g) := g.roll min max
        (raised, some { e with elapsed := 0, nextFireAt := delay }, g)
    | none => (raised, none, g)

/-- Let time pass for timed events in the order of their ids; the ids of those raised come out. -/
def tickEvents (deltaMs : UInt32) (events : List (UInt32 × TimedEvent)) (s : Script) :
    List UInt32 × Script :=
  events.foldl (fun (raised, s) (id, e) =>
    let (isRaised, rest, rng) := tickEvent deltaMs e s.rng
    let timedEvents :=
      match rest with
      | some e => s.state.timedEvents.insert id e
      | none => s.state.timedEvents.erase id
    (if isRaised then raised ++ [id] else raised,
      { s with rng, state := { s.state with timedEvents } })) ([], s)

def advanceTimedEvents (deltaMs : UInt32) (s : Script) (w : World) : Progress :=
  let (raised, s) := tickEvents deltaMs s.state.timedEvents.toList s
  handleSignals (raised.map .timedEventTriggered) s w

def tickTimer (deltaMs : UInt32) (rule : Rule) (s : Script) : Script :=
  { s with state := { s.state with timers := s.state.timers.modify rule.id (·.advance deltaMs) } }

/-- Whether the phase and the combat state let the timer of a polled rule run. -/
def runsTimer (s : Script) (inCombat : Bool) (rule : Rule) : Bool :=
  rule.spec.phase.allows s.state.phase && rule.event.combatGate.allows inCombat

/-- Let time pass for an own rule, and try it when it is polled and due. -/
def poll (deltaMs : UInt32) (inCombat : Bool) (rule : Rule) (s : Script) (w : World) : Progress :=
  if !rule.isPolled then { script := s.tickTimer deltaMs rule, world := w }
  else if !s.runsTimer inCombat rule then { script := s, world := w }
  else
    let s := s.tickTimer deltaMs rule
    if s.state.timers[rule.id]?.any (·.isDue) then
      match w.holds? s.owner rule.event with
      | some hit => s.attempt { owner := s.owner, invoker := hit.invoker } rule w
      | none => { script := s, world := w }
    else { script := s, world := w }

def advancePolled (deltaMs : UInt32) (s : Script) (w : World) : Progress :=
  let inCombat := w.inCombat s.owner
  ({ script := s, world := w, journal := [.polled deltaMs s.state.phase inCombat] } :
    Progress).andThen (inTurn (poll deltaMs inCombat) s.rules.rules)

def fireStep (runner : ListRunner) (index : Nat) (s : Script) (w : World) : Progress :=
  match runner.rules.rules[index]? with
  | some rule =>
      (fireHead runner.rules { owner := s.owner, invoker := runner.invoker } false rule s w).2
  | none => { script := s, world := w }

def dropList (listId : UInt32) (s : Script) (w : World) : Progress :=
  { script := { s with lists := s.lists.erase listId }, world := w }

/-- Advance one timed action list, fire the steps that are due, and drop it when it is finished. -/
def advanceList (deltaMs : UInt32) (inCombat : Bool) (listId : UInt32) (s : Script) (w : World) :
    Progress :=
  match s.lists[listId]? with
  | none => { script := s, world := w }
  | some runner =>
      let (due, runner, rng) := runner.advance deltaMs inCombat s.rng
      let s := { s with rng, lists := s.lists.insert listId runner }
      let p := ({ script := s, world := w, journal := [.resumed listId due] } : Progress).andThen
        (inTurn (fireStep runner) due)
      if runner.isFinished then p.andThen (dropList listId) else p

def advanceLists (deltaMs : UInt32) (s : Script) (w : World) : Progress :=
  inTurn (advanceList deltaMs (w.inCombat s.owner)) s.lists.keys s w

/-- Start a list as requested. A running list is only replaced when the request allows it; a new
one has to be known and within the limit. -/
def startList (s : Script) (request : ListRequest) : Script :=
  let isRunning := s.lists.contains request.listId
  if isRunning && !request.allowOverride then s
  else
    match s.store.timedList? request.listId with
    | none => s
    | some rules =>
        if !isRunning && s.lists.size ≥ s.config.maxTimedLists.toNat then s
        else
          let (runner, rng) := ListRunner.start request rules s.rng
          { s with rng, lists := s.lists.insert request.listId runner }

/-- Commit the staged changes and start the requested lists. -/
def commitState (s : Script) : Script :=
  s.state.staged.lists.foldl startList { s with state := s.state.commit }

def settle (s : Script) (w : World) : Progress := { script := s.commitState, world := w }

/-- Reset the script and let its reset rules react. -/
def startOver (s : Script) (w : World) : Progress :=
  ({ script := s.resetState, world := w, journal := [.reset] } : Progress).andThen
    (handleSignal .reset)

/-- End of a pass. A requested reset is carried out once; what its rules request is ignored. -/
def commit (s : Script) (w : World) : Progress :=
  if s.state.staged.reset then ((s.settle w).andThen startOver).andThen settle else s.settle w

/-- What leaving combat ends: the lists that run in combat. -/
def endCombat (s : Script) : Script :=
  { s with lists := s.lists.filter fun _ runner => runner.mode != .inCombat }

/-- React to the signal of a pass. Some signals end combat or reset the script first. -/
def receive (signal : Option Signal) (s : Script) (w : World) : Progress :=
  match signal with
  | none => { script := s, world := w }
  | some signal =>
      let s := if signal.endsCombat then s.endCombat else s
      if signal.resetsScript then (s.startOver w).andThen (handleSignal signal)
      else if signal = .reset then s.startOver w
      else s.handleSignal signal w

/-- The stages of a pass in which pushed rules react: to the deferred signals, to the signal of the
pass and to the timed events. -/
def hear (deltaMs : UInt32) (signal : Option Signal) (s : Script) (w : World) : Progress :=
  ((s.handleDeferred w).andThen (receive signal)).andThen (advanceTimedEvents deltaMs)

/-- Leave nothing behind that could fire later. -/
def retire (s : Script) (w : World) : Progress where
  script :=
    { s with
      despawned := true
      state := { s.state with timers := ∅, timedEvents := ∅, staged := {}, deferred := [] }
      lists := ∅ }
  world := w
  journal := [.despawned]

/-- Fire the despawn rules once, then retire. -/
def despawn (s : Script) (w : World) : Progress :=
  if s.despawned then { script := s, world := w } else (s.handleSignal .despawn w).andThen retire

def advance (deltaMs : UInt32) (signal : Option Signal) (s : Script) (w : World) : Progress :=
  if s.despawned then { script := s, world := w }
  else if signal = some .despawn then (s.handleDeferred w).andThen despawn
  else
    (((s.hear deltaMs signal w).andThen (advancePolled deltaMs)).andThen
      (advanceLists deltaMs)).andThen commit

def reset (s : Script) (w : World) : Progress :=
  if s.despawned then { script := s, world := w }
  else (s.startOver w).andThen commit

/-- Fire an own rule regardless of its event, cooldown and chance; nothing for an unknown rule. -/
def forceFire? (id : RuleId) (s : Script) (w : World) : Option Progress :=
  (s.rules.find? id).map fun rule =>
    if s.despawned then { script := s, world := w }
    else ((fireHead s.rules { owner := s.owner } true rule s w).2).andThen commit

end Script

end TriggerScript
