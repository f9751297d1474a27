import Mathlib.Logic.Basic
import TriggerScript.Row.Decode

/-!
# What decoding guarantees

A row that is decoded has passed the checks of its columns: its ranges are in order, its masks and
flags have no unknown bit, its phases exist, and its event suits the domain.
-/

namespace TriggerScript

theorem bind_eq_ok {ε α β : Type} {x : Except ε α} {f : α → Except ε β} {b : β} :
    (x >>= f) = .ok b ↔ ∃ a, x = .ok a ∧ f a = .ok b := by
  cases x with
  | error e => simp [bind, Except.bind]
  | ok a => simp [bind, Except.bind]

theorem bind_eq_error {ε α β : Type} {x : Except ε α} {f : α → Except ε β} {e : ε} :
    (x >>= f) = .error e ↔ x = .error e ∨ ∃ a, x = .ok a ∧ f a = .error e := by
  cases x with
  | error e' => simp [bind, Except.bind]
  | ok a => simp [bind, Except.bind]

theorem and_eq_self_of_and_not_eq_zero {bits mask : UInt32} (h : bits &&& ~~~mask = 0) :
    bits &&& mask = bits := by
  have hbits : bits.toBitVec &&& ~~~mask.toBitVec = 0#32 := congrArg UInt32.toBitVec h
  apply UInt32.toBitVec_inj.mp
  change bits.toBitVec &&& mask.toBitVec = bits.toBitVec
  ext i hi
  have hbit := congrArg (·.getLsbD i) hbits
  simp at hbit
  grind

theorem toUInt32_ne_zero {bits : Int64} (hne : bits ≠ 0) (hlow : 0 ≤ bits)
    (hhigh : bits < 0x100000000) : bits.toUInt64.toUInt32 ≠ 0 := by
  have hlow : 0 ≤ bits.toInt := Int64.le_iff_toInt_le.mp hlow
  have hhigh : bits.toInt < 0x100000000 := Int64.lt_iff_toInt_lt.mp hhigh
  have hword : bits.toInt = (bits.toUInt64.toNat : Int) := by
    have hsigned : bits.toInt = _ := BitVec.toInt_eq_toNat_cond bits.toBitVec
    split at hsigned
    · exact hsigned
    · have hlt := bits.toBitVec.isLt
      omega
  intro hzero
  have hmod : bits.toUInt64.toNat % 2 ^ 32 = 0 := by simpa using congrArg UInt32.toNat hzero
  apply hne
  apply Int64.toInt_inj.mp
  change bits.toInt = 0
  omega

theorem toUInt8_le_of_le {word : UInt32} {bound : UInt8} (h : word ≤ bound.toUInt32) :
    word.toUInt8 ≤ bound := by
  have hbound := bound.toNat_lt
  have hword : word.toNat ≤ bound.toNat := by simpa using UInt32.le_iff_toNat_le.mp h
  rw [UInt8.le_iff_toNat_le, UInt32.toNat_toUInt8]
  omega

structure PhaseMask.Proper (m : PhaseMask) : Prop where
  nonempty : m.isEmpty = false
  known : m.bits &&& PhaseMask.all.bits = m.bits

theorem PhaseMask.proper_of_ofBits? {bits : UInt32} {m : PhaseMask} (h : ofBits? bits = some m)
    (hne : m.isEmpty = false ∨ bits ≠ 0) : m.Proper := by
  unfold ofBits? at h
  split at h
  · rename_i hbits
    cases h
    have hknown := and_eq_self_of_and_not_eq_zero hbits
    refine ⟨hne.elim id ?_, ?_⟩
    · intro hne
      have hle : bits.toNat ≤ 0x0FFF := by
        rw [← hknown, UInt32.toNat_and]
        exact Nat.and_le_right
      apply beq_eq_false_iff_ne.mpr
      intro hempty
      have hmod : bits.toNat % 2 ^ 16 = 0 := by simpa using congrArg UInt16.toNat hempty
      apply hne
      apply UInt32.toNat_inj.mp
      change bits.toNat = 0
      omega
    · change bits.toUInt16 &&& (0x0FFF : UInt32).toUInt16 = bits.toUInt16
      rw [← UInt32.toUInt16_and, hknown]
  · cases h

def PhaseGate.WellFormed : PhaseGate → Prop
  | .always => True
  | .phases mask => mask.Proper

theorem PhaseGate.wellFormed_of_decode {column : Option PhaseColumn} {gate : PhaseGate}
    (h : decode column = .ok gate) : gate.WellFormed := by
  unfold decode at h
  split at h
  case h_1 =>
    cases h
    trivial
  case h_2 word =>
    split at h
    · cases h
      trivial
    · cases h
  case h_3 bits =>
    split at h
    · cases h
    · rename_i hne
      dsimp only at h
      split at h
      · rename_i mask hmask
        cases h
        split at hmask
        · rename_i hrange
          exact PhaseMask.proper_of_ofBits? hmask (.inr (toUInt32_ne_zero hne hrange.1 hrange.2))
        · cases hmask
      · cases h

def EventFlags.Known (flags : EventFlags) : Prop := flags.bits &&& 0x39F = flags.bits

theorem EventFlags.known_of_ofBits? {bits : UInt32} {flags : EventFlags}
    (h : ofBits? bits = some flags) : flags.Known := by
  unfold ofBits? at h
  split at h
  · rename_i hbits
    cases h
    change bits.toUInt16 &&& (0x39F : UInt32).toUInt16 = bits.toUInt16
    rw [← UInt32.toUInt16_and, and_eq_self_of_and_not_eq_zero hbits]
  · cases h

def CastFlags.Known (flags : CastFlags) : Prop := flags.bits &&& 0x63 = flags.bits

theorem CastFlags.known_of_decode {bits : UInt32} {flags : CastFlags}
    (h : decode bits = .ok flags) : flags.Known := by
  unfold decode ofBits? at h
  split at h
  · rename_i hflags
    split at hflags
    · rename_i hbits
      cases hflags
      cases h
      change bits.toUInt8 &&& (0x63 : UInt32).toUInt8 = bits.toUInt8
      rw [← UInt32.toUInt8_and, and_eq_self_of_and_not_eq_zero hbits]
    · cases hflags
  · cases h

def Event.WellFormed : Event → Prop
  | .updateIc min max | .updateOoc min max | .update min max | .range min max | .damaged min max
  | .damagedTarget min max | .receiveHeal min max => min ≤ max
  | .healthPct min max | .manaPct min max | .targetHealthPct min max | .targetManaPct min max
  | .friendlyHealthPct min max _ => min ≤ max ∧ max ≤ 100
  | .targetBuffed _ count => count ≠ 0
  | .distanceCreature guid entry _ | .distanceGameObject guid entry _ => guid ≠ 0 ∨ entry ≠ 0
  | .eventPhaseChange mask => mask.Proper
  | _ => True

theorem orderedRange_eq_ok {kind : String} {min max : UInt32} {range : UInt32 × UInt32}
    (h : orderedRange kind min max = .ok range) : range = (min, max) ∧ min ≤ max := by
  unfold orderedRange at h
  split at h
  · cases h
  · rename_i hle
    cases h
    exact ⟨rfl, UInt32.not_lt.mp hle⟩

theorem percentRange_eq_ok {kind : String} {min max : UInt32} {range : UInt32 × UInt32}
    (h : percentRange kind min max = .ok range) : range = (min, max) ∧ min ≤ max ∧ max ≤ 100 := by
  unfold percentRange at h
  obtain ⟨_, hrange, h⟩ := bind_eq_ok.mp h
  obtain ⟨rfl, hordered⟩ := orderedRange_eq_ok hrange
  dsimp only at h
  split at h
  · cases h
  · rename_i hle
    cases h
    exact ⟨rfl, hordered, UInt32.not_lt.mp hle⟩

theorem Event.wellFormed_of_decode {kind p1 p2 p3 p4 : UInt32} {e : Event}
    (h : Event.decode kind p1 p2 p3 p4 = .ok e) : e.WellFormed := by
  unfold Event.decode at h
  split at h
  -- Most kinds check nothing, or one range.
  all_goals try (cases h <;> trivial)
  all_goals try (
    obtain ⟨_, hrange, h⟩ := bind_eq_ok.mp h
    first
    | obtain ⟨rfl, hordered⟩ := orderedRange_eq_ok hrange
      cases h
      exact hordered
    | obtain ⟨rfl, hpercent⟩ := percentRange_eq_ok hrange
      cases h
      exact hpercent
    | cases h
      trivial)
  case h_25 =>
    cases h
    change (if p2 = 0 then 1 else p2) ≠ 0
    split
    · decide
    · assumption
  case h_61 =>
    split at h
    · rename_i mask hmask
      cases h
      obtain ⟨hbits, hnonempty⟩ := Option.filter_eq_some_iff.mp hmask
      exact PhaseMask.proper_of_ofBits? hbits (.inl (by simpa using hnonempty))
    · cases h
  all_goals
    split at h
    · cases h
    · rename_i hgiven
      cases h
      exact Decidable.not_and_iff_or_not.mp hgiven

def Target.WellFormed : Target → Prop
  | .creatureRange _ min max _ | .gameObjectRange _ min max _ | .playerRange min max _ _ =>
      min ≤ max
  | .closestCreature _ max _ | .closestGameObject _ max | .closestPlayer max _
  | .closestEnemy max _ _ | .closestFriendly max _ _ => max ≠ 0
  | _ => True

theorem Target.inRange_eq_ok {kind : String} {min max : UInt32} {target t : Target}
    (h : inRange kind min max target = .ok t) : t = target ∧ min ≤ max := by
  unfold inRange at h
  split at h
  · cases h
  · rename_i hle
    cases h
    exact ⟨rfl, UInt32.not_lt.mp hle⟩

theorem Target.searchRange_ne_zero (max : UInt32) : searchRange max ≠ 0 := by
  unfold searchRange
  split
  · decide
  · assumption

theorem Target.wellFormed_of_decode {kind p1 p2 p3 p4 : UInt32} {t : Target}
    (h : Target.decode kind p1 p2 p3 p4 = .ok t) : t.WellFormed := by
  unfold Target.decode at h
  split at h
  all_goals try (cases h <;> trivial)
  all_goals first
    | obtain ⟨rfl, hordered⟩ := Target.inRange_eq_ok h
      exact hordered
    | cases h
      exact searchRange_ne_zero _

def TargetDescriptor.WellFormed (d : TargetDescriptor) : Prop := d.target.WellFormed

theorem TargetDescriptor.wellFormed_of_decode {kind p1 p2 p3 p4 : UInt32} {literal : Position}
    {d : TargetDescriptor} (h : decode kind p1 p2 p3 p4 literal = .ok d) : d.WellFormed := by
  unfold decode at h
  cases htarget : Target.decode kind p1 p2 p3 p4 with
  | error fault =>
    rw [htarget] at h
    cases h
  | ok target =>
    rw [htarget] at h
    cases h
    exact Target.wellFormed_of_decode htarget

/-- The parameters of an action are within bounds. -/
def Action.WellFormed : Action → Prop
  | .setReactState state => state ≤ 2
  | .randomEmote emotes => emotes ≠ [] ∧ 0 ∉ emotes
  | .cast _ flags | .selfCast _ flags => flags.Known
  | .crossCast _ flags casters => flags.Known ∧ casters.WellFormed
  | .setInvincibilityHpLevel _ percent => percent ≤ 100
  | .setEventPhase phase => phase ≤ maxPhase
  | .incEventPhase inc dec => (inc = 0 ↔ dec ≠ 0) ∧ inc ≤ maxPhase ∧ dec ≤ maxPhase
  | .randomPhase phases => phases ≠ [] ∧ ∀ phase ∈ phases, 1 ≤ phase ∧ phase ≤ maxPhase
  | .randomPhaseRange min max => min ≤ max ∧ max ≤ maxPhase
  | .setCounter counter _ _ => counter ≠ 0
  | .createTimedEvent _ initialMin initialMax repeatMin repeatMax chance =>
      initialMin ≤ initialMax ∧ repeatMin ≤ repeatMax ∧ chance ≠ 0 ∧ chance ≤ 100
  | .callRandomTimedActionList lists => lists ≠ [] ∧ 0 ∉ lists
  | .callRandomRangeTimedActionList min max => min ≤ max
  | _ => True

theorem decodePhase_eq_ok {kind : String} {raw : UInt32} {phase : UInt8}
    (h : decodePhase kind raw = .ok phase) :
    phase.toNat = raw.toNat ∧ phase ≤ maxPhase := by
  unfold decodePhase at h
  split at h
  · cases h
  · rename_i hraw
    cases h
    have hle : raw.toNat ≤ 12 := UInt32.le_iff_toNat_le.mp (UInt32.not_lt.mp hraw)
    have hsame : raw.toUInt8.toNat = raw.toNat := by
      rw [UInt32.toNat_toUInt8]
      omega
    refine ⟨hsame, ?_⟩
    rw [UInt8.le_iff_toNat_le, hsame]
    exact hle

theorem decodePhase_eq_zero_iff {kind : String} {raw : UInt32} {phase : UInt8}
    (h : decodePhase kind raw = .ok phase) : phase = 0 ↔ raw = 0 := by
  rw [← UInt8.toNat_inj, ← UInt32.toNat_inj, (decodePhase_eq_ok h).1]
  rfl

theorem le_of_checkOrdered {kind : String} {min max : UInt32}
    (h : checkOrdered kind min max = .ok ()) : min ≤ max := by
  unfold checkOrdered at h
  split at h
  · cases h
  · rename_i hle
    exact UInt32.not_lt.mp hle

theorem decodeChoices_eq_ok {kind : String} {fault : ParamFault} {words chosen : List UInt32}
    (h : decodeChoices kind fault words = .ok chosen) : chosen ≠ [] ∧ 0 ∉ chosen := by
  unfold decodeChoices at h
  split at h
  · cases h
  · rename_i hne
    cases h
    refine ⟨hne, ?_⟩
    intro hzero
    simpa using (List.mem_filter.mp hzero).2

theorem mapM_decodePhase {kind : String} {words : List UInt32} {phases : List UInt8}
    (h : words.mapM (decodePhase kind) = .ok phases) (hwords : 0 ∉ words) :
    phases.length = words.length ∧ ∀ phase ∈ phases, 1 ≤ phase ∧ phase ≤ maxPhase := by
  induction words generalizing phases with
  | nil =>
    cases h
    simp
  | cons word words ih =>
    rw [List.mapM_cons] at h
    obtain ⟨phase, hphase, h⟩ := bind_eq_ok.mp h
    obtain ⟨rest, hrest, h⟩ := bind_eq_ok.mp h
    cases h
    rw [List.mem_cons, not_or] at hwords
    obtain ⟨hlength, hbounds⟩ := ih hrest hwords.2
    refine ⟨by simp [hlength], ?_⟩
    intro p hp
    rcases List.mem_cons.mp hp with rfl | hp
    · have hne : p ≠ 0 := fun hzero => hwords.1 ((decodePhase_eq_zero_iff hphase).mp hzero).symm
      exact ⟨UInt8.not_lt.mp fun hlt => hne (UInt8.lt_one_iff.mp hlt), (decodePhase_eq_ok hphase).2⟩
    · exact hbounds p hp

theorem Action.wellFormed_of_decode {kind p1 p2 p3 p4 p5 p6 : UInt32} {a : Action}
    (h : Action.decode kind p1 p2 p3 p4 p5 p6 = .ok a) : a.WellFormed := by
  unfold Action.decode at h
  split at h
  -- Most kinds check nothing.
  all_goals try (cases h <;> trivial)
  all_goals
    simp only [bind_eq_ok, ite_eq_iff, reduceCtorEq, Except.ok.injEq, and_false, false_or] at h
  case h_9 => -- set_react_state
    obtain ⟨hstate, rfl⟩ := h
    exact UInt32.not_lt.mp hstate
  case h_11 => -- random_emote
    obtain ⟨emotes, hemotes, rfl⟩ := h
    exact decodeChoices_eq_ok hemotes
  case h_12 => -- cast
    obtain ⟨flags, hflags, rfl⟩ := h
    exact CastFlags.known_of_decode hflags
  case h_19 => -- set_event_phase
    obtain ⟨phase, hphase, rfl⟩ := h
    exact (decodePhase_eq_ok hphase).2
  case h_20 => -- inc_event_phase
    obtain ⟨hsides, inc, hinc, dec, hdec, rfl⟩ := h
    refine ⟨?_, (decodePhase_eq_ok hinc).2, (decodePhase_eq_ok hdec).2⟩
    rw [decodePhase_eq_zero_iff hinc, Ne, decodePhase_eq_zero_iff hdec]
    by_cases h1 : p1 = 0 <;> by_cases h2 : p2 = 0 <;> simp_all
  case h_26 => -- random_phase
    obtain ⟨words, hwords, phases, hphases, rfl⟩ := h
    obtain ⟨hne, hzero⟩ := decodeChoices_eq_ok hwords
    obtain ⟨hlength, hbounds⟩ := mapM_decodePhase hphases hzero
    refine ⟨?_, hbounds⟩
    intro hnil
    rw [hnil] at hlength
    exact hne (List.length_eq_zero_iff.mp hlength.symm)
  case h_27 => -- random_phase_range
    obtain ⟨_, hordered, min, hmin, max, hmax, rfl⟩ := h
    refine ⟨?_, (decodePhase_eq_ok hmax).2⟩
    rw [UInt8.le_iff_toNat_le, (decodePhase_eq_ok hmin).1, (decodePhase_eq_ok hmax).1]
    exact UInt32.le_iff_toNat_le.mp (le_of_checkOrdered hordered)
  case h_34 => -- set_invincibility_hp_level
    obtain ⟨hpercent, rfl⟩ := h
    exact UInt32.not_lt.mp hpercent
  case h_46 => -- set_counter
    obtain ⟨hcounter, rfl⟩ := h
    exact hcounter
  case h_50 => -- create_timed_event
    obtain ⟨_, hinitial, _, hrepeat, hchance, rfl⟩ := h
    refine ⟨le_of_checkOrdered hinitial, le_of_checkOrdered hrepeat, ?_⟩
    split
    · exact ⟨by decide, by decide⟩
    · exact ⟨by assumption, UInt32.not_lt.mp hchance⟩
  case h_56 => -- call_timed_action_list
    obtain ⟨mode, -, rfl⟩ := h
    trivial
  case h_58 => -- self_cast
    obtain ⟨flags, hflags, rfl⟩ := h
    exact CastFlags.known_of_decode hflags
  case h_59 => -- cross_cast
    obtain ⟨flags, hflags, casters, hcasters, rfl⟩ := h
    exact ⟨CastFlags.known_of_decode hflags, TargetDescriptor.wellFormed_of_decode hcasters⟩
  case h_60 => -- call_random_timed_action_list
    obtain ⟨lists, hlists, rfl⟩ := h
    exact decodeChoices_eq_ok hlists
  case h_61 => -- call_random_range_timed_action_list
    obtain ⟨_, hordered, rfl⟩ := h
    exact le_of_checkOrdered hordered

structure EventSpec.WellFormed (spec : EventSpec) (source : SourceType) : Prop where
  event : spec.event.WellFormed
  phase : spec.phase.WellFormed
  flags : spec.flags.Known
  chance : spec.chance ≤ 100
  cooldown : spec.cooldownMin ≤ spec.cooldownMax
  listed : source = .timedActionList → spec.event.isUpdate = true
  inScope : source ≠ .timedActionList → spec.event.scope.contains (.of source) = true

structure ActionStep.WellFormed (step : ActionStep) : Prop where
  action : step.action.WellFormed
  target : ∀ target, step.target = some target → target.WellFormed

structure Rule.WellFormed (r : Rule) : Prop where
  spec : r.spec.WellFormed r.link.sourceType
  nonempty : r.actions ≠ []
  actions : ∀ step ∈ r.actions, step.WellFormed
  target : r.target.WellFormed
  linkTo : r.linkTo ≠ some 0

namespace Row

theorem isUpdate_of_checkScope {event : Event}
    (h : checkScope .timedActionList event = .ok ()) : event.isUpdate = true := by
  unfold checkScope at h
  rw [if_pos rfl] at h
  split at h
  · assumption
  · cases h

theorem inScope_of_checkScope {source : SourceType} {event : Event}
    (h : checkScope source event = .ok ()) (hsource : source ≠ .timedActionList) :
    event.scope.contains (.of source) = true := by
  unfold checkScope at h
  rw [if_neg hsource] at h
  split at h
  · assumption
  · cases h

theorem wellFormed_of_decodeEvent {r : Row} {event : Event} (h : r.decodeEvent = .ok event) :
    event.WellFormed := by
  unfold decodeEvent at h
  split at h
  · cases h
  · exact Event.wellFormed_of_decode h

theorem wellFormed_of_decodeSpec {r : Row} {source : SourceType} {spec : EventSpec}
    (h : r.decodeSpec source = .ok spec) : spec.WellFormed source := by
  unfold decodeSpec at h
  obtain ⟨event, hevent, h⟩ := bind_eq_ok.mp h
  obtain ⟨phase, hphase, h⟩ := bind_eq_ok.mp h
  dsimp only at h
  split at h
  · rename_i known hflags
    obtain ⟨flags, hknown, h⟩ := bind_eq_ok.mp h
    cases hknown
    split at h
    · cases h
    · rename_i hchance
      split at h
      · cases h
      · rename_i hcooldown
        obtain ⟨_, hscope, h⟩ := bind_eq_ok.mp h
        cases h
        constructor
        · exact wellFormed_of_decodeEvent hevent
        · exact PhaseGate.wellFormed_of_decode hphase
        · exact EventFlags.known_of_ofBits? hflags
        · exact toUInt8_le_of_le (UInt32.not_lt.mp hchance)
        · exact UInt32.not_lt.mp hcooldown
        · rintro rfl
          exact isUpdate_of_checkScope hscope
        · exact inScope_of_checkScope hscope
  · cases h

theorem wellFormed_of_decodeAction {r : Row} {action : Action} (h : r.decodeAction = .ok action) :
    action.WellFormed :=
  Action.wellFormed_of_decode h

theorem wellFormed_of_decodeTarget {r : Row} {target : TargetDescriptor}
    (h : r.decodeTarget = .ok target) : target.WellFormed := by
  obtain ⟨_, htarget, h⟩ := bind_eq_ok.mp h
  cases h
  exact Target.wellFormed_of_decode htarget

theorem wellFormed_of_decodeRule {r : Row} {rule : Rule} (h : r.decodeRule = .ok rule) :
    rule.WellFormed := by
  unfold decodeRule at h
  dsimp only at h
  split at h
  · obtain ⟨source, -, h⟩ := bind_eq_ok.mp h
    obtain ⟨spec, hspec, h⟩ := bind_eq_ok.mp h
    obtain ⟨action, haction, h⟩ := bind_eq_ok.mp h
    obtain ⟨target, htarget, h⟩ := bind_eq_ok.mp h
    cases h
    constructor
    · exact wellFormed_of_decodeSpec hspec
    · simp
    · intro step hstep
      rw [List.mem_singleton.mp hstep]
      exact ⟨wellFormed_of_decodeAction haction, by simp⟩
    · exact wellFormed_of_decodeTarget htarget
    · simp [Option.filter_eq_some_iff]
  · cases h

theorem wellFormed_of_decodeContinuation {r : Row} {step : ActionStep}
    (h : r.decodeContinuation = .ok step) : step.WellFormed := by
  unfold decodeContinuation at h
  split at h
  · cases h
  · obtain ⟨action, haction, h⟩ := bind_eq_ok.mp h
    have haction := wellFormed_of_decodeAction haction
    split at h
    · cases h
      exact ⟨haction, by simp⟩
    · obtain ⟨target, htarget, h⟩ := bind_eq_ok.mp h
      cases h
      refine ⟨haction, ?_⟩
      intro t ht
      cases ht
      exact wellFormed_of_decodeTarget htarget

end Row

end TriggerScript
