import TriggerScript.Proofs.Decoding

/-!
# Kind numbers

Events, actions and targets are numbered for tables. A number is decoded to values of that number
only, every number of a value can be decoded, and every other number is reported as unknown.
-/

namespace TriggerScript

structure NumbersAgree {P V : Type} (read : UInt32 → P → Except RuleError V)
    (number : V → UInt32) (unknown : UInt32 → RuleError) : Prop where
  kept : ∀ n p v, read n p = .ok v → number v = n
  known : ∀ v p n, read (number v) p ≠ .error (unknown n)
  reached : ∀ v, ∃ p w, read (number v) p = .ok w
  unknown : ∀ n, (∀ v, number v ≠ n) → ∀ p, read n p = .error (unknown n)

/-- Whether a number is unknown does not depend on the parameters; so one example for every number
and one for every value are enough. -/
theorem numbersAgree_of_examples {P V : Type} {read : UInt32 → P → Except RuleError V}
    {number : V → UInt32} {unknown : UInt32 → RuleError}
    (hkept : ∀ n p v, read n p = .ok v → number v = n)
    (hunknown : ∀ n p m, read n p = .error (unknown m) → ∀ q, read n q = .error (unknown n))
    (hreached : ∀ v, ∃ p w, read (number v) p = .ok w)
    (hexample : ∀ n, ∃ p, (∃ w, read n p = .ok w) ∨ read n p = .error (unknown n)) :
    NumbersAgree read number unknown where
  kept := hkept
  known v p n h := by
    obtain ⟨q, w, hw⟩ := hreached v
    have hq := hunknown (number v) p n h q
    rw [hw] at hq
    cases hq
  reached := hreached
  unknown n hn p := by
    obtain ⟨q, ⟨w, hw⟩ | hq⟩ := hexample n
    · exact absurd (hkept n q w hw) (hn w)
    · exact hunknown n q n hq p

-- The checks of parameters fail with faults of the parameters, never with an unknown number.

section Checks

variable {kind : String} {e : RuleError}

@[simp] theorem orderedRange_ne_error (h : ∀ fault, e ≠ .invalidParam kind fault)
    (min max : UInt32) : orderedRange kind min max ≠ .error e := by
  grind [orderedRange]

@[simp] theorem percentRange_ne_error (h : ∀ fault, e ≠ .invalidParam kind fault)
    (min max : UInt32) : percentRange kind min max ≠ .error e := by
  have hrange := orderedRange_ne_error h min max
  simp only [percentRange, ne_eq, bind_eq_error, hrange, false_or]
  grind

@[simp] theorem hostility_ne_error (h : ∀ fault, e ≠ .invalidParam kind fault)
    (mode : UInt32) : LosHostility.decode kind mode ≠ .error e := by
  unfold LosHostility.decode
  split <;> grind

@[simp] theorem inRange_ne_error (h : ∀ fault, e ≠ .invalidParam kind fault)
    (min max : UInt32) (target : Target) : Target.inRange kind min max target ≠ .error e := by
  grind [Target.inRange]

@[simp] theorem decodePhase_ne_error (h : ∀ fault, e ≠ .invalidParam kind fault)
    (raw : UInt32) : decodePhase kind raw ≠ .error e := by
  grind [decodePhase]

@[simp] theorem mapM_decodePhase_ne_error (h : ∀ fault, e ≠ .invalidParam kind fault)
    (words : List UInt32) : words.mapM (decodePhase kind) ≠ .error e := by
  induction words with
  | nil => simp [pure, Except.pure]
  | cons word words ih => simp [List.mapM_cons, bind_eq_error, h, ih, pure, Except.pure]

@[simp] theorem checkOrdered_ne_error (h : ∀ fault, e ≠ .invalidParam kind fault)
    (min max : UInt32) : checkOrdered kind min max ≠ .error e := by
  grind [checkOrdered]

@[simp] theorem decodeChoices_ne_error (h : ∀ fault, e ≠ .invalidParam kind fault)
    (fault : ParamFault) (words : List UInt32) : decodeChoices kind fault words ≠ .error e := by
  grind [decodeChoices]

@[simp] theorem combatGate_ne_error (h : ∀ fault, e ≠ .invalidParam "call_timed_action_list" fault)
    (mode : UInt32) : CombatGate.decode mode ≠ .error e := by
  grind [CombatGate.decode]

@[simp] theorem castFlags_ne_error (h : ∀ bits, e ≠ .unknownCastFlags bits)
    (raw : UInt32) : CastFlags.decode raw ≠ .error e := by
  grind [CastFlags.decode]

end Checks

namespace Event

theorem kindId_of_decode {kind p1 p2 p3 p4 : UInt32} {e : Event}
    (h : decode kind p1 p2 p3 p4 = .ok e) : e.kindId = kind := by
  unfold decode at h
  split at h
  case h_61 => -- event_phase_change
    split at h
    · cases h
      rfl
    · cases h
  -- Most kinds check nothing, or one column.
  all_goals try (cases h <;> rfl)
  all_goals try (
    obtain ⟨_, -, h⟩ := bind_eq_ok.mp h
    cases h
    rfl)
  all_goals
    split at h
    · cases h
    · cases h
      rfl

theorem unknown_of_decode {kind p1 p2 p3 p4 m : UInt32}
    (h : decode kind p1 p2 p3 p4 = .error (.unknownEventKind m)) (q1 q2 q3 q4 : UInt32) :
    decode kind q1 q2 q3 q4 = .error (.unknownEventKind kind) := by
  unfold decode at h
  split at h
  case h_80 => -- the numbers that are left
    unfold decode
    split <;> first | rfl | contradiction
  case h_61 => -- event_phase_change
    split at h <;> cases h
  all_goals simp [bind_eq_error, ite_eq_iff] at h

theorem decode_ones (e : Event) : ∃ f, decode e.kindId 1 1 1 1 = .ok f := by
  cases e with
  | waypoint stage => cases stage <;> exact ⟨_, rfl⟩
  | quest stage => cases stage <;> exact ⟨_, rfl⟩
  | scene stage => cases stage <;> exact ⟨_, rfl⟩
  | onSpell stage => cases stage <;> exact ⟨_, rfl⟩
  | _ => exact ⟨_, rfl⟩

theorem decode_ones_or_unknown (kind : UInt32) :
    (∃ e, decode kind 1 1 1 1 = .ok e) ∨ decode kind 1 1 1 1 = .error (.unknownEventKind kind) := by
  unfold decode
  split
  case h_80 => exact .inr rfl
  all_goals exact .inl ⟨_, rfl⟩

theorem numbersAgree : NumbersAgree
    (fun kind (p : Fin 4 → UInt32) => decode kind (p 0) (p 1) (p 2) (p 3))
    kindId .unknownEventKind :=
  numbersAgree_of_examples (fun _ _ _ => kindId_of_decode)
    (fun _ _ _ h q => unknown_of_decode h (q 0) (q 1) (q 2) (q 3))
    (fun e => ⟨fun _ => 1, decode_ones e⟩)
    (fun kind => ⟨fun _ => 1, decode_ones_or_unknown kind⟩)

end Event

theorem Target.kindId_of_decode {kind p1 p2 p3 p4 : UInt32} {target : Target}
    (h : decode kind p1 p2 p3 p4 = .ok target) (literal : Position) :
    TargetDescriptor.kindId ⟨target, literal⟩ = kind := by
  unfold decode at h
  split at h
  all_goals try (cases h <;> rfl)
  all_goals
    obtain ⟨rfl, -⟩ := inRange_eq_ok h
    rfl

theorem Target.unknown_of_decode {kind p1 p2 p3 p4 m : UInt32}
    (h : decode kind p1 p2 p3 p4 = .error (.unknownTargetKind m)) (q1 q2 q3 q4 : UInt32) :
    decode kind q1 q2 q3 q4 = .error (.unknownTargetKind kind) := by
  unfold decode at h
  split at h
  case h_29 => -- the numbers that are left
    unfold decode
    split <;> first | rfl | contradiction
  all_goals simp at h

namespace TargetDescriptor

theorem decode_eq_ok {kind p1 p2 p3 p4 : UInt32} {literal : Position} {d : TargetDescriptor} :
    decode kind p1 p2 p3 p4 literal = .ok d ↔
      ∃ target, Target.decode kind p1 p2 p3 p4 = .ok target ∧ ⟨target, literal⟩ = d := by
  cases h : Target.decode kind p1 p2 p3 p4 <;> simp [decode, h, Except.map]

theorem decode_eq_error {kind p1 p2 p3 p4 : UInt32} {literal : Position} {e : RuleError} :
    decode kind p1 p2 p3 p4 literal = .error e ↔ Target.decode kind p1 p2 p3 p4 = .error e := by
  cases h : Target.decode kind p1 p2 p3 p4 <;> simp [decode, h, Except.map]

theorem decode_ones (d : TargetDescriptor) (literal : Position) :
    ∃ t, decode d.kindId 1 1 1 1 literal = .ok t := by
  obtain ⟨target, _⟩ := d
  cases target <;> exact ⟨_, rfl⟩

theorem decode_ones_or_unknown (kind : UInt32) (literal : Position) :
    (∃ t, decode kind 1 1 1 1 literal = .ok t) ∨
      decode kind 1 1 1 1 literal = .error (.unknownTargetKind kind) := by
  simp only [decode, Target.decode]
  split
  case h_29 => exact .inr rfl
  all_goals exact .inl ⟨_, rfl⟩

theorem numbersAgree (literal : Position) : NumbersAgree
    (fun kind (p : Fin 4 → UInt32) => decode kind (p 0) (p 1) (p 2) (p 3) literal)
    kindId .unknownTargetKind :=
  numbersAgree_of_examples
    (fun kind p d h => by
      obtain ⟨target, htarget, rfl⟩ := decode_eq_ok.mp h
      exact Target.kindId_of_decode htarget literal)
    (fun kind p m h q => decode_eq_error.mpr
      (Target.unknown_of_decode (decode_eq_error.mp h) (q 0) (q 1) (q 2) (q 3)))
    (fun d => ⟨fun _ => 1, decode_ones d literal⟩)
    (fun kind => ⟨fun _ => 1, decode_ones_or_unknown kind literal⟩)

end TargetDescriptor

namespace Action

theorem kindId_of_decode {kind p1 p2 p3 p4 p5 p6 : UInt32} {a : Action}
    (h : decode kind p1 p2 p3 p4 p5 p6 = .ok a) : a.kindId = kind := by
  unfold decode at h
  split at h
  all_goals try (cases h <;> rfl)
  all_goals
    simp only [bind_eq_ok, ite_eq_iff, reduceCtorEq, Except.ok.injEq, and_false, false_or] at h
  all_goals grind [kindId]

theorem targetDescriptor_ne_error {kind p1 p2 p3 p4 m : UInt32} {literal : Position} :
    TargetDescriptor.decode kind p1 p2 p3 p4 literal ≠ .error (.unknownActionKind m) := by
  intro h
  rw [TargetDescriptor.decode_eq_error] at h
  unfold Target.decode at h
  split at h <;> simp at h

theorem unknown_of_decode {kind p1 p2 p3 p4 p5 p6 m : UInt32}
    (h : decode kind p1 p2 p3 p4 p5 p6 = .error (.unknownActionKind m))
    (q1 q2 q3 q4 q5 q6 : UInt32) :
    decode kind q1 q2 q3 q4 q5 q6 = .error (.unknownActionKind kind) := by
  unfold decode at h
  split at h
  case h_73 => -- the numbers that are left
    unfold decode
    split <;> first | rfl | contradiction
  all_goals simp [bind_eq_error, ite_eq_iff, targetDescriptor_ne_error] at h

/-- All parameters 1 suit every kind of action but one, which counts phases either up or down. -/
theorem exists_decode (a : Action) :
    ∃ (p : Fin 6 → UInt32) (b : Action),
      decode a.kindId (p 0) (p 1) (p 2) (p 3) (p 4) (p 5) = .ok b := by
  cases a with
  | incEventPhase => exact ⟨fun i => if i = 0 then 1 else 0, _, rfl⟩
  | _ => exact ⟨fun _ => 1, _, rfl⟩

theorem exists_decode_or_unknown (kind : UInt32) :
    ∃ p : Fin 6 → UInt32, (∃ a, decode kind (p 0) (p 1) (p 2) (p 3) (p 4) (p 5) = .ok a) ∨
      decode kind (p 0) (p 1) (p 2) (p 3) (p 4) (p 5) = .error (.unknownActionKind kind) := by
  by_cases hinc : kind = 23
  · subst hinc
    exact ⟨fun i => if i = 0 then 1 else 0, .inl ⟨_, rfl⟩⟩
  · refine ⟨fun _ => 1, ?_⟩
    unfold decode
    split
    case h_20 => contradiction
    case h_73 => exact .inr rfl
    all_goals exact .inl ⟨_, rfl⟩

theorem numbersAgree : NumbersAgree
    (fun kind (p : Fin 6 → UInt32) => decode kind (p 0) (p 1) (p 2) (p 3) (p 4) (p 5))
    kindId .unknownActionKind :=
  numbersAgree_of_examples (fun _ _ _ => kindId_of_decode)
    (fun _ _ _ h q => unknown_of_decode h (q 0) (q 1) (q 2) (q 3) (q 4) (q 5))
    exists_decode exists_decode_or_unknown

end Action

/-- Events, actions and targets are decoded from the numbers of their values, and from no others.
The targets inside of actions have numbers of their own. -/
theorem numbers_of_rules_agree (literal : Position) :
    NumbersAgree (fun kind (p : Fin 4 → UInt32) => Event.decode kind (p 0) (p 1) (p 2) (p 3))
        Event.kindId .unknownEventKind ∧
      NumbersAgree
        (fun kind (p : Fin 6 → UInt32) => Action.decode kind (p 0) (p 1) (p 2) (p 3) (p 4) (p 5))
        Action.kindId .unknownActionKind ∧
      NumbersAgree
        (fun kind (p : Fin 4 → UInt32) =>
          TargetDescriptor.decode kind (p 0) (p 1) (p 2) (p 3) literal)
        TargetDescriptor.kindId .unknownTargetKind :=
  ⟨Event.numbersAgree, Action.numbersAgree, TargetDescriptor.numbersAgree literal⟩

example : Event.decode 30 1 1 1 1 = .error (.unknownEventKind 30) := rfl

end TriggerScript
