import RegisterAssignment.Proofs.Lockstep.Renumber
import RegisterAssignment.Proofs.Supply.Release

/-! Actions in lockstep. Started in related states, two actions make the same calls with the same
answers, end with the same result up to renumbering, and leave related states. For the actions of a
supply it is enough that the states of the target are related and that one supply has made a fixed
number of registers more than the other: the counters have no influence. -/

namespace RegisterAssignment

section Mirrors

variable {s s' κ α α' β β' : Type}

/-- Two outcomes with the same calls, related states, and results that correspond under `f`, errors
included. -/
structure Mirrors (R : s → s' → Prop) (f : α → β) (o : Outcome s κ α) (o' : Outcome s' κ β) :
    Prop where
  result : o'.result = o.result.map f
  state : R o.state o'.state
  calls : o'.calls = o.calls

/-- Two actions whose outcomes mirror each other from all related states. -/
def Lockstep (R : s → s' → Prop) (f : α → β) (x : Action s κ α) (x' : Action s' κ β) : Prop :=
  ∀ ⦃state state'⦄, R state state' → Mirrors R f (x state) (x' state')

variable {R : s → s' → Prop} {f : α → β} {g : α' → β'} {o : Outcome s κ α} {o' : Outcome s' κ β}

/-- An error is mirrored by the same error. -/
theorem Mirrors.error (h : Mirrors R f o o') {e : Error} (hResult : o.result = .error e) :
    o'.result = .error e := by
  rw [h.result, hResult]
  rfl

/-- A value is mirrored by its image. -/
theorem Mirrors.ok (h : Mirrors R f o o') {b : α} (hResult : o.result = .ok b) :
    o'.result = .ok (f b) := by
  rw [h.result, hResult]
  rfl

theorem Mirrors.silent (h : Mirrors R f o o') : Mirrors R f o.silent o'.silent :=
  ⟨h.result, h.state, h.calls⟩

theorem Mirrors.of_silent (h : Mirrors R f o.silent o'.silent) : Mirrors R f o o' :=
  ⟨h.result, h.state, h.calls⟩

theorem Mirrors.map (h : Mirrors R f o o') {k : α → α'} {k' : β → β'}
    (hNext : ∀ b, k' (f b) = g (k b)) : Mirrors R g (o.map k) (o'.map k') := by
  refine ⟨?_, h.state, h.calls⟩
  cases hResult : o.result with
  | error e => simp only [Outcome.map, hResult, h.error hResult, Except.map]
  | ok b => simp only [Outcome.map, hResult, h.ok hResult, Except.map, hNext]

variable {x : Action s κ α} {x' : Action s' κ β}

theorem lockstep_done {b : α} {b' : β} (h : b' = f b) :
    Lockstep R f (Action.done b : Action s κ α) (Action.done b' : Action s' κ β) :=
  fun _ _ hState => ⟨congrArg Except.ok h, hState, rfl⟩

theorem lockstep_fail (e : Error) :
    Lockstep R f (Action.fail e : Action s κ α) (Action.fail e : Action s' κ β) :=
  fun _ _ hState => ⟨rfl, hState, rfl⟩

/-- Whether actions are in lockstep does not depend on what they log. -/
theorem Lockstep.of_silent {y : Action s κ α} {y' : Action s' κ β} (h : Lockstep R f y y')
    (hSame : x.silent = y.silent) (hSame' : x'.silent = y'.silent) : Lockstep R f x x' := by
  intro state state' hState
  apply Mirrors.of_silent
  rw [show (x state).silent = (y state).silent from congrFun hSame state,
    show (x' state').silent = (y' state').silent from congrFun hSame' state']
  exact (h hState).silent

theorem Lockstep.map (h : Lockstep R f x x') {k : α → α'} {k' : β → β'}
    (hNext : ∀ b, k' (f b) = g (k b)) : Lockstep R g (k <$> x) (k' <$> x') := by
  intro state state' hState
  rw [Action.map_apply, Action.map_apply]
  exact (h hState).map hNext

/-- Actions in lockstep stay so with what follows, because they fail together. -/
theorem Lockstep.bind {k : α → Action s κ α'} {k' : β → Action s' κ β'} (h : Lockstep R f x x')
    (hNext : ∀ b, Lockstep R g (k b) (k' (f b))) : Lockstep R g (x >>= k) (x' >>= k') := by
  intro state state' hState
  have hFirst := h hState
  cases hResult : (x state).result with
  | error e =>
      rw [Action.bind_apply_of_error hResult, Action.bind_apply_of_error (hFirst.error hResult)]
      exact ⟨rfl, hFirst.state, hFirst.calls⟩
  | ok b =>
      have hSecond := hNext b hFirst.state
      rw [Action.bind_apply_of_ok hResult, Action.bind_apply_of_ok (hFirst.ok hResult)]
      exact ⟨hSecond.result, hSecond.state, by rw [hFirst.calls, hSecond.calls]⟩

/-- Both parts run whatever happens, so the first error is the same on both sides. -/
theorem Lockstep.both {x y : Action s κ Unit} {x' y' : Action s' κ Unit} (h : Lockstep R id x x')
    (h' : Lockstep R id y y') : Lockstep R id (x.both y) (x'.both y') := by
  intro state state' hState
  have hFirst := h hState
  have hSecond := h' hFirst.state
  refine ⟨?_, hSecond.state, ?_⟩
  · simp only [Action.both, hFirst.result, hSecond.result, Except.map_id, id]
  · simp only [Action.both, hFirst.calls, hSecond.calls]

/-- Cleaning up starts on both sides or on neither. -/
theorem Lockstep.cleaningUp {y : Action s κ Unit} {y' : Action s' κ Unit} (h : Lockstep R f x x')
    (h' : Lockstep R id y y') : Lockstep R f (x.cleaningUp y) (x'.cleaningUp y') := by
  intro state state' hState
  have hFirst := h hState
  cases hResult : (x state).result with
  | ok b =>
      rw [Action.cleaningUp_of_ok hResult, Action.cleaningUp_of_ok (hFirst.ok hResult)]
      exact hFirst
  | error e =>
      have hSecond := h' hFirst.state
      rw [Action.cleaningUp_of_error hResult, Action.cleaningUp_of_error (hFirst.error hResult)]
      exact ⟨rfl, hSecond.state, by rw [hFirst.calls, hSecond.calls]⟩

end Mirrors

variable {σ κ : Type} [Target σ κ]

/-- Target states that are related give the same answers, and stay related. -/
structure Interchangeable (T : σ → σ → Prop) : Prop where
  describe : ∀ {t t'}, T t t' → ∀ ty, Target.describe t' ty = Target.describe t ty
  take : ∀ {t t'}, T t t' → ∀ wanted : Descriptor κ,
    (Target.take wanted t').result = (Target.take wanted t).result ∧
      T (Target.take wanted t).state (Target.take wanted t').state
  giveBack : ∀ {t t'}, T t t' → ∀ held : Hardware κ,
    (Target.giveBack held t').result = (Target.giveBack held t).result ∧
      T (Target.giveBack held t).state (Target.giveBack held t').state

namespace Supply

open Register (shift)

/-- Supplies over related targets, of which the second has made `n` registers more. -/
structure InStep (T : σ → σ → Prop) (n : Nat) (s s' : Supply σ) : Prop where
  target : T s.target s'.target
  made : s'.made = s.made + n

variable {T : σ → σ → Prop} {n : Nat} {s s' : Supply σ}

omit [Target σ κ] in
theorem InStep.tally (h : InStep T n s s') (f : Stats → Stats) :
    InStep T n (s.tally f) (s'.tally f) where
  target := by simpa using h.target
  made := by simpa using h.made

omit [Target σ κ] in
theorem lockstep_count (f : Stats → Stats) :
    Lockstep (InStep T n) id (count f : Action (Supply σ) κ Unit) (count f) :=
  fun _ _ h => ⟨rfl, InStep.tally h f, rfl⟩

omit [Target σ κ] in
/-- Both count something and make one register, which is renumbered. -/
theorem lockstep_count_origin (f : Stats → Stats) {make make' : Origin → Register κ}
    (hMake : ∀ o, make' (o.shift n) = (make o).shift n) :
    Lockstep (InStep T n) (shift n)
      (do
        count f
        let origin ← freshOrigin
        return make origin : Action (Supply σ) κ (Register κ))
      (do
        count f
        let origin ← freshOrigin
        return make' origin : Action (Supply σ) κ (Register κ)) := by
  intro s s' h
  have hTally := h.tally f
  rw [count_origin_apply, count_origin_apply]
  refine ⟨?_, ⟨hTally.target, ?_⟩, rfl⟩
  · simp only [Except.map, h.made, ← hMake, Origin.shift]
  · simp only [h.made]
    omega

omit [Target σ κ] in
theorem lockstep_constant (descriptor : Descriptor κ) (literal : Literal) :
    Lockstep (InStep T n) (shift n) (constant descriptor literal : Action (Supply σ) κ _)
      (constant descriptor literal) :=
  lockstep_count_origin _ fun _ => rfl

omit [Target σ κ] in
/-- A compound is renumbered with its children. -/
theorem lockstep_compound (fields : List Ty) (children : List (Register κ)) :
    Lockstep (InStep T n) (shift n) (compound fields children : Action (Supply σ) κ _)
      (compound fields (children.map (shift n))) :=
  lockstep_count_origin _ fun o => (Register.shift_compound n o fields children).symm

variable (hT : Interchangeable T)

include hT

/-- Related targets describe alike. -/
theorem lockstep_describe (ty : Ty) :
    Lockstep (InStep T n) id (describe ty : Action (Supply σ) κ _) (describe ty) := by
  intro s s' h
  have hSame := hT.describe h.target ty
  refine ⟨?_, h, ?_⟩
  · simp only [describe, hSame, Except.map_id]
    rfl
  · simp only [describe, hSame]

/-- Related targets hand out the same register and stay related. -/
theorem lockstep_take (wanted : Descriptor κ) :
    Lockstep (InStep T n) id (take wanted : Action (Supply σ) κ _) (take wanted) := by
  intro s s' h
  obtain ⟨hSame, hNext⟩ := hT.take h.target wanted
  refine ⟨?_, ⟨hNext, h.made⟩, ?_⟩
  · simp only [take, hSame, Except.map_id]
    rfl
  · simp only [take, hSame]

/-- Related targets take a register back, or refuse it, and stay related. -/
theorem lockstep_giveBack (held : Hardware κ) :
    Lockstep (InStep T n) id (giveBack held : Action (Supply σ) κ _) (giveBack held) := by
  intro s s' h
  obtain ⟨hSame, hNext⟩ := hT.giveBack h.target held
  refine ⟨?_, ⟨hNext, h.made⟩, ?_⟩
  · simp only [giveBack, hSame, Except.map_id]
    rfl
  · simp only [giveBack, hSame]

theorem lockstep_hardware (wanted : Descriptor κ) :
    Lockstep (InStep T n) (shift n) (hardware wanted : Action (Supply σ) κ _) (hardware wanted) :=
  (lockstep_take hT wanted).bind fun _ => lockstep_count_origin _ fun _ => rfl

theorem lockstep_giveUp (held : Hardware κ) :
    Lockstep (InStep T n) id (giveUp held : Action (Supply σ) κ Unit) (giveUp held) :=
  (lockstep_giveBack hT held).bind fun _ => lockstep_count _

theorem lockstep_giveUpAll (leaves : List (Hardware κ)) :
    Lockstep (InStep T n) id (giveUpAll leaves : Action (Supply σ) κ Unit) (giveUpAll leaves) := by
  induction leaves with
  | nil => exact lockstep_done rfl
  | cons leaf rest ih => exact (lockstep_giveUp hT leaf).both ih

theorem lockstep_placeWhole (ty : Ty) :
    Lockstep (InStep T n) (shift n) (placeWhole ty : Action (Supply σ) κ _) (placeWhole ty) :=
  (lockstep_describe hT ty).bind fun descriptor => lockstep_hardware hT descriptor

theorem lockstep_placeConstant (root : Value) (literal : Literal) :
    Lockstep (InStep T n) (shift n) (placeConstant root literal : Action (Supply σ) κ _)
      (placeConstant root literal) := by
  apply (lockstep_describe hT root.ty).bind
  intro descriptor
  dsimp only [id]
  split
  · exact lockstep_constant descriptor literal
  · exact lockstep_fail _

variable [RegisterKind κ]

/-- Renumbered registers have the same leaves to release. -/
theorem lockstep_releaseAll (placed : List (Register κ)) :
    Lockstep (InStep T n) id (releaseAll placed : Action (Supply σ) κ Unit)
      (releaseAll (placed.map (shift n))) := by
  have hLeaves := silent_releaseAll (σ := σ) (placed.map (shift n))
  rw [Register.leavesList_map_shift] at hLeaves
  exact (lockstep_giveUpAll hT _).of_silent (silent_releaseAll placed) hLeaves

mutual

/-- A type is placed on both sides in the same registers up to renumbering, or fails on both with
one error after the same calls. -/
theorem lockstep_place : ∀ ty : Ty,
    Lockstep (InStep T n) (shift n) (place ty : Action (Supply σ) κ _) (place ty)
  | .void => lockstep_fail _
  | .view .. => lockstep_fail _
  | .scalar _ => lockstep_placeWhole hT _
  | .pointer .. => lockstep_placeWhole hT _
  | .string => lockstep_placeWhole hT _
  | .padding _ => (lockstep_describe hT _).bind fun _ => lockstep_hardware hT _
  | .struct fields =>
      (lockstep_placeFields [] fields).bind fun children => lockstep_compound fields children

/-- The same for the fields of a structure, after those that were placed before. -/
theorem lockstep_placeFields : ∀ (placed : List (Register κ)) (fields : List Ty),
    Lockstep (InStep T n) (List.map (shift n)) (placeFields placed fields : Action (Supply σ) κ _)
      (placeFields (placed.map (shift n)) fields)
  | placed, [] => lockstep_done rfl
  | placed, field :: rest => by
      rw [placeFields, placeFields]
      apply ((lockstep_place field).cleaningUp (lockstep_releaseAll hT placed)).bind
      intro child
      have hRest := lockstep_placeFields (placed ++ [child]) rest
      rwa [List.map_append] at hRest

end

end Supply

end RegisterAssignment
