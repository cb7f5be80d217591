import RegisterAssignment.Proofs.Action
import RegisterAssignment.Supply
import RegisterAssignment.Value

/-! Making registers. Each kind of register is made by one action, and these equations say what
the action returns and what becomes of the target. -/

namespace RegisterAssignment.Supply

variable {σ κ α : Type}

@[simp] theorem tally_target (f : Stats → Stats) (s : Supply σ) :
    (tally f s).target = s.target := by
  unfold tally
  split <;> rfl

@[simp] theorem tally_made (f : Stats → Stats) (s : Supply σ) : (tally f s).made = s.made := by
  unfold tally
  split <;> rfl

@[simp] theorem tally_counting (f : Stats → Stats) (s : Supply σ) :
    (tally f s).counting = s.counting := by
  unfold tally
  split <;> rfl

@[simp] theorem tally_stats (f : Stats → Stats) (s : Supply σ) :
    (tally f s).stats = if s.counting then f s.stats else s.stats := by
  unfold tally
  split <;> rfl

theorem compound_result (fields : List Ty) (children : List (Register κ)) (s : Supply σ) :
    (compound fields children s).result = .ok (.compound (.allocated s.made) fields children) := by
  change Except.ok (Register.compound (.allocated (tally _ s).made) fields children) = _
  rw [tally_made]

theorem compound_target (fields : List Ty) (children : List (Register κ)) (s : Supply σ) :
    (compound fields children s).state.target = s.target :=
  tally_target _ _

/-- The common end of all actions that make a register. -/
theorem count_origin_apply (f : Stats → Stats) (make : Origin → Register κ) (s : Supply σ) :
    (do
      count f
      let origin ← freshOrigin
      return make origin : Action (Supply σ) κ (Register κ)) s =
      ⟨.ok (make (.allocated s.made)), { tally f s with made := s.made + 1 }, [], []⟩ := by
  change Outcome.mk (Except.ok (make (.allocated (tally f s).made)))
    { tally f s with made := (tally f s).made + 1 } [] [] = _
  rw [tally_made]

/-- Everything that making a compound does: it is counted and numbered. -/
theorem compound_apply (fields : List Ty) (children : List (Register κ)) (s : Supply σ) :
    compound fields children s = ⟨.ok (.compound (.allocated s.made) fields children),
      { tally (fun stats => { stats with compoundsBuilt := stats.compoundsBuilt + 1 }) s with
        made := s.made + 1 }, [], []⟩ :=
  count_origin_apply _ (fun origin => .compound origin fields children) s

/-- Everything that making a constant does. -/
theorem constant_apply (descriptor : Descriptor κ) (literal : Literal) (s : Supply σ) :
    constant descriptor literal s = ⟨.ok (.constant (.allocated s.made) descriptor literal),
      { tally (fun stats => { stats with constantsBound := stats.constantsBound + 1 }) s with
        made := s.made + 1 }, [], []⟩ :=
  count_origin_apply _ (fun origin => .constant origin descriptor literal) s

theorem constant_result (descriptor : Descriptor κ) (literal : Literal) (s : Supply σ) :
    (constant descriptor literal s).result =
      .ok (.constant (.allocated s.made) descriptor literal) := by
  change Except.ok (Register.constant (.allocated (tally _ s).made) descriptor literal) = _
  rw [tally_made]

theorem constant_target (descriptor : Descriptor κ) (literal : Literal) (s : Supply σ) :
    (constant descriptor literal s).state.target = s.target :=
  tally_target _ _

variable [Target σ κ]

def placeWhole (ty : Ty) : Action (Supply σ) κ (Register κ) := do hardware (← describe ty)

/-- Makes a constant for a value, if the target represents the value by the type of the
literal. -/
def placeConstant (root : Value) (literal : Literal) : Action (Supply σ) κ (Register κ) := do
  let descriptor ← describe root.ty
  if descriptor.basic = some literal.scalar then
    constant descriptor literal
  else
    let basic := BasicType.text descriptor.basic
    Action.fail (.codegen
      s!"constant {literal.text} does not fit register of {root.text} ({basic})")

/-- Describing a type adds a call and leaves the supply as it is. -/
theorem describe_bind_of_ok {ty : Ty} {s : Supply σ} {descriptor : Descriptor κ}
    (h : Target.describe s.target ty = .ok descriptor) (f : Descriptor κ → Action (Supply σ) κ α) :
    (describe ty >>= f) s = { f descriptor s with
      calls := .describe ty (.ok descriptor) :: (f descriptor s).calls } := by
  rw [Action.bind_apply_of_ok (x := describe ty) h]
  simp only [describe, h]
  rfl

/-- If the target refuses to describe a type, nothing else happens. -/
theorem describe_bind_of_error {ty : Ty} {s : Supply σ} {e : Error}
    (h : Target.describe s.target ty = .error e) (f : Descriptor κ → Action (Supply σ) κ α) :
    (describe ty >>= f) s = ⟨.error e, s, [.describe ty (.error e)], []⟩ := by
  rw [Action.bind_apply_of_error (x := describe ty) h]
  simp only [describe, h]

/-- A target register becomes a register with an origin of its own. -/
theorem hardware_result (wanted : Descriptor κ) (s : Supply σ) :
    (hardware wanted s).result =
      (Target.take wanted s.target).result.map (.hardware (.allocated s.made)) := by
  cases h : (Target.take wanted s.target).result with
  | ok held =>
      rw [hardware, Action.bind_apply_of_ok (x := take wanted) h]
      change Except.ok (Register.hardware (.allocated (tally _ _).made) held) = _
      rw [tally_made]
      rfl
  | error e =>
      rw [hardware, Action.bind_apply_of_error (x := take wanted) h]
      rfl

/-- Everything that making a target register does if the target hands one out. -/
theorem silent_hardware_of_ok {wanted : Descriptor κ} {s : Supply σ} {held : Hardware κ}
    (h : (Target.take wanted s.target).result = .ok held) :
    (hardware wanted s).silent = ⟨.ok (.hardware (.allocated s.made) held),
      { tally (fun stats => { stats with hardwareAllocated := stats.hardwareAllocated + 1 })
        { s with target := (Target.take wanted s.target).state } with made := s.made + 1 },
      [.take wanted (.ok held)], []⟩ := by
  rw [hardware, Action.bind_apply_of_ok (x := take wanted) h, count_origin_apply, ← h]
  rfl

/-- If the target hands out none, nothing is counted or numbered. -/
theorem silent_hardware_of_error {wanted : Descriptor κ} {s : Supply σ} {e : Error}
    (h : (Target.take wanted s.target).result = .error e) :
    (hardware wanted s).silent = ⟨.error e,
      { s with target := (Target.take wanted s.target).state }, [.take wanted (.error e)], []⟩ := by
  rw [hardware, Action.bind_apply_of_error (x := take wanted) h, ← h]
  rfl

/-- Whether or not it succeeds, the target is as the request for a register has left it. -/
theorem hardware_target (wanted : Descriptor κ) (s : Supply σ) :
    (hardware wanted s).state.target = (Target.take wanted s.target).state := by
  cases h : (Target.take wanted s.target).result with
  | ok held =>
      rw [hardware, Action.bind_apply_of_ok (x := take wanted) h]
      exact tally_target _ _
  | error e =>
      rw [hardware, Action.bind_apply_of_error (x := take wanted) h]
      rfl

end RegisterAssignment.Supply
