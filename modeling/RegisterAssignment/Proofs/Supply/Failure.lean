import RegisterAssignment.Proofs.Supply.Release
import RegisterAssignment.Target.File
import RegisterAssignment.Target.Scripted
import RegisterAssignment.Target.Virtual

/-! How the actions of a supply fail. A discerning target uses the error for an invalid release when
it refuses a release, and only then. On such a target making a register never fails with that error,
although registers may be released on the way, and releasing one never fails with another. -/

namespace RegisterAssignment

variable {s σ κ α β : Type}

/-- A target whose errors tell whether it was a release that it refused. -/
structure Discerning (σ : Type) {κ : Type} [Target σ κ] : Prop where
  describe : ∀ (t : σ) (ty : Ty) name, Target.describe t ty ≠ .error (.invalidFree name)
  take : ∀ (wanted : Descriptor κ) (t : σ) name,
    (Target.take wanted t).result ≠ .error (.invalidFree name)
  giveBack : ∀ (held : Hardware κ) (t : σ) e, (Target.giveBack held t).result = .error e →
    ∃ name, e = .invalidFree name

/-- The virtual target never refuses a release. -/
theorem discerning_virtual : Discerning Virtual where
  describe t ty name := by
    change Virtual.describe t ty ≠ _
    rw [Virtual.describe]
    split <;> nofun
  take _ _ _ := nofun
  giveBack _ _ _ := nofun

/-- A register file refuses a release only as invalid, and a request only as exhausted. -/
theorem discerning_file : Discerning File where
  describe t ty name := by
    change File.describe t ty ≠ _
    rw [File.describe]
    split <;> nofun
  take wanted t name := by
    change (File.take wanted t).result ≠ _
    rw [File.take]
    split <;> nofun
  giveBack held t e h := by
    change (File.giveBack held t).result = _ at h
    rw [File.giveBack] at h
    split at h <;> cases h
    exact ⟨_, rfl⟩

/-- A script refuses releases only as invalid. -/
theorem discerning_scripted : Discerning Scripted where
  describe t ty name := by
    change Scripted.describe t ty ≠ _
    unfold Scripted.describe
    split
    any_goals split
    all_goals nofun
  take wanted t name := by
    change (Scripted.take wanted t).result ≠ _
    rw [Scripted.take]
    split <;> nofun
  giveBack held t e h := by
    change (Scripted.giveBack held t).result = _ at h
    rw [Scripted.giveBack] at h
    split at h <;> cases h
    exact ⟨_, rfl⟩

namespace Action

/-- An action that never fails as an invalid release. -/
def NeverInvalid (x : Action s κ α) : Prop :=
  ∀ state name, (x state).result ≠ .error (.invalidFree name)

/-- One after the other, neither action fails so. -/
theorem NeverInvalid.bind {x : Action s κ α} {f : α → Action s κ β} (h : NeverInvalid x)
    (hNext : ∀ b, NeverInvalid (f b)) : NeverInvalid (x >>= f) := by
  intro state name
  cases hResult : (x state).result with
  | ok b =>
      rw [bind_apply_of_ok hResult]
      exact hNext b _ name
  | error e =>
      rw [bind_apply_of_error hResult]
      intro hName
      cases hName
      exact h state name hResult

/-- The failure of what cleans up is not the failure of the action. -/
theorem NeverInvalid.cleaningUp {x : Action s κ α} (h : NeverInvalid x) (y : Action s κ Unit) :
    NeverInvalid (x.cleaningUp y) := by
  intro state name
  cases hResult : (x state).result with
  | ok b =>
      rw [cleaningUp_of_ok hResult]
      exact h state name
  | error e =>
      rw [cleaningUp_of_error hResult]
      intro hName
      cases hName
      exact h state name hResult

end Action

namespace Supply

open RegisterAssignment.Action (NeverInvalid)

theorem neverInvalid_constant (descriptor : Descriptor κ) (literal : Literal) :
    NeverInvalid (constant descriptor literal : Action (Supply σ) κ (Register κ)) :=
  fun _ _ => nofun

theorem neverInvalid_compound (fields : List Ty) (children : List (Register κ)) :
    NeverInvalid (compound fields children : Action (Supply σ) κ (Register κ)) :=
  fun _ _ => nofun

theorem neverInvalid_unsupported (ty : Ty) :
    NeverInvalid (Action.fail ty.unsupported : Action (Supply σ) κ (Register κ)) :=
  fun _ _ => nofun

variable [Target σ κ]

theorem neverInvalid_describe (h : Discerning σ) (ty : Ty) :
    NeverInvalid (describe ty : Action (Supply σ) κ (Descriptor κ)) :=
  fun state => h.describe state.target ty

/-- Taking a register may fail, but not as a release. -/
theorem neverInvalid_hardware (h : Discerning σ) (wanted : Descriptor κ) :
    NeverInvalid (hardware wanted : Action (Supply σ) κ (Register κ)) := by
  intro state name hResult
  rw [hardware_result] at hResult
  cases hTake : (Target.take wanted state.target).result with
  | ok held =>
      rw [hTake] at hResult
      cases hResult
  | error e =>
      rw [hTake] at hResult
      cases hResult
      exact h.take wanted state.target name hTake

theorem neverInvalid_placeWhole (h : Discerning σ) (ty : Ty) :
    NeverInvalid (placeWhole ty : Action (Supply σ) κ (Register κ)) :=
  (neverInvalid_describe h ty).bind (neverInvalid_hardware h)

theorem neverInvalid_placeConstant (h : Discerning σ) (root : Value) (literal : Literal) :
    NeverInvalid (placeConstant root literal : Action (Supply σ) κ (Register κ)) := by
  apply (neverInvalid_describe h root.ty).bind
  intro descriptor
  split
  · exact neverInvalid_constant descriptor literal
  · exact fun _ _ => nofun

section Place

variable [RegisterKind κ]

mutual

/-- A structure that cannot be completed fails with the error of the field, whatever is refused
while the fields before it are released. -/
theorem neverInvalid_place (h : Discerning σ) : ∀ ty : Ty,
    NeverInvalid (place ty : Action (Supply σ) κ (Register κ))
  | .void => neverInvalid_unsupported .void
  | .view element space => neverInvalid_unsupported (.view element space)
  | .scalar _ => neverInvalid_placeWhole h _
  | .pointer .. => neverInvalid_placeWhole h _
  | .string => neverInvalid_placeWhole h _
  | .padding _ => (neverInvalid_describe h _).bind fun _ => neverInvalid_hardware h _
  | .struct fields => (neverInvalid_placeFields h [] fields).bind (neverInvalid_compound fields)

theorem neverInvalid_placeFields (h : Discerning σ) : ∀ (placed : List (Register κ))
    (fields : List Ty),
    NeverInvalid (placeFields placed fields : Action (Supply σ) κ (List (Register κ)))
  | _, [] => fun _ _ => nofun
  | placed, field :: rest =>
      ((neverInvalid_place h field).cleaningUp (releaseAll placed)).bind fun child =>
        neverInvalid_placeFields h (placed ++ [child]) rest

end

end Place

/-- Giving leaves up fails as an invalid release or not at all. -/
theorem giveUpAll_error (h : Discerning σ) {leaves : List (Hardware κ)} {state : Supply σ}
    {e : Error} (hResult : (giveUpAll leaves state).result = .error e) :
    ∃ name, e = .invalidFree name := by
  obtain ⟨leaf, _, t, hBack⟩ := exists_of_giveUpAll_error hResult
  exact h.giveBack leaf t e hBack

end Supply

/-- A target that does what another one does, except that it takes every register back. -/
structure Obliging (σ : Type) where
  inner : σ

namespace Obliging

variable [Target σ κ]

instance : Target (Obliging σ) κ where
  describe t ty := Target.describe t.inner ty
  take wanted t :=
    let reply := Target.take wanted t.inner
    ⟨reply.result, ⟨reply.state⟩, reply.log⟩
  giveBack held t :=
    let reply := Target.giveBack held t.inner
    ⟨.ok (), ⟨reply.state⟩, reply.log⟩

/-- Nothing is refused. -/
theorem giveUpAll_result (leaves : List (Hardware κ)) (state : Supply (Obliging σ)) :
    (Supply.giveUpAll leaves state).result = .ok () := by
  induction leaves generalizing state with
  | nil => rfl
  | cons leaf rest ih => exact ih _

end Obliging

end RegisterAssignment
