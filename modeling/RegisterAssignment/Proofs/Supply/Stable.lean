import RegisterAssignment.Proofs.Supply.Release

/-! What no action of a supply can change. An action takes registers and gives them back, counts,
and numbers what it makes, and it does nothing else to a supply. So a property that outlasts these
four outlasts every action, one that fails midway and cleans up included. -/

namespace RegisterAssignment.Supply

variable {σ κ α β : Type} {P : Supply σ → Prop}

/-- An action that ends where a property holds if it starts where the property holds. -/
def Keeps (P : Supply σ → Prop) (x : Action (Supply σ) κ α) : Prop := ∀ s, P s → P (x s).state

theorem keeps_done (b : α) : Keeps P (Action.done b : Action (Supply σ) κ α) := fun _ h => h

theorem keeps_fail (e : Error) : Keeps P (Action.fail e : Action (Supply σ) κ α) := fun _ h => h

theorem Keeps.of_silent {x y : Action (Supply σ) κ α} (h : Keeps P y)
    (hSame : x.silent = y.silent) : Keeps P x := by
  intro s hs
  rw [Action.state_eq_of_silent hSame]
  exact h s hs

/-- What both of two actions keep is kept by one after the other. -/
theorem Keeps.bind {x : Action (Supply σ) κ α} {f : α → Action (Supply σ) κ β} (h : Keeps P x)
    (hNext : ∀ b, Keeps P (f b)) : Keeps P (x >>= f) := by
  intro s hs
  cases hResult : (x s).result with
  | ok b =>
      rw [Action.bind_apply_of_ok hResult]
      exact hNext b _ (h s hs)
  | error e =>
      rw [Action.bind_apply_of_error hResult]
      exact h s hs

theorem Keeps.both {x y : Action (Supply σ) κ Unit} (h : Keeps P x) (h' : Keeps P y) :
    Keeps P (x.both y) :=
  fun s hs => h' _ (h s hs)

/-- Cleaning up may not break it either. -/
theorem Keeps.cleaningUp {x : Action (Supply σ) κ α} {y : Action (Supply σ) κ Unit}
    (h : Keeps P x) (h' : Keeps P y) : Keeps P (x.cleaningUp y) := by
  intro s hs
  cases hResult : (x s).result with
  | ok b =>
      rw [Action.cleaningUp_of_ok hResult]
      exact h s hs
  | error e =>
      rw [Action.cleaningUp_of_error hResult]
      exact h' _ (h s hs)

variable [Target σ κ]

/-- A property of supplies that lasts whatever the target is asked to hand out or to take back,
whatever is counted, and however many registers are made. -/
structure Stable (P : Supply σ → Prop) : Prop where
  take : ∀ {s : Supply σ} (wanted : Descriptor κ), P s →
    P { s with target := (Target.take wanted s.target).state }
  giveBack : ∀ {s : Supply σ} (held : Hardware κ), P s →
    P { s with target := (Target.giveBack held s.target).state }
  tally : ∀ {s : Supply σ} (f : Stats → Stats), P s → P (s.tally f)
  number : ∀ {s : Supply σ}, P s → P { s with made := s.made + 1 }

namespace Stable

variable (hP : Stable P)

include hP

theorem keeps_count (f : Stats → Stats) : Keeps P (count f : Action (Supply σ) κ Unit) :=
  fun _ => hP.tally f

theorem keeps_freshOrigin : Keeps P (freshOrigin : Action (Supply σ) κ Origin) :=
  fun _ => hP.number

omit hP in
theorem keeps_describe (ty : Ty) : Keeps P (describe ty : Action (Supply σ) κ (Descriptor κ)) :=
  fun _ h => h

theorem keeps_take (wanted : Descriptor κ) :
    Keeps P (Supply.take wanted : Action (Supply σ) κ (Hardware κ)) :=
  fun _ => hP.take wanted

theorem keeps_giveBack (held : Hardware κ) :
    Keeps P (Supply.giveBack held : Action (Supply σ) κ Unit) :=
  fun _ => hP.giveBack held

/-- All three kinds of registers are made by counting and then numbering one. -/
theorem keeps_count_origin (f : Stats → Stats) (make : Origin → Register κ) :
    Keeps P (do
      count f
      let origin ← freshOrigin
      return make origin : Action (Supply σ) κ (Register κ)) :=
  (hP.keeps_count f).bind fun _ => hP.keeps_freshOrigin.bind fun _ => keeps_done _

theorem keeps_hardware (wanted : Descriptor κ) :
    Keeps P (hardware wanted : Action (Supply σ) κ (Register κ)) :=
  (hP.keeps_take wanted).bind fun _ => hP.keeps_count_origin _ _

theorem keeps_giveUpAll (leaves : List (Hardware κ)) :
    Keeps P (giveUpAll leaves : Action (Supply σ) κ Unit) := by
  induction leaves with
  | nil => exact keeps_done ()
  | cons leaf rest ih =>
      have hLeaf : Keeps P (giveUp leaf : Action (Supply σ) κ Unit) :=
        (hP.keeps_giveBack leaf).bind fun _ => hP.keeps_count _
      exact hLeaf.both ih

theorem keeps_placeWhole (ty : Ty) : Keeps P (placeWhole ty : Action (Supply σ) κ (Register κ)) :=
  (keeps_describe ty).bind hP.keeps_hardware

theorem keeps_placeConstant (root : Value) (literal : Literal) :
    Keeps P (placeConstant root literal : Action (Supply σ) κ (Register κ)) := by
  refine (keeps_describe root.ty).bind ?_
  intro descriptor
  split
  · exact hP.keeps_count_origin _ _
  · exact keeps_fail _

variable [RegisterKind κ]

mutual

/-- A stable property survives placing a type, whether or not that succeeds. -/
theorem keeps_place : ∀ ty : Ty, Keeps P (place ty : Action (Supply σ) κ (Register κ))
  | .void => keeps_fail _
  | .view .. => keeps_fail _
  | .scalar _ => hP.keeps_placeWhole _
  | .pointer .. => hP.keeps_placeWhole _
  | .string => hP.keeps_placeWhole _
  | .padding _ => (keeps_describe _).bind fun _ => hP.keeps_hardware _
  | .struct fields => (keeps_placeFields [] fields).bind fun _ => hP.keeps_count_origin _ _

theorem keeps_placeFields : ∀ (placed : List (Register κ)) (fields : List Ty),
    Keeps P (placeFields placed fields : Action (Supply σ) κ (List (Register κ)))
  | placed, [] => keeps_done placed
  | placed, field :: rest => by
      have hReleased : Keeps P (releaseAll placed : Action (Supply σ) κ Unit) :=
        (hP.keeps_giveUpAll _).of_silent (silent_releaseAll placed)
      exact ((keeps_place field).cleaningUp hReleased).bind fun child =>
        keeps_placeFields (placed ++ [child]) rest

end

end Stable

end RegisterAssignment.Supply
