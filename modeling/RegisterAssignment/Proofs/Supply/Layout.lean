import Mathlib.Data.List.Forall2
import RegisterAssignment.Proofs.Supply.Calls
import RegisterAssignment.Proofs.Supply.Stable

/-! What a type is placed in. The register has the shape of the type, a compound for each structure
and one target register for anything else, and its leaves are what the target has handed out on the
way, in this order. What else is true of the leaves depends on the target and is a parameter. -/

namespace RegisterAssignment

variable {σ κ : Type}

/-- A register has the shape of a type: a compound with a child for each field, in field order, if
the type is a structure, and else one target register, which `leaf` accepts for the type. -/
inductive Ty.RealizedBy (leaf : Ty → Hardware κ → Prop) : Ty → Register κ → Prop where
  | single {ty : Ty} {origin : Origin} {held : Hardware κ} (hSingle : ty.isStruct = false)
      (hLeaf : leaf ty held) : RealizedBy leaf ty (.hardware origin held)
  | struct {origin : Origin} {fields : List Ty} {children : List (Register κ)}
      (hChildren : List.Forall₂ (RealizedBy leaf) fields children) :
      RealizedBy leaf (.struct fields) (.compound origin fields children)

namespace Supply

variable [Target σ κ] {P : Supply σ → Prop} {leaf : Ty → Hardware κ → Prop}

/-- A target register that was made for a type is the one that the target has handed out for what
was wanted, given how it describes the type. -/
theorem ok_of_describe_hardware {ty : Ty} (wanted : Descriptor κ → Descriptor κ) {s : Supply σ}
    {r : Register κ}
    (h : ((describe ty >>= fun d => hardware (wanted d)) s).result = .ok r) :
    ∃ d held, Target.describe s.target ty = .ok d ∧
      (Target.take (wanted d) s.target).result = .ok held ∧
      r = .hardware (.allocated s.made) held ∧
      takenIn ((describe ty >>= fun d => hardware (wanted d)) s).calls = [held] := by
  cases hDescribe : Target.describe s.target ty with
  | error e =>
      rw [describe_bind_of_error hDescribe] at h
      cases h
  | ok d =>
      rw [describe_bind_of_ok hDescribe] at h ⊢
      cases hTake : (Target.take (wanted d) s.target).result with
      | error e =>
          rw [show (hardware (wanted d) s).result = .error e from
            Outcome.result_eq (silent_hardware_of_error hTake)] at h
          cases h
      | ok held =>
          have hMade := silent_hardware_of_ok hTake
          rw [show (hardware (wanted d) s).result = _ from Outcome.result_eq hMade] at h
          refine ⟨d, held, rfl, hTake, (Except.ok.inj h).symm, ?_⟩
          rw [Outcome.calls_eq hMade]
          rfl

/-- What is known of a target register that is taken for a type: as the target describes the type,
or, for padding, as it describes the scalar that the padding is made of. -/
structure Fills (P : Supply σ → Prop) (leaf : Ty → Hardware κ → Prop) : Prop where
  stable : Stable P
  whole : ∀ {s : Supply σ} {ty : Ty} {d : Descriptor κ} {held : Hardware κ}, P s →
    Target.describe s.target ty = .ok d → (Target.take d s.target).result = .ok held → leaf ty held
  padding : ∀ {s : Supply σ} {x : Scalar} {d : Descriptor κ} {held : Hardware κ}, P s →
    Target.describe s.target (.scalar x) = .ok d →
    (Target.take ⟨.padding x, d.basic, d.kind⟩ s.target).result = .ok held → leaf (.padding x) held

/-- A single register is what was taken for it. -/
theorem Fills.placeWhole (h : Fills P leaf) {ty : Ty} {s : Supply σ} {r : Register κ}
    (hSingle : ty.isStruct = false) (hs : P s) (hResult : (placeWhole ty s).result = .ok r) :
    ty.RealizedBy leaf r ∧ takenIn (Supply.placeWhole ty s).calls = r.leaves := by
  obtain ⟨d, held, hDescribe, hTake, rfl, hTaken⟩ := ok_of_describe_hardware id hResult
  exact ⟨.single hSingle (h.whole hs hDescribe hTake), hTaken⟩

variable [RegisterKind κ]

mutual

/-- A type is placed in a register of its shape, whose leaves are what was taken meanwhile. -/
theorem Fills.place (h : Fills P leaf) : ∀ (ty : Ty) {s : Supply σ} {r : Register κ}, P s →
    (place ty s).result = .ok r →
    ty.RealizedBy leaf r ∧ takenIn (Supply.place ty s).calls = r.leaves
  | .void, _, _, _, hResult => by cases hResult
  | .view .., _, _, _, hResult => by cases hResult
  | .scalar _, _, _, hs, hResult => h.placeWhole rfl hs hResult
  | .pointer .., _, _, hs, hResult => h.placeWhole rfl hs hResult
  | .string, _, _, hs, hResult => h.placeWhole rfl hs hResult
  | .padding x, _, _, hs, hResult => by
      obtain ⟨d, held, hDescribe, hTake, rfl, hTaken⟩ :=
        ok_of_describe_hardware (fun d => ⟨.padding x, d.basic, d.kind⟩) hResult
      exact ⟨.single rfl (h.padding hs hDescribe hTake), hTaken⟩
  | .struct fields, s, r, hs, hResult => by
      obtain ⟨children, hChildren, hCompound, hCalls⟩ := Action.ok_of_bind hResult
      obtain ⟨new, rfl, hNew, hTaken⟩ := h.placeFields [] fields hs hChildren
      rw [compound_result] at hCompound
      cases hCompound
      refine ⟨.struct hNew, ?_⟩
      rw [Supply.place, hCalls, takenIn_append, hTaken, compound_apply]
      exact List.append_nil _

/-- The same for the remaining fields of a structure, after those in `placed`. -/
theorem Fills.placeFields (h : Fills P leaf) : ∀ (placed : List (Register κ)) (fields : List Ty)
    {s : Supply σ} {children : List (Register κ)}, P s →
    (placeFields placed fields s).result = .ok children →
    ∃ new, children = placed ++ new ∧ List.Forall₂ (Ty.RealizedBy leaf) fields new ∧
      takenIn (Supply.placeFields placed fields s).calls = Register.leavesList new
  | placed, [], _, _, _, hResult => by
      cases hResult
      exact ⟨[], (List.append_nil _).symm, .nil, rfl⟩
  | placed, field :: rest, s, children, hs, hResult => by
      rw [Supply.placeFields] at hResult ⊢
      obtain ⟨child, hChild, hRest, hCalls⟩ := Action.ok_of_bind hResult
      replace hChild := Action.result_of_cleaningUp hChild
      -- Nothing is released on the way, because the field was placed.
      rw [Action.cleaningUp_of_ok hChild] at hRest hCalls
      obtain ⟨hField, hTaken⟩ := h.place field hs hChild
      obtain ⟨new, rfl, hNew, hTakenRest⟩ :=
        h.placeFields (placed ++ [child]) rest (h.stable.keeps_place field s hs) hRest
      refine ⟨child :: new, by simp, .cons hField hNew, ?_⟩
      rw [hCalls, takenIn_append, hTaken, hTakenRest, Register.leavesList]

end

omit [RegisterKind κ] in
/-- Any target register will do for any leaf. -/
theorem fills_any : Fills (fun _ : Supply σ => True) fun _ (_ : Hardware κ) => True := by
  refine ⟨?_, fun _ _ _ => trivial, fun _ _ _ => trivial⟩
  constructor <;> intros <;> trivial

/-- A structure whose fields are placed has one child for each of them, so grouping the children is
never refused. -/
theorem group_of_placeFields {fields : List Ty} {s : Supply σ} {children : List (Register κ)}
    (h : (Supply.placeFields [] fields s).result = .ok children) (origin : Origin) :
    Register.group origin fields children = .ok (.compound origin fields children) := by
  obtain ⟨_, rfl, hNew, _⟩ := fills_any.placeFields [] fields trivial h
  exact if_pos hNew.length_eq.symm

/-- Makes a compound if the children can be grouped, and fails as grouping them fails. -/
def grouped (fields : List Ty) (children : List (Register κ)) : Action (Supply σ) κ (Register κ) :=
  fun s =>
    match Register.group (.allocated s.made) fields children with
    | .ok _ => compound fields children s
    | .error e => Action.fail e s

/-- A type is placed as its class says: a type without a class is refused by the error of the class,
and the register of a structure is what grouping the registers of its fields gives. -/
theorem place_eq_of_registerClass (ty : Ty) :
    (Supply.place ty : Action (Supply σ) κ (Register κ)) =
      match ty.registerClass with
      | .error e => Action.fail e
      | .ok (.scalar _) | .ok (.pointer ..) | .ok .string => Supply.placeWhole ty
      | .ok (.padding x) =>
        describe (.scalar x) >>= fun described => hardware ⟨ty, described.basic, described.kind⟩
      | .ok (.struct fields) => Supply.placeFields [] fields >>= grouped fields := by
  cases ty with
  | void | scalar _ | pointer _ _ | string | padding _ | view _ _ => rfl
  | struct fields =>
      simp only [Ty.registerClass]
      funext s
      cases h : (Supply.placeFields [] fields s : Outcome (Supply σ) κ _).result with
      | error e => rw [Supply.place, Action.bind_apply_of_error h, Action.bind_apply_of_error h]
      | ok children =>
          rw [Supply.place, Action.bind_apply_of_ok h, Action.bind_apply_of_ok h]
          simp only [grouped, group_of_placeFields h]

end Supply

end RegisterAssignment
