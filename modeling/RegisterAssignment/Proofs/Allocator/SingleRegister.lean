import RegisterAssignment.Proofs.Allocator.Operations
import RegisterAssignment.Target.File
import RegisterAssignment.Target.Virtual

/-! Two requests for one register. A value can be placed according to its type, or be given the one
target register that the target describes for its type. The first request looks at the type and
describes padding through the scalar that it is made of, the second one leaves the type to the
target. Where one register is enough, a client may use either. -/

namespace RegisterAssignment

variable {σ κ : Type}

/-- Whether the values of a type take one register: scalars and padding, and addresses, which
pointers and strings are. -/
def Ty.takesOneRegister : Ty → Bool
  | .scalar _ | .padding _ | .pointer .. | .string => true
  | .void | .struct _ | .view .. => false

/-- A target that holds padding like the scalar that it is made of, and refuses the one if it
refuses the other. -/
def PadsAlike (σ : Type) {κ : Type} [Target σ κ] : Prop :=
  ∀ (t : σ) (x : Scalar), Target.describe t (.padding x) =
    (Target.describe t (.scalar x)).map fun d => ⟨.padding x, d.basic, d.kind⟩

theorem padsAlike_virtual : PadsAlike Virtual := fun _ _ => rfl

theorem padsAlike_file : PadsAlike File := fun _ _ => rfl

namespace Supply

variable [RegisterKind κ] [Target σ κ]

/-- Padding is described by other calls, but then the same register is asked for. -/
theorem placeWhole_padding (h : PadsAlike σ) (x : Scalar) (s : Supply σ) :
    (placeWhole (.padding x) s : Outcome _ κ _).result = (place (.padding x) s).result ∧
    (placeWhole (.padding x) s : Outcome _ κ _).state = (place (.padding x) s).state := by
  rw [placeWhole, place]
  cases hScalar : Target.describe s.target (.scalar x) with
  | error e =>
      have hPadding : Target.describe s.target (.padding x) = .error e := by
        rw [h, hScalar]
        rfl
      rw [describe_bind_of_error hPadding, describe_bind_of_error hScalar]
      exact ⟨rfl, rfl⟩
  | ok d =>
      have hPadding : Target.describe s.target (.padding x) =
          .ok ⟨.padding x, d.basic, d.kind⟩ := by
        rw [h, hScalar]
        rfl
      rw [describe_bind_of_ok hPadding, describe_bind_of_ok hScalar]
      exact ⟨rfl, rfl⟩

/-- Where one register is enough, describing the type itself and going by its class come to the
same. -/
theorem placeWhole_of_takesOneRegister (h : PadsAlike σ) {ty : Ty}
    (hOne : ty.takesOneRegister = true) (s : Supply σ) :
    (placeWhole ty s : Outcome _ κ _).result = (place ty s).result ∧
    (placeWhole ty s : Outcome _ κ _).state = (place ty s).state := by
  cases ty with
  | scalar _ | pointer _ _ | string => exact ⟨rfl, rfl⟩
  | padding x => exact placeWhole_padding h x s
  | void | struct _ | view _ _ => cases hOne

end Supply

namespace Allocator

/-- One register is enough for a value: the value that it resolves to has such a type, and has no
register yet or one target register. -/
structure OneRegister (a : Allocator σ κ) (v : Value) : Prop where
  ty : (a.resolve v).ty.takesOneRegister = true
  held : ∀ held, a.binding? v = some held → held.register.variant = .hardware

/-- Which register was made and what became of the supply decide how a request ends. -/
theorem settle_congr (a : Allocator σ κ) (id : ValueId) (producer : Value)
    {o o' : Outcome (Supply σ) κ (Register κ)} (hResult : o.result = o'.result)
    (hState : o.state = o'.state) :
    (a.settle id producer o).result = (a.settle id producer o').result ∧
    (a.settle id producer o).state = (a.settle id producer o').state := by
  rw [settle, settle, hResult, hState]
  cases o'.result <;> exact ⟨rfl, rfl⟩

variable [RegisterKind κ] [Target σ κ]

/-- Both requests for a register of a value end alike. A value that has one keeps it. -/
structure Concur (a : Allocator σ κ) (v : Value) : Prop where
  result : (allocateHardware v a).result = (allocate v a).result
  state : (allocateHardware v a).state = (allocate v a).state
  held : ∀ held, a.binding? v = some held →
    (allocate v a).result = .ok held.register ∧ (allocate v a).state = a

/-- The two requests come to the same, whether the value has its register already or gets it now. -/
theorem OneRegister.concur (h : PadsAlike σ) {a : Allocator σ κ} {v : Value}
    (hOne : a.OneRegister v) : Concur a v := by
  cases hBound : a.binding? v with
  | some held =>
      have hFirst := allocate_of_bound hBound
      have hSecond := allocateHardware_of_bound hBound
      rw [if_pos (hOne.held held hBound)] at hSecond
      have hSame : allocateHardware v a = allocate v a := hSecond.trans hFirst.symm
      refine ⟨congrArg Outcome.result hSame, congrArg Outcome.state hSame, ?_⟩
      intro other hOther
      cases hBound.symm.trans hOther
      rw [hFirst]
      exact ⟨rfl, rfl⟩
  | none =>
      have hFirst := silent_allocate_of_unbound hBound
      have hSecond := silent_allocateHardware_of_unbound hBound
      obtain ⟨hMade, hSupply⟩ := Supply.placeWhole_of_takesOneRegister h hOne.ty a.supply
      obtain ⟨hResult, hState⟩ := settle_congr a (a.resolve v).id v hMade hSupply
      refine ⟨?_, ?_, ?_⟩
      · rw [Outcome.result_eq hFirst, Outcome.result_eq hSecond, hResult]
      · rw [Outcome.state_eq hFirst, Outcome.state_eq hSecond, hState]
      · intro held hHeld
        cases hBound.symm.trans hHeld

/-- The two requests agree where one register is enough. On virtual registers and on a register
file, in every state, let the value that `v` resolves to be a scalar, padding, a pointer or a
string, without a register or with one target register. Then placing `v` and taking the register
that the target describes give the same result, be it the register that `v` has, a new one or an
error, and leave the same state: bindings, aliases, counters and target. -/
theorem requests_concur (v : Value) :
    (∀ a : Allocator Virtual VirtualKind, a.OneRegister v → Concur a v) ∧
    ∀ a : Allocator File FileKind, a.OneRegister v → Concur a v :=
  ⟨fun _ hOne => hOne.concur padsAlike_virtual, fun _ hOne => hOne.concur padsAlike_file⟩

/-- On virtual registers a string stands for padding and gets a register for the padding. On a file
without floating-point registers both requests for the padding fail, and a pointer that has a
register keeps it. -/
theorem requests_concur_on_padding :
    let gap : Value := ⟨0, .padding .f32⟩
    let name : Value := ⟨1, .string⟩
    let address : Value := ⟨2, .pointer .void .shared⟩
    let v : Allocator Virtual VirtualKind :=
      (new (Virtual.new .bits32) default).run [.request (.aliasTo name gap)]
    let f : Allocator File FileKind :=
      (new (File.new ⟨1, 0, .bits64⟩) default).run [.request (.allocate address)]
    let made : Register VirtualKind :=
      .hardware (.allocated 0) ⟨⟨.padding .f32, some .f32, .float32⟩, 0⟩
    let kept : Register FileKind :=
      .hardware (.allocated 0) ⟨⟨.pointer .void .shared, some .i64, .general⟩, 0⟩
    (v.OneRegister name ∧ (allocate name v).result = .ok made ∧
      (allocateHardware name v).result = .ok made ∧
      (allocateHardware name v).state = (allocate name v).state) ∧
    (f.OneRegister gap ∧ (allocate gap f).result = .error (.exhausted "float" 0) ∧
      (allocateHardware gap f).result = .error (.exhausted "float" 0) ∧
      (allocateHardware gap f).state = (allocate gap f).state) ∧
    f.OneRegister address ∧ (allocateHardware address f).result = .ok kept ∧
      (allocateHardware address f).state = f := by
  intro gap name address v f made kept
  have hName : v.OneRegister name := ⟨rfl, fun held h => by cases h⟩
  have hGap : f.OneRegister gap := ⟨rfl, fun held h => by cases h⟩
  have hKept : f.binding? address = some ⟨address, kept⟩ := rfl
  have hAddress : f.OneRegister address := by
    refine ⟨rfl, fun held h => ?_⟩
    cases hKept.symm.trans h
    rfl
  have hNew := (requests_concur name).1 v hName
  have hFull := (requests_concur gap).2 f hGap
  have hSame := (requests_concur address).2 f hAddress
  have hMade : (allocate name v).result = .ok made := by decide +kernel
  have hExhausted : (allocate gap f).result = .error (.exhausted "float" 0) := by decide +kernel
  obtain ⟨hResult, hState⟩ := hSame.held _ hKept
  exact ⟨⟨hName, hMade, hNew.result.trans hMade, hNew.state⟩,
    ⟨hGap, hExhausted, hFull.result.trans hExhausted, hFull.state⟩,
    hAddress, hSame.result.trans hResult, hSame.state.trans hState⟩

end Allocator

end RegisterAssignment
