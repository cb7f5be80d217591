import RegisterAssignment.Proofs.Allocator.Typing
import RegisterAssignment.Proofs.Supply.Scan
import RegisterAssignment.Target.Scripted

/-! What is got for a type. Three orders have to agree: that of the fields in the declaration, that
in which the target is asked, and that in which a walk comes to the registers. -/

namespace RegisterAssignment

variable {σ κ : Type}

/-- A target that describes a type under its own name and hands out what is wanted. -/
structure Labels (σ : Type) {κ : Type} [Target σ κ] : Prop where
  ty : ∀ {t : σ} {ty : Ty} {d : Descriptor κ}, Target.describe t ty = .ok d → d.ty = ty
  wanted : ∀ {wanted : Descriptor κ} {t : σ} {held : Hardware κ},
    (Target.take wanted t).result = .ok held → held.descriptor = wanted

theorem labels_virtual : Labels Virtual := ⟨faithful_virtual.ty, faithful_virtual.wanted⟩

theorem labels_file : Labels File := ⟨faithful_file.ty, faithful_file.wanted⟩

/-- This target is not faithful, because it may refuse to describe padding, or describe a
structure; but a type is never placed in that way. -/
theorem labels_scripted : Labels Scripted where
  ty {t ty d} h := by
    change Scripted.describe t ty = _ at h
    cases ty with
    | scalar _ | pointer _ _ | string =>
        cases h
        rfl
    | void | struct _ | padding _ | view _ _ =>
        simp only [Scripted.describe] at h
        split at h <;> cases h
        rfl
  wanted {wanted t held} h := by
    change (Scripted.take wanted t).result = _ at h
    rw [Scripted.take] at h
    split at h <;> cases h
    rfl

def DeclaredFor (ty : Ty) (held : Hardware κ) : Prop := held.descriptor.ty = ty

section Labels

variable [Target σ κ] (hLabels : Labels σ)

include hLabels

/-- Leaves are placed in registers that are declared for them, padding under its own type. -/
theorem Labels.fills :
    Supply.Fills (fun _ : Supply σ => True) (DeclaredFor : Ty → Hardware κ → Prop) where
  stable := by constructor <;> intros <;> trivial
  whole _ hDescribe hTake := (congrArg Descriptor.ty (hLabels.wanted hTake)).trans
    (hLabels.ty hDescribe)
  padding _ _ hTake := congrArg Descriptor.ty (hLabels.wanted hTake)

/-- What is acquired for a leaf is declared to hold it. -/
theorem Labels.acquire {leaf : Ty} {t : σ} {one : Hardware κ}
    (h : (acquire leaf t).result = .ok one) : one.descriptor.ty = leaf := by
  cases leaf with
  | scalar _ | pointer _ _ | string =>
      obtain ⟨d, hDescribe, hTake⟩ := acquireAs_ok h
      exact (congrArg Descriptor.ty (hLabels.wanted hTake)).trans (hLabels.ty hDescribe)
  | padding _ =>
      obtain ⟨d, _, hTake⟩ := acquireAs_ok h
      exact congrArg Descriptor.ty (hLabels.wanted hTake)
  | void | struct _ | view _ _ => cases h

end Labels

namespace Allocator

variable [Target σ κ]

/-- What a request for a type has done if it returns a register. -/
structure Fulfils (a : Allocator σ κ) (ty : Ty) (r : Register κ)
    (o : Outcome (Allocator σ κ) κ (Register κ)) : Prop where
  /-- A compound stands for a structure, with a child for each field in field order. Anything else
  is in one target register, which is declared to hold it; so padding stays padding. -/
  shape : ty.RealizedBy DeclaredFor r
  /-- A walk comes to what the target has handed out, in the order in which it was asked. -/
  taken : r.walk.yielded = takenIn o.calls
  /-- There is one register for each leaf of the type. -/
  leaves : r.walk.yielded.map (fun held => held.descriptor.ty) = ty.leaves
  kept : offeredIn o.calls = []
  counted : a.supply.counting = true → o.state.stats = { a.stats with
    hardwareAllocated := a.stats.hardwareAllocated + ty.leaves.length
    compoundsBuilt := a.stats.compoundsBuilt + ty.structs }

/-- Every register that is made for a type is faithful to it. -/
theorem fulfils_allocateType [RegisterKind κ] (h : Labels σ) {a : Allocator σ κ} {ty : Ty}
    {r : Register κ} (hResult : (allocateType ty a).result = .ok r) :
    Fulfils a ty r (allocateType ty a) := by
  obtain ⟨hShape, hTaken⟩ := h.fills.place ty trivial hResult
  obtain ⟨hScan, hCalls, hState⟩ := Supply.place_of_ok hResult
  have hLeaves : r.leaves.map (fun held => held.descriptor.ty) = ty.leaves.map id :=
    map_acquireAll (fun _ _ _ => h.acquire) hScan
  refine ⟨hShape, ?_, ?_, ?_, ?_⟩
  · rw [Register.yielded_walk]
    exact hTaken.symm
  · rw [Register.yielded_walk, hLeaves, List.map_id]
  · exact (congrArg offeredIn hCalls).trans (offeredIn_acquireAll _ _)
  · intro hCounting
    change (Supply.place ty a.supply : Outcome _ κ _).state.stats = _
    rw [hState]
    exact if_pos hCounting

/-- Types are placed faithfully. On virtual registers, on a register file and on any scripted
target, in every state, if a request for a type succeeds, then the register has the shape of the
type; the leaves that a walk over it comes to are what the target has handed out during the request,
in this order, one for each leaf of the type in the order of its declaration; nothing is given back;
and if counters are kept, they have grown by the number of these leaves and by the number of
structures. -/
theorem placement_faithful (ty : Ty) :
    (∀ (a : Allocator Virtual VirtualKind) r, (allocateType ty a).result = .ok r →
      Fulfils a ty r (allocateType ty a)) ∧
    (∀ (a : Allocator File FileKind) r, (allocateType ty a).result = .ok r →
      Fulfils a ty r (allocateType ty a)) ∧
    ∀ (a : Allocator Scripted ScriptedKind) r, (allocateType ty a).result = .ok r →
      Fulfils a ty r (allocateType ty a) :=
  ⟨fun _ _ h => fulfils_allocateType labels_virtual h,
    fun _ _ h => fulfils_allocateType labels_file h,
    fun _ _ h => fulfils_allocateType labels_scripted h⟩

/-- Padding, an empty structure and a pointer to a structure inside one another. The pointer is one
leaf, and the structure that it points to is not counted. -/
theorem placement_faithful_nested :
    let pointer : Ty := .pointer (.struct [.scalar .i8]) .shared
    let ty : Ty := .struct [.padding .f64, .struct [], .struct [pointer, .struct [.string]]]
    let nested (κ : Type) (gap address handle : Hardware κ) : Register κ :=
      .compound (.allocated 6) [.padding .f64, .struct [], .struct [pointer, .struct [.string]]]
        [.hardware (.allocated 0) gap, .compound (.allocated 1) [] [],
          .compound (.allocated 5) [pointer, .struct [.string]]
            [.hardware (.allocated 2) address,
              .compound (.allocated 4) [.string] [.hardware (.allocated 3) handle]]]
    let onVirtual := nested VirtualKind ⟨⟨.padding .f64, some .f64, .float64⟩, 0⟩
      ⟨⟨pointer, some .i32, .int32⟩, 0⟩ ⟨⟨.string, some .i32, .int32⟩, 1⟩
    let onFile := nested FileKind ⟨⟨.padding .f64, some .f64, .float⟩, 0⟩
      ⟨⟨pointer, some .i64, .general⟩, 0⟩ ⟨⟨.string, some .i64, .general⟩, 1⟩
    let onScripted := nested ScriptedKind ⟨⟨.padding .f64, some .f64, .float⟩, 0⟩
      ⟨⟨pointer, some .i64, .int⟩, 1⟩ ⟨⟨.string, some .i64, .int⟩, 2⟩
    let v : Allocator Virtual VirtualKind := new (Virtual.new .bits32) default
    let f : Allocator File FileKind := new (File.new ⟨2, 1, .bits64⟩) default
    let t : Allocator Scripted ScriptedKind := new (Scripted.new (some 3) [] false) default
    ty.leaves = [.padding .f64, pointer, .string] ∧ ty.structs = 4 ∧
      (allocateType ty v).result = .ok onVirtual ∧ Fulfils v ty onVirtual (allocateType ty v) ∧
      (allocateType ty f).result = .ok onFile ∧ Fulfils f ty onFile (allocateType ty f) ∧
      (allocateType ty t).result = .ok onScripted ∧
      Fulfils t ty onScripted (allocateType ty t) := by
  intro pointer ty nested onVirtual onFile onScripted v f t
  have hVirtual : (allocateType ty v).result = .ok onVirtual := by decide +kernel
  have hFile : (allocateType ty f).result = .ok onFile := by decide +kernel
  have hScripted : (allocateType ty t).result = .ok onScripted := by decide +kernel
  obtain ⟨ofVirtual, ofFile, ofScripted⟩ := placement_faithful ty
  exact ⟨rfl, rfl, hVirtual, ofVirtual v _ hVirtual, hFile, ofFile f _ hFile, hScripted,
    ofScripted t _ hScripted⟩

end Allocator

end RegisterAssignment
