import Mathlib.Data.List.Induction
import RegisterAssignment.Proofs.Allocator.Fidelity
import RegisterAssignment.Proofs.File.Reset

/-! Which types a register file has room for. What a leaf gets can be told without taking anything:
it depends on the kind of the leaf, on what is free, and on the kinds of the leaves before it. A
nested request with its releases comes to the same registers, and to the same error. -/

namespace RegisterAssignment

namespace FileKind

/-- The kind of the register that holds a leaf. Floating-point numbers and padding made of them go
to one kind and all other leaves to the other. Nothing holds the empty type or a view, and a
structure is not a leaf. -/
def ofLeaf? : Ty → Option FileKind
  | .scalar .f16 | .scalar .f32 | .scalar .f64 => some float
  | .padding .f16 | .padding .f32 | .padding .f64 => some float
  | .scalar _ | .padding _ | .pointer .. | .string => some general
  | .void | .struct _ | .view .. => none

/-- Scalars and padding are of the kind in which the file holds the scalar. -/
theorem ofLeaf?_of_asScalar? {leaf : Ty} {s : Scalar} (h : leaf.asScalar? = some s) :
    ofLeaf? leaf = some (ofScalar s) := by
  cases leaf with
  | scalar x | padding x =>
      cases h
      cases s <;> rfl
  | void | pointer _ _ | string | struct _ | view _ _ => cases h

/-- How many of these leaves need a register of a kind. -/
def needs (kind : FileKind) (leaves : List Ty) : Nat :=
  leaves.countP fun leaf => ofLeaf? leaf = some kind

theorem needs_append (kind : FileKind) (leaves leaves' : List Ty) :
    kind.needs (leaves ++ leaves') = kind.needs leaves + kind.needs leaves' :=
  List.countP_append

theorem needs_singleton {kind : FileKind} {leaf : Ty} (h : ofLeaf? leaf = some kind)
    (other : FileKind) : other.needs [leaf] = if other = kind then 1 else 0 := by
  simp [needs, h, List.countP_cons, eq_comm]

end FileKind

def errorIn? {α : Type} : Except Error α → Option Error
  | .error e => some e
  | .ok _ => none

namespace File

open FileKind (ofLeaf?)

variable {t : File} {kind : FileKind} {leaf : Ty} {before leaves : List Ty}

/-- The error for a leaf that finds no register of its kind. -/
def shortage (t : File) : FileKind → Error
  | .general => .exhausted "general" t.general.capacity
  | .float => .exhausted "float" t.float.capacity

/-- This is the error that the file itself gives for the kind. -/
theorem shortage_eq (t : File) (kind : FileKind) :
    t.shortage kind = .exhausted kind.word (t.pool kind).capacity := by
  cases kind <;> rfl

/-- The place that a leaf gets when those before it have theirs: the lowest registers of its kind
that are free are gone then, as many as were needed. -/
def grant (t : File) (before : List Ty) (leaf : Ty) : Except Error (FileKind × Nat) :=
  match ofLeaf? leaf with
  | none => .error (.unsupportedType leaf.text)
  | some kind =>
    match (t.pool kind).free[kind.needs before]? with
    | some i => .ok (kind, i)
    | none => .error (t.shortage kind)

def grants (t : File) (leaves : List Ty) : List (Except Error (FileKind × Nat)) :=
  leaves.mapIdx fun i leaf => t.grant (leaves.take i) leaf

/-- Leaves that can all live in registers, and for which enough registers of each kind are free. -/
structure Fits (t : File) (leaves : List Ty) : Prop where
  supported : ∀ leaf ∈ leaves, ofLeaf? leaf ≠ none
  enough : ∀ kind : FileKind, kind.needs leaves ≤ (t.pool kind).free.length

section Grant

theorem grant_of_unsupported (h : ofLeaf? leaf = none) (before : List Ty) :
    t.grant before leaf = .error (.unsupportedType leaf.text) := by
  simp only [grant, h]

theorem grant_of_free {i : Nat} (h : ofLeaf? leaf = some kind)
    (hFree : (t.pool kind).free[kind.needs before]? = some i) :
    t.grant before leaf = .ok (kind, i) := by
  simp only [grant, h, hFree]

theorem grant_of_exhausted (h : ofLeaf? leaf = some kind)
    (hFree : (t.pool kind).free[kind.needs before]? = none) :
    t.grant before leaf = .error (t.shortage kind) := by
  simp only [grant, h, hFree]

/-- A leaf gets a register exactly if there is one more than those before it need. -/
theorem isOk_grant_iff (h : ofLeaf? leaf = some kind) :
    (t.grant before leaf).isOk ↔ kind.needs before < (t.pool kind).free.length := by
  cases hFree : (t.pool kind).free[kind.needs before]? with
  | some i =>
      rw [grant_of_free h hFree]
      exact iff_of_true rfl (List.getElem?_eq_some_iff.mp hFree).1
  | none =>
      rw [grant_of_exhausted h hFree]
      exact iff_of_false Bool.false_ne_true (Nat.not_lt.mpr (List.getElem?_eq_none_iff.mp hFree))

/-- What a leaf is granted does not depend on the leaves after it. -/
theorem grants_concat (t : File) (leaves : List Ty) (leaf : Ty) :
    t.grants (leaves ++ [leaf]) = t.grants leaves ++ [t.grant leaves leaf] := by
  rw [grants, List.mapIdx_concat, List.take_left, grants]
  congr 1
  apply List.ext_getElem
  · simp
  · intro i hi _
    rw [List.length_mapIdx] at hi
    simp [List.take_append_of_le_length (Nat.le_of_lt hi)]

/-- One more leaf fits if the others do and it is granted a register. -/
theorem fits_concat :
    t.Fits (leaves ++ [leaf]) ↔ t.Fits leaves ∧ (t.grant leaves leaf).isOk := by
  cases hKind : ofLeaf? leaf with
  | none =>
      rw [grant_of_unsupported hKind]
      apply iff_of_false
      · intro h
        exact h.supported leaf (List.mem_concat_self) hKind
      · exact fun h => Bool.false_ne_true h.2
  | some kind =>
      have hNeeds (other : FileKind) :
          other.needs (leaves ++ [leaf]) = other.needs leaves + if other = kind then 1 else 0 := by
        rw [FileKind.needs_append, FileKind.needs_singleton hKind]
      rw [isOk_grant_iff hKind]
      constructor
      · intro h
        refine ⟨⟨?_, ?_⟩, ?_⟩
        · intro earlier hMem
          exact h.supported earlier (List.mem_append_left _ hMem)
        · intro other
          have hEnough := h.enough other
          rw [hNeeds] at hEnough
          omega
        · have hEnough := h.enough kind
          rw [hNeeds, if_pos rfl] at hEnough
          exact hEnough
      · rintro ⟨h, hFree⟩
        constructor
        · intro other hMem
          rcases List.mem_append.mp hMem with hEarlier | hLast
          · exact h.supported other hEarlier
          · rw [List.mem_singleton.mp hLast, hKind]
            exact Option.some_ne_none kind
        · intro other
          have hEnough := h.enough other
          rw [hNeeds]
          split
          next hSame => rwa [hSame]
          next => exact hEnough

/-- Counting the leaves of each kind decides whether every one of them gets a register. -/
theorem fits_iff (t : File) (leaves : List Ty) : t.Fits leaves ↔ ∀ g ∈ t.grants leaves, g.isOk := by
  -- What a leaf is granted depends on those before it, so the last leaf is taken off.
  induction leaves using List.reverseRecOn with
  | nil => exact iff_of_true ⟨nofun, fun _ => Nat.zero_le _⟩ nofun
  | append_singleton leaves leaf ih =>
      rw [fits_concat, grants_concat, ih, List.forall_mem_append, List.forall_mem_singleton]

end Grant

section Scan

/-- The lowest free register of a kind is taken, and the other kind keeps all of its own. -/
theorem take_free {wanted : Descriptor FileKind} {held : Hardware FileKind}
    (h : (take wanted t).result = .ok held) :
    (t.pool wanted.kind).free.head? = some held.index ∧ held.kind = wanted.kind ∧
      ∀ other, ((take wanted t).state.pool other).free =
        (t.pool other).free.drop (if other = wanted.kind then 1 else 0) := by
  rw [take] at h ⊢
  split at h
  next i rest hTake =>
    cases h
    have hFree := (Pool.take?_eq_some hTake).1
    refine ⟨?_, rfl, ?_⟩
    · rw [hFree]
      rfl
    · intro other
      rw [pool_setPool]
      split
      next hSame =>
        rw [hSame, hFree]
        rfl
      next => rfl
  next => cases h

/-- A leaf of some kind is acquired by taking a register of that kind. -/
theorem acquire_of_kind (h : ofLeaf? leaf = some kind) (t : File) :
    ∃ wanted : Descriptor FileKind, wanted.kind = kind ∧
      (acquire leaf t).result = (take wanted t).result ∧
      (acquire leaf t).state = (take wanted t).state := by
  cases leaf with
  | scalar s | padding s =>
      rw [FileKind.ofLeaf?_of_asScalar? rfl] at h
      cases h
      exact ⟨_, rfl, rfl, rfl⟩
  | pointer _ _ | string =>
      cases h
      refine ⟨_, ?_, rfl, rfl⟩
      cases t.pointerWidth <;> rfl
  | void | struct _ | view _ _ => cases h

/-- A leaf of no kind is refused before the file is asked. -/
theorem acquire_of_unsupported (h : ofLeaf? leaf = none) (t : File) :
    (acquire leaf t : Outcome File FileKind _).result = .error (.unsupportedType leaf.text) := by
  cases leaf with
  | scalar s | padding s =>
      rw [FileKind.ofLeaf?_of_asScalar? rfl] at h
      cases h
  | pointer _ _ | string => cases h
  | void | struct _ | view _ _ => rfl

/-- Acquiring a register for the first of several leaves: the register is the one that is granted,
and the leaves after it are granted the same, whether it is taken already or only counted. -/
theorem grant_of_acquire {held : Hardware FileKind} (h : (acquire leaf t).result = .ok held) :
    t.grant [] leaf = .ok held.slot ∧
      ∀ before later,
        (acquire leaf t).state.grant before later = t.grant (leaf :: before) later := by
  cases hKind : ofLeaf? leaf with
  | none => cases h.symm.trans (acquire_of_unsupported hKind t)
  | some kind =>
      obtain ⟨wanted, rfl, hResult, hState⟩ := acquire_of_kind hKind t
      rw [hResult] at h
      obtain ⟨hLowest, hHeld, hRest⟩ := take_free h
      constructor
      · rw [Hardware.slot, hHeld]
        exact grant_of_free hKind (List.head?_eq_getElem?.symm.trans hLowest)
      · intro before later
        -- What was taken is missing at the front of the free registers, so the same one is found
        -- with a count that is lower by one.
        have hPool (other : FileKind) :
            ((acquire leaf t).state.pool other).free[other.needs before]? =
              (t.pool other).free[other.needs (leaf :: before)]? := by
          rw [hState, hRest, List.getElem?_drop, ← FileKind.needs_singleton hKind,
            ← FileKind.needs_append]
          rfl
        have hCapacity (other : FileKind) :
            ((acquire leaf t).state.pool other).capacity = (t.pool other).capacity := by
          rw [hState, take_capacity]
        simp only [grant, shortage_eq, hPool, hCapacity]

/-- If the first leaf is not acquired, then with the error that the grant gives. -/
theorem grant_of_acquire_error {e : Error}
    (h : (acquire leaf t : Outcome File FileKind _).result = .error e) :
    t.grant [] leaf = .error e := by
  cases hKind : ofLeaf? leaf with
  | none =>
      cases h.symm.trans (acquire_of_unsupported hKind t)
      exact grant_of_unsupported hKind []
  | some kind =>
      obtain ⟨wanted, rfl, hResult, _⟩ := acquire_of_kind hKind t
      rw [hResult, take] at h
      split at h
      next => cases h
      next hTake =>
        cases h
        rw [← shortage_eq]
        apply grant_of_exhausted hKind
        rw [Pool.take?_eq_none_iff.mp hTake]
        rfl

/-- Taking the first register turns the grants of all leaves into those of the rest. -/
theorem grants_cons_of_acquire {held : Hardware FileKind} (h : (acquire leaf t).result = .ok held)
    (rest : List Ty) :
    t.grants (leaf :: rest) = .ok held.slot :: (acquire leaf t).state.grants rest := by
  obtain ⟨hGrant, hLater⟩ := grant_of_acquire h
  rw [grants, List.mapIdx_cons, List.take_zero, hGrant, grants]
  simp only [hLater, List.take_succ_cons]

/-- A scan that gets to its end has what is granted to each leaf. -/
theorem grants_of_acquireAll {held : List (Hardware FileKind)}
    (h : (acquireAll leaves t).result = .ok held) :
    t.grants leaves = held.map fun one => .ok one.slot := by
  induction leaves generalizing t held with
  | nil =>
      cases h
      rfl
  | cons leaf rest ih =>
      obtain ⟨one, more, hOne, hMore, rfl⟩ := acquireAll_cons_ok h
      rw [grants_cons_of_acquire hOne, ih hMore, List.map_cons]

/-- Otherwise it stops at the first leaf that is granted nothing. -/
theorem grants_of_acquireAll_error {e : Error}
    (h : (acquireAll leaves t : Outcome _ FileKind _).result = .error e) :
    (t.grants leaves).findSome? errorIn? = some e := by
  induction leaves generalizing t with
  | nil => cases h
  | cons leaf rest ih =>
      rcases acquireAll_cons_error h with hLeaf | ⟨one, hOne, hRest⟩
      · rw [grants, List.mapIdx_cons, List.take_zero, grant_of_acquire_error hLeaf]
        rfl
      · rw [grants_cons_of_acquire hOne, List.findSome?_cons_of_isNone rfl]
        exact ih hRest

end Scan

end File

namespace Allocator

/-- How a request for a type ends, given the register file before. -/
structure Admission (t : File) (ty : Ty) (o : Outcome (Allocator File FileKind) FileKind
    (Register FileKind)) : Prop where
  succeeds : (∃ r, o.result = .ok r) ↔ t.Fits ty.leaves
  /-- The leaves are in the registers that are granted to them. -/
  granted : ∀ r, o.result = .ok r →
    r.walk.yielded.map (fun held => held.descriptor.ty) = ty.leaves ∧
      r.walk.yielded.map (fun held => .ok held.slot) = t.grants ty.leaves
  /-- The error is that of the first leaf that is granted nothing. -/
  stopped : ∀ e, o.result = .error e → (t.grants ty.leaves).findSome? errorIn? = some e
  restored : ∀ e, o.result = .error e →
    ∀ kind, (o.state.target.pool kind).free = (t.pool kind).free

/-- A request for a type is admitted as the grants say, in any state of the file. -/
theorem admission_allocateType (ty : Ty) (a : Allocator File FileKind) :
    Admission a.target ty (allocateType ty a) := by
  have hGranted : ∀ r, (allocateType ty a).result = .ok r →
      r.walk.yielded.map (fun held => .ok held.slot) = a.target.grants ty.leaves := by
    intro r h
    rw [Register.yielded_walk]
    exact (File.grants_of_acquireAll (Supply.place_of_ok h).1).symm
  have hStopped : ∀ e, (allocateType ty a).result = .error e →
      (a.target.grants ty.leaves).findSome? errorIn? = some e := by
    intro e h
    exact File.grants_of_acquireAll_error (Supply.place_of_error h).1
  refine ⟨?_, ?_, hStopped, ?_⟩
  · rw [File.fits_iff]
    constructor
    · rintro ⟨r, h⟩ g hMem
      rw [← hGranted r h] at hMem
      obtain ⟨held, _, rfl⟩ := List.mem_map.mp hMem
      rfl
    · intro hAll
      cases h : (allocateType ty a).result with
      | ok r => exact ⟨r, rfl⟩
      | error e =>
          obtain ⟨g, hMem, hError⟩ := List.exists_of_findSome?_eq_some (hStopped e h)
          have hOk := hAll g hMem
          cases g <;> contradiction
  · intro r h
    exact ⟨(fulfils_allocateType labels_file h).leaves, hGranted r h⟩
  · intro e h kind
    have hCapacity := (File.dimensions_of_exchange (Supply.books_place ty a.supply).exchange).2 kind
    have hInUse (i : Nat) := (Supply.makes_place ty a.supply).inUse e h (kind, i)
    exact (Pool.sameFree_of_inUse hCapacity hInUse).free

/-- Admission to a register file is exact. After any commands on an allocator of any configuration,
a request for a type succeeds exactly if all leaves of the type can live in registers and no kind is
needed more often than it is free. Then each leaf gets the lowest register of its kind that was free
and that no leaf before it has got. Otherwise the request ends with the error of the first leaf that
cannot live in a register or finds all registers of its kind gone, and what is free is what was free
before. -/
theorem admission_exact (config : FileConfig) (options : Options)
    (commands : List (Command FileKind)) (ty : Ty) :
    let a : Allocator File FileKind := (new (File.new config) options).run commands
    (∀ kind, (a.target.pool kind).capacity = config.capacity kind) ∧
      Admission a.target ty (allocateType ty a) := by
  intro a
  refine ⟨?_, admission_allocateType ty a⟩
  intro kind
  have hExchange := run_exchange (new (File.new config) options) commands
  rw [(File.dimensions_of_exchange hExchange).2 kind]
  cases kind <;> rfl

/-- Registers are taken directly and one is given back, so that the free numbers have a gap. A type
that needs both kinds in turn gets the lowest of each. A nested type with one float leaf more fails
at that leaf although an unsupported one comes later, and with the unsupported one first it fails
there. -/
theorem admission_exact_with_gap :
    let wanted : Descriptor FileKind := ⟨.string, some .i64, .general⟩
    let commands : List (Command FileKind) := [.take wanted, .take wanted, .take wanted,
      .giveBack ⟨wanted, 1⟩, .request (.allocateType (.scalar .f32))]
    let a : Allocator File FileKind := (new (File.new ⟨4, 2, .bits64⟩) default).run commands
    let mixed : Ty := .struct [.string, .struct [.padding .f64], .scalar .i8]
    let crowded : Ty := .struct [mixed, .struct [.scalar .f32, .void]]
    let lacking : Ty := .struct [mixed, .struct [.void, .scalar .f32]]
    (∃ r, (allocateType mixed a).result = .ok r ∧ r.walk.yielded.map (fun held => .ok held.slot) =
        ([.ok (.general, 1), .ok (.float, 1), .ok (.general, 3)] :
          List (Except Error (FileKind × Nat)))) ∧
      (allocateType crowded a).result = .error (.exhausted "float" 2) ∧
      (a.target.grants crowded.leaves).findSome? errorIn? = some (.exhausted "float" 2) ∧
      (∀ kind, ((allocateType crowded a).state.target.pool kind).free =
        (a.target.pool kind).free) ∧
      (allocateType lacking a).result = .error (.unsupportedType "void") ∧
      (a.target.grants lacking.leaves).findSome? errorIn? = some (.unsupportedType "void") := by
  intro wanted commands a mixed crowded lacking
  have hAdmission (ty : Ty) : Admission a.target ty (allocateType ty a) :=
    (admission_exact ⟨4, 2, .bits64⟩ default commands ty).2
  have hFits : a.target.Fits mixed.leaves := by
    refine ⟨by decide +kernel, ?_⟩
    intro kind
    cases kind <;> decide +kernel
  obtain ⟨r, hMixed⟩ := (hAdmission mixed).succeeds.mpr hFits
  have hGrants : a.target.grants mixed.leaves =
      [.ok (.general, 1), .ok (.float, 1), .ok (.general, 3)] := by decide +kernel
  have hCrowded : (allocateType crowded a).result = .error (.exhausted "float" 2) := by
    decide +kernel
  have hLacking : (allocateType lacking a).result = .error (.unsupportedType "void") := by
    decide +kernel
  exact ⟨⟨r, hMixed, ((hAdmission mixed).granted r hMixed).2.trans hGrants⟩, hCrowded,
    (hAdmission crowded).stopped _ hCrowded, (hAdmission crowded).restored _ hCrowded, hLacking,
    (hAdmission lacking).stopped _ hLacking⟩

end Allocator

end RegisterAssignment
