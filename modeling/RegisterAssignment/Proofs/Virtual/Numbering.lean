import RegisterAssignment.Proofs.Allocator.Counters
import RegisterAssignment.Proofs.Supply.Layout

/-! The numbers of virtual registers. Every kind is numbered upwards from 0, in the order in which
its registers are handed out, whoever asks for them and whatever comes back in between. The leaves
of the registers that an allocator creates are among those that were handed out, each of them once,
so no two of them are ever in the same place. -/

namespace RegisterAssignment

/-- Target registers whose numbers differ within each kind are in different places. -/
theorem nodup_slots_of_nodup_indices {κ : Type} [DecidableEq κ] {leaves : List (Hardware κ)}
    (h : ∀ kind, ((leaves.filter (·.kind = kind)).map Hardware.index).Nodup) :
    (slots leaves).Nodup := by
  induction leaves with
  | nil => exact List.nodup_nil
  | cons leaf rest ih =>
      rw [slots_cons, List.nodup_cons]
      constructor
      · intro hSlot
        obtain ⟨other, hOther, hSame⟩ := List.mem_map.mp hSlot
        obtain ⟨hKind, hIndex⟩ := Prod.mk.inj hSame
        have hNodup := h leaf.kind
        rw [List.filter_cons_of_pos (by simp), List.map_cons, List.nodup_cons] at hNodup
        apply hNodup.1
        rw [← hIndex]
        exact List.mem_map_of_mem (List.mem_filter.mpr ⟨hOther, by simpa using hKind⟩)
      · apply ih
        intro kind
        have hRest : rest.Sublist (leaf :: rest) := List.sublist_cons_self ..
        exact (h kind).sublist ((hRest.filter _).map _)

namespace Virtual

variable {t t' : Virtual} {calls : List (Call VirtualKind)} {kind : VirtualKind}

theorem allocated_new (width : PointerWidth) (kind : VirtualKind) :
    (new width).allocated kind = 0 :=
  congrArg UInt32.toNat (VirtualCounters.get_zero kind)

/-- Handing out a register does not count for other kinds. -/
theorem allocated_take_of_ne {wanted : Descriptor VirtualKind} (h : wanted.kind ≠ kind) :
    (take wanted t).state.allocated kind = t.allocated kind := by
  simp only [take, allocated, VirtualCounters.get_bump, if_neg h.symm]

/-- Handing a register out moves its kind on by one, as long as the count has not run out. -/
theorem allocated_take {wanted : Descriptor VirtualKind}
    (h : t.allocated wanted.kind + 1 < 2 ^ 32) :
    (take wanted t).state.allocated wanted.kind = t.allocated wanted.kind + 1 := by
  simp only [take, allocated, VirtualCounters.get_bump, if_true] at h ⊢
  rw [UInt32.toNat_add]
  exact Nat.mod_eq_of_lt h

/-- The registers of one kind are numbered in the order in which they are handed out, from where
the count stood. Neither other kinds nor registers that come back have a part in it. -/
theorem indices_of_exchange (h : Exchange t calls t')
    (hLimit : t.allocated kind + (takenIn calls).countP (·.kind = kind) < 2 ^ 32) :
    ((takenIn calls).filter (·.kind = kind)).map Hardware.index =
      List.range' (t.allocated kind) ((takenIn calls).countP (·.kind = kind)) := by
  induction h with
  | none => rfl
  | describe ty _ ih => exact ih hLimit
  | giveBack held _ ih => exact ih hLimit
  | @take t t' rest wanted _ ih =>
      have hTaken : takenIn (.take wanted (Target.take wanted t).result :: rest) =
          ⟨wanted, t.allocated wanted.kind⟩ :: takenIn rest := rfl
      rw [hTaken] at hLimit ⊢
      by_cases hKind : wanted.kind = kind
      · subst hKind
        rw [List.countP_cons_of_pos (by simp [Hardware.kind])] at hLimit ⊢
        have hNext : (Target.take wanted t).state.allocated wanted.kind =
            t.allocated wanted.kind + 1 := allocated_take (by omega)
        rw [List.filter_cons_of_pos (by simp [Hardware.kind]), List.map_cons, List.range'_succ,
          ih (by omega), hNext]
      · rw [List.countP_cons_of_neg (by simp [Hardware.kind, hKind])] at hLimit ⊢
        have hSame : (Target.take wanted t).state.allocated kind = t.allocated kind :=
          allocated_take_of_ne hKind
        rw [List.filter_cons_of_neg (by simp [Hardware.kind, hKind]), ih (by omega), hSame]

/-- From a new target on, the numbers of a kind are 0, 1, 2 and so on. -/
theorem indices_of_exchange_new {width : PointerWidth} (h : Exchange (new width) calls t')
    (hLimit : (takenIn calls).countP (·.kind = kind) < 2 ^ 32) :
    ((takenIn calls).filter (·.kind = kind)).map Hardware.index =
      List.range ((takenIn calls).countP (·.kind = kind)) := by
  have hStart : (new width).allocated kind = 0 := allocated_new width kind
  rw [indices_of_exchange h (by omega), hStart, List.range_eq_range']

end Virtual

variable {σ κ : Type}

namespace Supply

variable [Target σ κ]

/-- An action that takes from the target the leaves of the register that it makes, in their order,
and nothing else. -/
def TakesLeaves (x : Action (Supply σ) κ (Register κ)) : Prop :=
  ∀ s r, (x s).result = .ok r → takenIn (x s).calls = r.leaves

theorem takesLeaves_placeWhole (ty : Ty) :
    TakesLeaves (placeWhole ty : Action (Supply σ) κ (Register κ)) := by
  intro s r hResult
  obtain ⟨d, held, _, _, rfl, hTaken⟩ := ok_of_describe_hardware id hResult
  exact hTaken

/-- What is taken for a type becomes the leaves of its register, in this order. -/
theorem takesLeaves_place [RegisterKind κ] (ty : Ty) :
    TakesLeaves (place ty : Action (Supply σ) κ (Register κ)) := by
  intro s r hResult
  exact (fills_any.place ty trivial hResult).2

end Supply

namespace Allocator

variable [DecidableEq κ] [RegisterKind κ] [Target σ κ]

/-- The register that a command creates, if it creates one: the command asks for a type, or for a
value that has no register so far, and succeeds. -/
def created? (a : Allocator σ κ) : Command κ → Option (Register κ)
  | .request (.allocate v) => if a.isBound v then none else (allocate v a).result.toOption
  | .request (.allocateHardware v) =>
    if a.isBound v then none else (allocateHardware v a).result.toOption
  | .request (.allocateType ty) => (allocateType ty a).result.toOption
  | _ => none

def created (a : Allocator σ κ) : List (Command κ) → List (Register κ)
  | [] => []
  | c :: rest => (a.created? c).toList ++ created (perform c a).state rest

omit [DecidableEq κ] [RegisterKind κ] [Target σ κ] in
/-- Binding a register that was made adds no calls. -/
theorem takenIn_of_settle {a : Allocator σ κ} {make : Action (Supply σ) κ (Register κ)}
    {o : Outcome (Allocator σ κ) κ (Register κ)} {id : ValueId} {producer : Value} {r : Register κ}
    (hMake : Supply.TakesLeaves make) (hSettled : o.silent = a.settle id producer (make a.supply))
    (hCreated : o.result.toOption = some r) : takenIn o.calls = r.leaves := by
  rw [Outcome.result_eq hSettled] at hCreated
  rw [Outcome.calls_eq hSettled]
  cases hResult : (make a.supply).result with
  | ok made =>
      simp only [settle, hResult] at hCreated ⊢
      cases hCreated
      exact hMake _ _ hResult
  | error e =>
      simp only [settle, hResult] at hCreated
      cases hCreated

/-- A command that creates a register takes its leaves, and nothing besides. -/
theorem takenIn_of_created? {a : Allocator σ κ} {c : Command κ} {r : Register κ}
    (h : a.created? c = some r) : takenIn (perform c a).calls = r.leaves := by
  unfold created? at h
  split at h
  next v =>
    rw [perform, serve, Action.map_apply]
    split at h
    next => cases h
    next hBound =>
      have hNone : a.binding? v = none := by simpa [isBound] using hBound
      exact takenIn_of_settle (Supply.takesLeaves_place _) (silent_allocate_of_unbound hNone) h
  next v =>
    rw [perform, serve, Action.map_apply]
    split at h
    next => cases h
    next hBound =>
      have hNone : a.binding? v = none := by simpa [isBound] using hBound
      exact takenIn_of_settle (Supply.takesLeaves_placeWhole _)
        (silent_allocateHardware_of_unbound hNone) h
  next ty =>
    rw [perform, serve, Action.map_apply]
    cases hResult : (Supply.place ty a.supply).result with
    | ok made =>
        rw [show (allocateType ty a).result = .ok made from hResult] at h
        cases h
        exact Supply.takesLeaves_place ty _ _ hResult
    | error e =>
        rw [show (allocateType ty a).result = .error e from hResult] at h
        cases h
  next => cases h

/-- The leaves of all created registers were handed out by the target, in this order. What else was
handed out went to structures that could not be completed, or past the allocator. -/
theorem leaves_created_sublist (a : Allocator σ κ) (commands : List (Command κ)) :
    ((a.created commands).flatMap Register.leaves).Sublist (takenIn (a.history commands)) := by
  induction commands generalizing a with
  | nil => exact List.Sublist.refl _
  | cons c rest ih =>
      rw [created, history, List.flatMap_append, takenIn_append]
      apply List.Sublist.append _ (ih (perform c a).state)
      cases hCreated : a.created? c with
      | none => exact List.nil_sublist _
      | some r =>
          rw [takenIn_of_created? hCreated]
          simp

/-- Virtual registers are never handed out twice. Along every run from a new virtual target, calls
that go past the allocator included, the registers of each kind are numbered 0, 1, 2 and so on in
the order in which they are handed out, provided that there are not more of a kind than the numbers
can count. So no two leaves of the registers that the run creates are in the same place, whatever is
freed or reset in between and whichever structures cannot be completed. -/
theorem numbers_never_reissued (width : PointerWidth) (options : Options)
    (commands : List (Command VirtualKind)) :
    let start : Allocator Virtual VirtualKind := new (Virtual.new width) options
    let taken := takenIn (start.history commands)
    (∀ kind, taken.countP (·.kind = kind) < 2 ^ 32) →
    (∀ kind, (taken.filter (·.kind = kind)).map Hardware.index =
      List.range (taken.countP (·.kind = kind))) ∧
    (slots ((start.created commands).flatMap Register.leaves)).Nodup := by
  intro start taken hLimit
  have hExchange : Exchange (Virtual.new width) (start.history commands) _ :=
    start.run_exchange commands
  have hIndices : ∀ kind, (taken.filter (·.kind = kind)).map Hardware.index =
      List.range (taken.countP (·.kind = kind)) :=
    fun kind => Virtual.indices_of_exchange_new hExchange (hLimit kind)
  have hNodup : (slots taken).Nodup := by
    apply nodup_slots_of_nodup_indices
    intro kind
    rw [hIndices kind]
    exact List.nodup_range
  exact ⟨hIndices, hNodup.sublist ((start.leaves_created_sublist commands).map _)⟩

/-- A structure is freed and allocated again, another one cannot be completed after its first field,
and a register is taken past the allocator before everything is reset. Integers of 8 and of 16 bits
share a kind, and pointers share one with integers of 64 bits. -/
theorem numbers_never_reissued_after_reset :
    let pair : Value := ⟨0, .struct [.scalar .i8, .scalar .i16]⟩
    let broken : Value := ⟨1, .struct [.scalar .i64, .void]⟩
    let address : Value := ⟨2, .pointer (.scalar .i32) .global⟩
    let commands : List (Command VirtualKind) :=
      [.request (.allocate pair), .request (.free pair), .request (.allocate pair),
        .request (.allocate broken), .request (.allocateHardware address),
        .request (.allocateHardware address), .take ⟨.scalar .i64, some .i64, .int64⟩,
        .request .reset, .request (.allocateType (.scalar .i64)),
        .request (.allocateHardware address)]
    let start : Allocator Virtual VirtualKind := new (Virtual.new .bits64) ⟨.silent, true⟩
    let taken := takenIn (start.history commands)
    let places := slots ((start.created commands).flatMap Register.leaves)
    (∀ kind, taken.countP (·.kind = kind) < 2 ^ 32) ∧
      taken.countP (·.kind = .int64) = 5 ∧
      (taken.filter (·.kind = .int64)).map Hardware.index = List.range 5 ∧
      places = [(.int16, 0), (.int16, 1), (.int16, 2), (.int16, 3), (.int64, 1), (.int64, 3),
        (.int64, 4)] ∧ places.Nodup := by
  intro pair broken address commands start taken places
  have hLimit : ∀ kind, taken.countP (·.kind = kind) < 2 ^ 32 := by
    intro kind
    cases kind <;> decide +kernel
  obtain ⟨hIndices, hNodup⟩ := numbers_never_reissued .bits64 ⟨.silent, true⟩ commands hLimit
  have hCount : taken.countP (·.kind = .int64) = 5 := by decide +kernel
  have hLongs : (taken.filter (·.kind = .int64)).map Hardware.index = List.range 5 :=
    (hIndices .int64).trans (congrArg List.range hCount)
  exact ⟨hLimit, hCount, hLongs, by decide +kernel, hNodup⟩

end Allocator

end RegisterAssignment
