import RegisterAssignment.Proofs.Allocator.Operations
import RegisterAssignment.Proofs.Supply.Scan
import RegisterAssignment.Target.Scripted

/-! Failed requests leave nothing behind. A structure may fail at any leaf of any field of any
depth, and every structure around it then releases the fields that it has placed. Taken together
these releases are what was taken until the failure, no more and no less, on every target. -/

namespace RegisterAssignment.Allocator

variable {σ κ : Type} [Target σ κ]

/-- How a request for a type fails with an error. -/
structure RollsBack (a : Allocator σ κ) (ty : Ty) (e : Error)
    (o : Outcome (Allocator σ κ) κ (Register κ)) : Prop where
  /-- What is offered to the target is what the target has handed out, each register as often. -/
  released : (offeredIn o.calls).Perm (takenIn o.calls)
  /-- The error is the one at which a scan of the leaves stops, and a scan releases nothing. -/
  stopped : (acquireAll ty.leaves a.target).result = .error e
  /-- Nothing is released before the scan stops, and nothing is taken afterwards. -/
  calls : o.calls = (acquireAll ty.leaves a.target).calls ++
    offers (acquireAll ty.leaves a.target).state (offeredIn o.calls)
  target : o.state.target =
    afterOffers (acquireAll ty.leaves a.target).state (offeredIn o.calls)
  bindings : o.state.bindings = a.bindings
  aliases : o.state.aliases = a.aliases

variable [RegisterKind κ]

/-- Whatever fails because a type cannot be placed releases exactly what was taken for it. -/
theorem rollsBack_of_place {a : Allocator σ κ} {ty : Ty} {e : Error}
    {o : Outcome (Allocator σ κ) κ (Register κ)}
    (h : (Supply.place ty a.supply : Outcome _ κ _).result = .error e)
    (hCalls : o.calls = (Supply.place ty a.supply).calls)
    (hState : o.state = { a with supply := (Supply.place ty a.supply : Outcome _ κ _).state }) :
    RollsBack a ty e o := by
  obtain ⟨hStopped, released, hPerm, hPlaced, hTarget⟩ := Supply.place_of_error h
  rw [hPlaced] at hCalls
  have hOffered : offeredIn o.calls = released := by
    rw [hCalls, offeredIn_append, offeredIn_acquireAll, offeredIn_offers, List.nil_append]
  have hTaken : takenIn o.calls = takenIn (acquireAll ty.leaves a.target).calls := by
    rw [hCalls, takenIn_append, takenIn_offers, List.append_nil]
    rfl
  refine ⟨?_, hStopped, ?_, ?_, ?_, ?_⟩
  · rw [hOffered, hTaken]
    exact hPerm
  · rw [hOffered]
    exact hCalls
  · rw [hOffered, hState]
    exact hTarget
  · rw [hState]
  · rw [hState]

/-- Rollback is complete and exact. On any target and in any state, if a request for a type or for
a value fails, then the registers that are offered to the target are a permutation of those that it
handed out during the request, also if it refuses some of them. The error is the one that stopped
the request and does not come from a release, and no binding or alias is made. -/
theorem rollback_exact (a : Allocator σ κ) :
    (∀ (ty : Ty) (e : Error), (allocateType ty a).result = .error e →
      RollsBack a ty e (allocateType ty a)) ∧
    ∀ (v : Value) (e : Error), (allocate v a).result = .error e →
      RollsBack a (a.resolve v).ty e (allocate v a) := by
  constructor
  · intro ty e h
    exact rollsBack_of_place h rfl rfl
  · intro v e h
    cases hBound : a.binding? v with
    | some held =>
        rw [allocate_of_bound hBound] at h
        cases h
    | none =>
        have hSettled := silent_allocate_of_unbound hBound
        rw [Outcome.result_eq hSettled] at h
        cases hPlace : (Supply.place (a.resolve v).ty a.supply).result with
        | ok register =>
            simp only [settle, hPlace] at h
            cases h
        | error e' =>
            simp only [settle, hPlace] at h hSettled
            cases h
            exact rollsBack_of_place hPlace (Outcome.calls_eq hSettled) (Outcome.state_eq hSettled)

/-- The last leaf of an inner structure cannot be had, so the inner and then the outer structure
release what they have placed, and the target refuses one of these registers. A request that meets
a type without registers releases what it has taken as well. -/
theorem rollback_exact_past_refusal :
    let inner : Ty := .struct [.scalar .f32, .padding .i64, .string]
    let v : Value := ⟨0, .struct [.scalar .i32, .struct [inner, .scalar .i8]]⟩
    let a : Allocator Scripted ScriptedKind := new (Scripted.new (some 3) [1] false) default
    (allocate v a).result = .error (.exhausted "Int" 3) ∧
      (takenIn (allocate v a).calls).map Hardware.index = [0, 1, 2] ∧
      (offeredIn (allocate v a).calls).map Hardware.index = [1, 2, 0] ∧
      (offeredIn (allocate v a).calls).Perm (takenIn (allocate v a).calls) ∧
      (allocate v a).state.target.freed = [2, 0] ∧
      (allocate v a).state.bindings = a.bindings ∧
      (allocateType (.struct [.string, .void]) a).result = .error (.unsupportedType "void") ∧
      (offeredIn (allocateType (.struct [.string, .void]) a).calls).Perm
        (takenIn (allocateType (.struct [.string, .void]) a).calls) ∧
      (takenIn (allocateType (.struct [.string, .void]) a).calls).length = 1 := by
  intro inner v a
  have hValue : (allocate v a).result = .error (.exhausted "Int" 3) := by decide +kernel
  have hType : (allocateType (.struct [.string, .void]) a).result =
      .error (.unsupportedType "void") := by decide +kernel
  have hRollsBack := (rollback_exact a).2 v _ hValue
  exact ⟨hValue, by decide +kernel, by decide +kernel, hRollsBack.released, by decide +kernel,
    hRollsBack.bindings, hType, ((rollback_exact a).1 _ _ hType).released, by decide +kernel⟩

end RegisterAssignment.Allocator
