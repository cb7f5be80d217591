import RegisterAssignment.Proofs.Allocator.Operations
import RegisterAssignment.Proofs.Supply.Offers
import RegisterAssignment.Target.Scripted

/-! Freeing is a fold over a walk. However a register is nested, what is freed is what a walk over
it comes to, in this order; the target may refuse any of it without stopping the rest. -/

namespace RegisterAssignment.Allocator

variable {σ κ : Type} [Target σ κ]

/-- How it ends if an allocator offers target registers to the target one after the other. Nothing
of the allocator changes but the target and the count of what the target took back. -/
structure Frees (a : Allocator σ κ) (leaves : List (Hardware κ))
    (o : Outcome (Allocator σ κ) κ Unit) : Prop where
  calls : o.calls = offers a.target leaves
  /-- The first refusal is returned. -/
  result : o.result = firstRefusal o.calls
  ok_iff : o.result = .ok () ↔ ∀ call ∈ o.calls, call.refusal? = none
  target : o.state.target = afterOffers a.target leaves
  counted : a.supply.counting = true →
    o.state.stats.hardwareFreed = a.stats.hardwareFreed + (returnedIn o.calls).length
  state : o.state = { a with supply := a.supply.offered leaves }

/-- What gives leaves up offers them to the target one by one and reports the first refusal. -/
theorem frees_of_giveUpAll {a : Allocator σ κ} {leaves : List (Hardware κ)}
    {o : Outcome (Allocator σ κ) κ Unit}
    (hSame : o.silent = (onSupply (Supply.giveUpAll leaves) a).silent) : Frees a leaves o := by
  have hCalls : o.calls = offers a.target leaves :=
    (Outcome.calls_eq hSame).trans (Supply.giveUpAll_calls leaves a.supply)
  have hResult : o.result = firstRefusal o.calls := by
    rw [Outcome.result_eq hSame, Outcome.calls_eq hSame]
    exact Supply.giveUpAll_result leaves a.supply
  have hState : o.state = { a with supply := a.supply.offered leaves } :=
    (Outcome.state_eq hSame).trans
      (congrArg (fun s => { a with supply := s }) (Supply.giveUpAll_state leaves a.supply))
  refine ⟨hCalls, hResult, ?_, ?_, ?_, hState⟩
  · rw [hResult]
    exact firstRefusal_eq_ok_iff
  · rw [hState]
    rfl
  · intro hCounting
    rw [hState, hCalls]
    simp [Supply.offered, hCounting, stats, target]

variable [RegisterKind κ]

/-- A reset offers all leaves that are held, from empty tables. -/
theorem frees_reset (a : Allocator σ κ) :
    Frees { a with bindings := .empty, aliases := .empty } a.bindings.leaves (reset a) :=
  frees_of_giveUpAll (silent_reset a)

/-- Freeing is a fold over a walk. On any target and in any state, freeing a register offers to the
target what a walk over the register comes to, in this order and whatever was refused before, and
nothing else happens; the result is the first refusal, if there is one. Freeing a bound value does
the same for its register and removes its entry, also if something is refused; all other entries
stay. -/
theorem freeing_folds_walk (a : Allocator σ κ) :
    (∀ register : Register κ, Frees a register.walk.yielded (freeRegister register a)) ∧
    ∀ (v : Value) (held : Binding κ), a.binding? v = some held →
      Frees { a with bindings := a.bindings.erase (a.resolve v).id } held.register.walk.yielded
        (free v a) ∧
      ∀ id, (free v a).state.bindings.get? id =
        if id = (a.resolve v).id then none else a.bindings.get? id := by
  constructor
  · intro register
    rw [Register.yielded_walk]
    exact frees_of_giveUpAll (congrFun (silent_freeRegister register) a)
  · intro v held hBound
    have hFree := silent_free_of_bound hBound
    rw [Register.yielded_walk]
    refine ⟨frees_of_giveUpAll hFree, ?_⟩
    intro id
    rw [Outcome.state_eq hFree]
    exact Table.get?_erase a.bindings (a.resolve v).id id

/-- A compound holds a constant, a target register, a second compound, and a part of that once
more. The target refuses the part both times. All else is freed, the first refusal is returned, and
the entry is gone. -/
theorem freeing_folds_walk_past_refusals :
    let int (index : Nat) : Register ScriptedKind :=
      .hardware (.supplied index) ⟨⟨.scalar .i32, some .i32, .int⟩, index⟩
    let tree : Register ScriptedKind := .compound (.supplied 9)
      [.scalar .i8, .scalar .i32, .struct [.scalar .i32, .scalar .i32], .scalar .i32]
      [.constant (.supplied 8) ⟨.scalar .i8, some .i8, .int⟩ (.i8 3), int 5,
        .compound (.supplied 7) [.scalar .i32, .scalar .i32] [int 1, int 2], int 1]
    let v : Value := ⟨0, tree.ty⟩
    let w : Value := ⟨1, .scalar .i32⟩
    let a : Allocator Scripted ScriptedKind := (new (Scripted.new none [1] false) default).run
      [.bindTo w (int 4), .bindTo v tree]
    a.binding? v = some ⟨v, tree⟩ ∧
      tree.walk.yielded.map Hardware.index = [5, 1, 2, 1] ∧
      Frees { a with bindings := a.bindings.erase 0 } tree.walk.yielded (free v a) ∧
      (free v a).result = .error (.invalidFree "Int#1") ∧
      (free v a).state.target.freed = [5, 2] ∧
      (free v a).state.stats.hardwareFreed = 2 ∧
      (free v a).state.bindings.get? 0 = none ∧
      (free v a).state.bindings.get? 1 = a.bindings.get? 1 := by
  intro int tree v w a
  have hBound : a.binding? v = some ⟨v, tree⟩ := rfl
  have hId : (a.resolve v).id = 0 := by decide +kernel
  obtain ⟨hFrees, hEntries⟩ := (freeing_folds_walk a).2 v ⟨v, tree⟩ hBound
  rw [hId] at hFrees hEntries
  have hWalk : tree.walk.yielded.map Hardware.index = [5, 1, 2, 1] := by
    rw [Register.yielded_walk]
    rfl
  exact ⟨hBound, hWalk, hFrees, by decide +kernel, by decide +kernel, by decide +kernel,
    hEntries 0, hEntries 1⟩

end RegisterAssignment.Allocator
