import RegisterAssignment.Proofs.Independence.Runs
import RegisterAssignment.Proofs.Lockstep.Supply

/-! Allocators in lockstep. Two allocators whose targets cannot be told apart, whose tables agree up
to renumbering, and which both or neither forbid to replace a binding, serve every command alike.
Nothing else that an allocator keeps has any influence on what it does. -/

namespace RegisterAssignment.Allocator

open Register (shift)

variable {σ κ : Type}

/-- Allocators over related targets with the same tables, of which the second has made `n` registers
more. -/
structure InStep (T : σ → σ → Prop) (n : Nat) (a a' : Allocator σ κ) : Prop where
  supply : Supply.InStep T n a.supply a'.supply
  bindings : a'.bindings = a.bindings.map (Binding.shift n)
  aliases : a'.aliases = a.aliases
  deny : a'.rebind = .deny ↔ a.rebind = .deny

variable {T : σ → σ → Prop} {n : Nat} {a a' : Allocator σ κ}

namespace InStep

section Queries

variable {α β : Type} {v t : Value}

theorem resolve (h : InStep T n a a') (v : Value) : a'.resolve v = a.resolve v := by
  rw [Allocator.resolve, Allocator.resolve, h.aliases]

/-- What is bound on one side is bound on the other, renumbered. -/
theorem get?_bindings (h : InStep T n a a') (id : ValueId) :
    a'.bindings.get? id = (a.bindings.get? id).map (Binding.shift n) := by
  rw [h.bindings, Table.get?_map]

theorem binding? (h : InStep T n a a') (v : Value) :
    a'.binding? v = (a.binding? v).map (Binding.shift n) := by
  rw [Allocator.binding?, h.resolve, h.get?_bindings, ← Allocator.binding?]

/-- A value is loaded with the renumbered register. -/
theorem load (h : InStep T n a a') (v : Value) : a'.load v = (a.load v).map (shift n) := by
  rw [Allocator.load, Allocator.load, h.binding?, h.resolve]
  cases a.binding? v <;> rfl

/-- What is done with a register that was loaded. -/
theorem load_bind (h : InStep T n a a') {f : α → β} {k : Register κ → Except Error α}
    {k' : Register κ → Except Error β} (hNext : ∀ r, k' (r.shift n) = (k r).map f) :
    (a'.load v >>= k') = (a.load v >>= k).map f := by
  rw [h.load]
  cases a.load v with
  | error e => rfl
  | ok register => exact hNext register

/-- A refusal does not show origins. -/
theorem unexpected (h : InStep T n a a') (v : Value) (expected : String) (found : Register κ) :
    a'.unexpected v expected (found.shift n) = a.unexpected v expected found := by
  rw [Allocator.unexpected, Allocator.unexpected, h.resolve, Register.variant_shift]

theorem loadAs (h : InStep T n a a') (v : Value) (variant : Variant) :
    a'.loadAs v variant = (a.loadAs v variant).map (shift n) := by
  apply h.load_bind
  intro register
  rw [Register.variant_shift, h.unexpected]
  split <;> rfl

theorem loadPrimitive (h : InStep T n a a') (v : Value) :
    a'.loadPrimitive v = (a.loadPrimitive v).map (shift n) := by
  apply h.load_bind
  intro register
  rw [Register.variant_shift, h.unexpected]
  split <;> rfl

/-- Target registers have no origins to renumber. -/
theorem loadHardware (h : InStep T n a a') (v : Value) :
    a'.loadHardware v = a.loadHardware v := by
  have hSame : a'.loadHardware v = (a.loadHardware v).map id := by
    apply h.load_bind
    intro register
    have hRefused := h.unexpected v Variant.hardware.text register
    cases register with
    | hardware _ held => rfl
    | constant _ _ _ | compound _ _ _ => exact congrArg Except.error hRefused
  rw [hSame, Except.map_id]
  rfl

/-- Questions are answered from the tables. -/
theorem answer (h : InStep T n a a') (q : Query) :
    a'.answer q = (a.answer q).map (Answer.shift n) := by
  cases q with
  | isBound v =>
      rw [Allocator.answer, Allocator.answer, isBound, isBound, h.binding?, Option.isSome_map]
      rfl
  | load v =>
      rw [Allocator.answer, Allocator.answer, h.load]
      cases a.load v <;> rfl
  | loadAs v variant =>
      rw [Allocator.answer, Allocator.answer, h.loadAs]
      cases a.loadAs v variant <;> rfl
  | loadPrimitive v =>
      rw [Allocator.answer, Allocator.answer, h.loadPrimitive]
      cases a.loadPrimitive v <;> rfl
  | loadHardware v =>
      rw [Allocator.answer, Allocator.answer, h.loadHardware]
      cases a.loadHardware v <;> rfl
  | aliasTarget v =>
      rw [Allocator.answer, Allocator.answer, h.aliases]
      rfl
  | resolve v =>
      rw [Allocator.answer, Allocator.answer, h.resolve]
      rfl

/-- Aliases are the same on both sides, so an alias is refused on both or on neither. -/
theorem closesCycle_iff (h : InStep T n a a') : a'.ClosesCycle v t ↔ a.ClosesCycle v t := by
  rw [ClosesCycle, ClosesCycle, h.aliases]

/-- Whether a binding is refused depends on which registers are the same, and renumbering keeps
that. -/
theorem refusesBind_iff (h : InStep T n a a') {register : Register κ} :
    a'.RefusesBind v (register.shift n) ↔ a.RefusesBind v register := by
  rw [RefusesBind, RefusesBind, h.deny, h.binding?]
  cases a.binding? v <;> simp

variable [DecidableEq κ]

/-- Renumbering keeps different registers different, so the same bindings share a register. -/
theorem holds (h : InStep T n a a') (id : ValueId) (register : Register κ) :
    a'.holds id (register.shift n) = a.holds id register := by
  rw [Allocator.holds, Allocator.holds, h.get?_bindings]
  cases a.bindings.get? id with
  | none => rfl
  | some held => simp

/-- An alias releases the same leaves. -/
theorem shadowed (h : InStep T n a a') (v t : Value) : a'.shadowed v t = a.shadowed v t := by
  rw [Allocator.shadowed, Allocator.shadowed, h.get?_bindings, h.aliases]
  cases a.bindings.get? v.id with
  | none => rfl
  | some dropped =>
      simp only [Option.map_some, Binding.register_shift, h.holds, Register.leaves_shift]

end Queries

/-- If what was made is the same up to renumbering, so is what is bound. -/
theorem settle (h : InStep T n a a') {made made' : Outcome (Supply σ) κ (Register κ)}
    (hMade : Mirrors (Supply.InStep T n) (shift n) made made') (id : ValueId) (v : Value) :
    Mirrors (InStep T n) (shift n) (a.settle id v made) (a'.settle id v made') := by
  cases hResult : made.result with
  | error e =>
      simp only [Allocator.settle, hResult, hMade.error hResult]
      exact ⟨rfl, ⟨hMade.state, h.bindings, h.aliases, h.deny⟩, hMade.calls⟩
  | ok register =>
      simp only [Allocator.settle, hResult, hMade.ok hResult]
      refine ⟨rfl, ⟨hMade.state, ?_, h.aliases, h.deny⟩, hMade.calls⟩
      rw [h.bindings, Table.map_insert]
      rfl

end InStep

/-- What a supply does in lockstep it does so on behalf of an allocator. -/
theorem lockstep_onSupply {α β : Type} {f : α → β} {x : Action (Supply σ) κ α}
    {x' : Action (Supply σ) κ β} (h : Lockstep (Supply.InStep T n) f x x') :
    Lockstep (InStep T n) f (onSupply x : Action (Allocator σ κ) κ α) (onSupply x') := by
  intro a a' hStep
  have hSupply := h hStep.supply
  exact ⟨hSupply.result, ⟨hSupply.state, hStep.bindings, hStep.aliases, hStep.deny⟩, hSupply.calls⟩

/-- A request that makes a register for an unbound value, and answers for a bound one from its
binding. -/
theorem lockstep_making {v : Value} {x : Action (Allocator σ κ) κ (Register κ)}
    {make : Value → Action (Supply σ) κ (Register κ)}
    (reuse : Value → Register κ → Except Error (Register κ))
    (hMake : ∀ root, Lockstep (Supply.InStep T n) (shift n) (make root) (make root))
    (hReuse : ∀ root register, reuse root (register.shift n) =
      (reuse root register).map (shift n))
    (hUnbound : ∀ b : Allocator σ κ, b.binding? v = none →
      (x b).silent = b.settle (b.resolve v).id v (make (b.resolve v) b.supply))
    (hBound : ∀ (b : Allocator σ κ) held, b.binding? v = some held →
      x b = ⟨reuse (b.resolve v) held.register, b, [], []⟩) :
    Lockstep (InStep T n) (shift n) x x := by
  intro a a' h
  have hSame := h.binding? v
  cases hHeld : a.binding? v with
  | none =>
      rw [hHeld] at hSame
      apply Mirrors.of_silent
      rw [hUnbound a hHeld, hUnbound a' hSame, h.resolve]
      exact h.settle (hMake _ h.supply) _ v
  | some held =>
      rw [hHeld] at hSame
      rw [hBound a held hHeld, hBound a' _ hSame, h.resolve]
      exact ⟨hReuse _ _, h, rfl⟩

variable [RegisterKind κ] [Target σ κ]

section Requests

variable (hT : Interchangeable T) (v t : Value)

include hT

theorem lockstep_allocate :
    Lockstep (InStep T n) (shift n) (allocate v : Action (Allocator σ κ) κ _) (allocate v) :=
  lockstep_making (fun _ => .ok) (fun root => Supply.lockstep_place hT root.ty) (fun _ _ => rfl)
    (fun _ => silent_allocate_of_unbound) fun _ _ => allocate_of_bound

theorem lockstep_allocateHardware :
    Lockstep (InStep T n) (shift n) (allocateHardware v : Action (Allocator σ κ) κ _)
      (allocateHardware v) := by
  refine lockstep_making (fun root register =>
      if register.variant = .hardware then .ok register else
        .error (.wrongVariant root.text Variant.hardware.text register.variant.text))
    (fun root => Supply.lockstep_placeWhole hT root.ty) ?_
    (fun _ => silent_allocateHardware_of_unbound) fun _ _ => allocateHardware_of_bound
  intro root register
  rw [Register.variant_shift]
  split <;> rfl

theorem lockstep_allocateConstant (literal : Literal) :
    Lockstep (InStep T n) (shift n) (allocateConstant v literal : Action (Allocator σ κ) κ _)
      (allocateConstant v literal) :=
  lockstep_making (fun _ => .ok) (fun root => Supply.lockstep_placeConstant hT root literal)
    (fun _ _ => rfl) (fun _ => silent_allocateConstant_of_unbound)
    fun _ _ => allocateConstant_of_bound

/-- The renumbered register is released by the same calls. -/
theorem lockstep_freeRegister (register : Register κ) :
    Lockstep (InStep T n) id (freeRegister register : Action (Allocator σ κ) κ _)
      (freeRegister (register.shift n)) := by
  have hShifted := silent_freeRegister (σ := σ) (register.shift n)
  rw [Register.leaves_shift] at hShifted
  exact (lockstep_onSupply (Supply.lockstep_giveUpAll hT _)).of_silent
    (silent_freeRegister register) hShifted

/-- Freeing a value finds the renumbered register, or nothing on both sides. -/
theorem lockstep_free :
    Lockstep (InStep T n) id (free v : Action (Allocator σ κ) κ _) (free v) := by
  intro a a' h
  have hSame := h.binding? v
  apply Mirrors.of_silent
  cases hBound : a.binding? v with
  | none =>
      rw [hBound] at hSame
      rw [free_of_unbound hBound, free_of_unbound hSame]
      exact ⟨rfl, h, rfl⟩
  | some held =>
      rw [hBound] at hSame
      have hTables : InStep T n { a with bindings := a.bindings.erase (a.resolve v).id }
          { a' with bindings := a'.bindings.erase (a'.resolve v).id } := by
        refine ⟨h.supply, ?_, h.aliases, h.deny⟩
        simp only [h.resolve, h.bindings, Table.map_erase]
      rw [silent_free_of_bound hBound, silent_free_of_bound hSame, Binding.register_shift,
        Register.leaves_shift]
      exact (lockstep_onSupply (Supply.lockstep_giveUpAll hT _) hTables).silent

/-- A reset goes through the same identities in the same order. -/
theorem lockstep_reset :
    Lockstep (InStep T n) id (reset : Action (Allocator σ κ) κ _) reset := by
  intro a a' h
  have hTables : InStep T n ({ a with bindings := .empty, aliases := .empty } : Allocator σ κ)
      { a' with bindings := .empty, aliases := .empty } := ⟨h.supply, rfl, rfl, h.deny⟩
  apply Mirrors.of_silent
  rw [silent_reset, silent_reset, h.bindings, Table.leaves_map_shift]
  exact (lockstep_onSupply (Supply.lockstep_giveUpAll hT _) hTables).silent

variable [DecidableEq κ]

/-- An alias changes the tables alike and releases the same leaves. -/
theorem lockstep_aliasTo :
    Lockstep (InStep T n) id (aliasTo v t : Action (Allocator σ κ) κ _) (aliasTo v t) := by
  intro a a' h
  apply Mirrors.of_silent
  by_cases hCycle : a.ClosesCycle v t
  · rw [aliasTo_of_cycle hCycle, aliasTo_of_cycle (h.closesCycle_iff.mpr hCycle)]
    exact ⟨rfl, h, rfl⟩
  · have hTables : InStep T n { a with
        supply := a.supply.tally fun stats => { stats with aliases := stats.aliases + 1 }
        bindings := a.bindings.erase v.id
        aliases := a.aliases.insert v.id (a.aliases.flatten t) } { a' with
        supply := a'.supply.tally fun stats => { stats with aliases := stats.aliases + 1 }
        bindings := a'.bindings.erase v.id
        aliases := a'.aliases.insert v.id (a'.aliases.flatten t) } := by
      refine ⟨h.supply.tally fun stats => { stats with aliases := stats.aliases + 1 }, ?_, ?_,
        h.deny⟩
      · simp only [h.bindings, Table.map_erase]
      · simp only [h.aliases]
    rw [silent_aliasTo_of_accepted hCycle,
      silent_aliasTo_of_accepted (mt h.closesCycle_iff.mp hCycle), h.shadowed]
    exact (lockstep_onSupply (Supply.lockstep_giveUpAll hT _) hTables).silent

omit hT [Target σ κ] in
/-- A client that binds the renumbered register gets the same answer. -/
theorem lockstep_bindTo (register : Register κ) :
    Lockstep (InStep T n) id (bindTo v register : Action (Allocator σ κ) κ _)
      (bindTo v (register.shift n)) := by
  intro a a' h
  apply Mirrors.of_silent
  by_cases hRefused : a.RefusesBind v register
  · obtain ⟨hDeny, held, hHeld, hOther⟩ := hRefused
    have hHeld' : a'.binding? v = some (held.shift n) := by rw [h.binding?, hHeld]; rfl
    have hOther' : (held.shift n).register ≠ register.shift n := by simpa using hOther
    rw [bindTo_of_denied hDeny hHeld hOther, bindTo_of_denied (h.deny.mpr hDeny) hHeld' hOther',
      h.resolve, Binding.register_shift, Register.text_shift, Binding.producer_shift]
    exact ⟨rfl, h, rfl⟩
  · rw [silent_bindTo_of_accepted hRefused,
      silent_bindTo_of_accepted (mt h.refusesBind_iff.mp hRefused)]
    have hSupply := h.supply.tally fun stats => { stats with binds := stats.binds + 1 }
    refine ⟨rfl, ⟨hSupply, ?_, h.aliases, h.deny⟩, rfl⟩
    simp only [h.resolve, h.bindings, Table.map_insert]
    rfl

end Requests

variable [DecidableEq κ]

/-- One request to both. -/
theorem lockstep_serve (hT : Interchangeable T) (r : Request) :
    Lockstep (InStep T n) (Answer.shift n) (serve r : Action (Allocator σ κ) κ _) (serve r) := by
  cases r with
  | allocate v => exact (lockstep_allocate hT v).map fun _ => rfl
  | allocateHardware v => exact (lockstep_allocateHardware hT v).map fun _ => rfl
  | allocateConstant v literal => exact (lockstep_allocateConstant hT v literal).map fun _ => rfl
  | allocateType ty => exact (lockstep_onSupply (Supply.lockstep_place hT ty)).map fun _ => rfl
  | aliasTo v t => exact (lockstep_aliasTo hT v t).map fun _ => rfl
  | free v => exact (lockstep_free hT v).map fun _ => rfl
  | reset => exact (lockstep_reset hT).map fun _ => rfl
  | query q => exact fun a a' h => ⟨h.answer q, h, rfl⟩

/-- One command to both, about the same registers up to renumbering. -/
theorem lockstep_perform (hT : Interchangeable T) (c : Command κ) :
    Lockstep (InStep T n) (Answer.shift n) (perform c : Action (Allocator σ κ) κ _)
      (perform (c.shift n)) := by
  cases c with
  | request r => exact lockstep_serve hT r
  | bindTo v register => exact (lockstep_bindTo v register).map fun _ => rfl
  | freeRegister register => exact (lockstep_freeRegister hT register).map fun _ => rfl
  | describe ty => exact (lockstep_onSupply (Supply.lockstep_describe hT ty)).map fun _ => rfl
  | take wanted => exact (lockstep_onSupply (Supply.lockstep_take hT wanted)).map fun _ => rfl
  | giveBack held => exact (lockstep_onSupply (Supply.lockstep_giveBack hT held)).map fun _ => rfl

/-- Any requests to both, one after the other. -/
theorem InStep.served (hT : Interchangeable T) (h : InStep T n a a') (requests : List Request) :
    List.Forall₂ (Mirrors (InStep T n) (Answer.shift n)) (a.served requests)
      (a'.served requests) := by
  induction requests generalizing a a' with
  | nil => exact .nil
  | cons r rest ih =>
      have hFirst := lockstep_serve hT r h
      exact .cons hFirst (ih hFirst.state)

end RegisterAssignment.Allocator
