import RegisterAssignment.Command
import RegisterAssignment.Proofs.Aliases.Chain
import RegisterAssignment.Proofs.Allocator.Leaves
import RegisterAssignment.Proofs.Supply.Release

/-! What each operation of an allocator does, apart from its log. An operation answers at once, or
makes a register and binds it, or changes the tables and then gives leaves up. -/

namespace RegisterAssignment

namespace Allocator

variable {σ κ α β : Type} {a : Allocator σ κ} {v target : Value}

/-- How a request ends for which an action of the supply was run to make a register: the register
is bound, or the tables stay as they are. -/
def settle (a : Allocator σ κ) (id : ValueId) (producer : Value)
    (o : Outcome (Supply σ) κ (Register κ)) : Outcome (Allocator σ κ) κ (Register κ) :=
  match o.result with
  | .ok register => ⟨.ok register,
      { a with supply := o.state, bindings := a.bindings.insert id ⟨producer, register⟩ },
      o.calls, []⟩
  | .error e => ⟨.error e, { a with supply := o.state }, o.calls, []⟩

/-- Actions of the supply can be put together before or after they are run for an allocator. -/
theorem onSupply_bind (x : Action (Supply σ) κ α) (f : α → Action (Supply σ) κ β) :
    (onSupply (x >>= f) : Action (Allocator σ κ) κ β) = onSupply x >>= fun b => onSupply (f b) := by
  funext a
  have hPart : ((onSupply x : Action (Allocator σ κ) κ α) a).result = (x a.supply).result := rfl
  cases h : (x a.supply).result with
  | error e =>
      rw [Action.bind_apply_of_error (hPart.trans h)]
      simp only [onSupply, Action.onPart, Action.bind_apply_of_error h]
  | ok b =>
      rw [Action.bind_apply_of_ok (hPart.trans h)]
      simp only [onSupply, Action.onPart, Action.bind_apply_of_ok h]

/-- The common end of all requests that make a register. -/
theorem silent_make (x : Action (Supply σ) κ (Register κ)) (line : Register κ → String)
    (id : ValueId) (producer : Value) (a : Allocator σ κ) :
    ((do
      let register ← onSupply x
      Action.note .trace (line register)
      record id producer register
      return register : Action (Allocator σ κ) κ (Register κ)) a).silent =
      a.settle id producer (x a.supply) := by
  have hPart : ((onSupply x : Action (Allocator σ κ) κ _) a).result = (x a.supply).result := rfl
  cases h : (x a.supply).result with
  | error e =>
      rw [Action.bind_apply_of_error (hPart.trans h)]
      simp only [settle, h]
      rfl
  | ok register =>
      rw [Action.bind_apply_of_ok (hPart.trans h)]
      simp only [settle, h, Outcome.silent]
      congr 1
      exact List.append_nil _

/-- Giving leaves up on behalf of an allocator touches its supply only. -/
theorem all_map_onSupply (xs : List (Action (Supply σ) κ Unit)) :
    Action.all (xs.map onSupply) = (onSupply (Action.all xs) : Action (Allocator σ κ) κ Unit) := by
  induction xs with
  | nil => rfl
  | cons x rest ih => rw [List.map_cons, Action.all, ih]; rfl

section Allocate

variable [RegisterKind κ] [Target σ κ]

/-- A value that has a register gets that one. -/
theorem allocate_of_bound {held : Binding κ} (h : a.binding? v = some held) :
    allocate v a = ⟨.ok held.register, a, [], []⟩ := by
  rw [binding?] at h
  simp only [allocate, Action.current_bind, h, Action.pure_apply]

/-- For an unbound value a register is placed for the type at the end of the chain and bound. -/
theorem silent_allocate_of_unbound (h : a.binding? v = none) :
    (allocate v a).silent =
      a.settle (a.resolve v).id v (Supply.place (a.resolve v).ty a.supply) := by
  rw [binding?] at h
  simp only [allocate, Action.current_bind, h]
  exact silent_make _ _ _ _ a

/-- A value that is bound to a target register gets that one, and a value that is bound to
anything else is refused. -/
theorem allocateHardware_of_bound {held : Binding κ} (h : a.binding? v = some held) :
    allocateHardware v a = ⟨if held.register.variant = .hardware then .ok held.register else
      .error (.wrongVariant (a.resolve v).text Variant.hardware.text held.register.variant.text),
      a, [], []⟩ := by
  rw [binding?] at h
  obtain ⟨producer, register⟩ := held
  cases register <;>
    simp [allocateHardware, Action.current_bind, h, Register.variant, Action.fail]

/-- An unbound value gets one target register, as the target describes its type. -/
theorem silent_allocateHardware_of_unbound (h : a.binding? v = none) :
    (allocateHardware v a).silent =
      a.settle (a.resolve v).id v (Supply.placeWhole (a.resolve v).ty a.supply) := by
  rw [binding?] at h
  rw [Supply.placeWhole, ← silent_make _ fun register =>
    s!"allocate hardware {(a.resolve v).text} -> {register.text}"]
  simp only [allocateHardware, Action.current_bind, h, onSupply_bind, Action.bind_assoc]

/-- A value that has a register keeps it, whatever the literal. -/
theorem allocateConstant_of_bound {held : Binding κ} {literal : Literal}
    (h : a.binding? v = some held) :
    allocateConstant v literal a = ⟨.ok held.register, a, [], []⟩ := by
  rw [binding?] at h
  simp only [allocateConstant, Action.current_bind, h, Action.pure_apply]

/-- An unbound value is bound to the constant, if the literal fits. -/
theorem silent_allocateConstant_of_unbound {literal : Literal} (h : a.binding? v = none) :
    (allocateConstant v literal a).silent =
      a.settle (a.resolve v).id v (Supply.placeConstant (a.resolve v) literal a.supply) := by
  rw [binding?] at h
  rw [Supply.placeConstant, ← silent_make _ fun register =>
    s!"constant {(a.resolve v).text} -> {register.text}"]
  simp only [allocateConstant, Action.current_bind, h, onSupply_bind, Action.bind_assoc]
  refine congrArg Outcome.silent (congrFun (congrArg
    (onSupply (Supply.describe (a.resolve v).ty) >>= ·) ?_) a)
  funext descriptor
  split <;> rfl

end Allocate

/-- An alias would close a cycle if its value is met on the chain of the stored target. -/
def ClosesCycle (a : Allocator σ κ) (v target : Value) : Prop :=
  ∃ hop ∈ a.aliases.chain (a.aliases.flatten target), hop.id = v.id

/-- The check that is made before an alias is stored finds exactly these cycles. -/
theorem any_chain_eq_true_iff :
    ((a.aliases.chain (a.aliases.flatten target)).any fun hop => hop.id == v.id) = true ↔
      a.ClosesCycle v target := by
  simp [ClosesCycle]

section Bind

variable [DecidableEq κ] [RegisterKind κ] {register : Register κ}

/-- A value may be bound to a register unless it has another one and the policy forbids to replace
it. -/
def RefusesBind (a : Allocator σ κ) (v : Value) (register : Register κ) : Prop :=
  a.rebind = .deny ∧ ∃ held, a.binding? v = some held ∧ held.register ≠ register

/-- A refused binding changes nothing and names the register that is there, with its producer. -/
theorem bindTo_of_denied {held : Binding κ} (hDeny : a.rebind = .deny)
    (hHeld : a.binding? v = some held) (hOther : held.register ≠ register) :
    bindTo v register a =
      let name := ValueId.text (a.resolve v).id
      let maker := ValueId.text held.producer.id
      ⟨.error (.codegen
        s!"value {name} is already bound to {held.register.text} (produced by {maker})"),
        a, [], []⟩ := by
  have hRefused : replacing (a.resolve v).id register (a.binding? v) a =
      let name := ValueId.text (a.resolve v).id
      let maker := ValueId.text held.producer.id
      ⟨.error (.codegen
        s!"value {name} is already bound to {held.register.text} (produced by {maker})"),
        a, [], []⟩ := by
    rw [hHeld, replacing, Action.current_bind, if_neg hOther, hDeny]
    rfl
  rw [bindTo, Action.current_bind, ← binding?,
    Action.bind_apply_of_error (congrArg Outcome.result hRefused), hRefused]

/-- Whatever the policy has to say about an accepted binding, it says in the log. -/
theorem silent_replacing_of_accepted (h : ¬ a.RefusesBind v register) :
    (replacing (a.resolve v).id register (a.binding? v) a).silent = ⟨.ok (), a, [], []⟩ := by
  cases hHeld : a.binding? v with
  | none => rfl
  | some held =>
      rw [replacing, Action.current_bind]
      by_cases hSame : held.register = register
      · rw [if_pos hSame]
        rfl
      · rw [if_neg hSame]
        cases hPolicy : a.rebind with
        | silent => rfl
        | warn =>
            dsimp only
            split <;> rfl
        | deny => exact absurd ⟨hPolicy, held, hHeld, hSame⟩ h

/-- An accepted binding replaces whatever was there, and the target is not asked. -/
theorem silent_bindTo_of_accepted (h : ¬ a.RefusesBind v register) :
    (bindTo v register a).silent = ⟨.ok (), { a with
      supply := a.supply.tally fun stats => { stats with binds := stats.binds + 1 }
      bindings := a.bindings.insert (a.resolve v).id ⟨v, register⟩ }, [], []⟩ := by
  have hReplaced := silent_replacing_of_accepted h
  rw [bindTo, Action.current_bind, ← binding?,
    Action.bind_apply_of_ok (Outcome.result_eq hReplaced), Outcome.state_eq hReplaced,
    Outcome.calls_eq hReplaced]
  rfl

/-- The target registers that an accepted alias releases: those of the binding that it shadows,
unless the value goes on to use the same register. -/
def shadowed (a : Allocator σ κ) (v target : Value) : List (Hardware κ) :=
  match a.bindings.get? v.id with
  | none => []
  | some dropped =>
    if a.holds (a.aliases.resolve (a.aliases.flatten target)).id dropped.register then []
    else dropped.register.leaves

omit [RegisterKind κ] in
theorem holds_iff {id : ValueId} :
    a.holds id register = true ↔
      ∃ live, a.bindings.get? id = some live ∧ live.register = register := by
  rw [holds]
  cases a.bindings.get? id with
  | none => simp
  | some live => simp

omit [RegisterKind κ] in
/-- A register that is kept because the value goes on to use it is still held by the bindings that
remain. -/
theorem mem_leaves_erase_of_shared {dropped : Register κ} {leaf : Hardware κ}
    (hOpen : ¬ a.ClosesCycle v target)
    (hShared : a.holds (a.aliases.resolve (a.aliases.flatten target)).id dropped = true)
    (hLeaf : leaf ∈ dropped.leaves) : leaf ∈ (a.bindings.erase v.id).leaves := by
  obtain ⟨live, hLive, rfl⟩ := holds_iff.mp hShared
  have hOther : (a.aliases.resolve (a.aliases.flatten target)).id ≠ v.id := fun hId =>
    hOpen ⟨_, Aliases.resolve_mem_chain _ _, hId⟩
  apply Table.mem_leaves.mpr
  exact ⟨_, live, by rw [Table.get?_erase, if_neg hOther, hLive], hLeaf⟩

variable [Target σ κ]

/-- An alias that would close a cycle is refused before anything is changed. -/
theorem aliasTo_of_cycle (h : a.ClosesCycle v target) :
    aliasTo v target a =
      ⟨.error (.aliasCycle (ValueId.text v.id) (ValueId.text target.id)), a, [], []⟩ := by
  rw [aliasTo, Action.current_bind, if_pos (any_chain_eq_true_iff.mpr h)]
  rfl

/-- An accepted alias changes both tables before it gives the shadowed leaves up, so the tables
are the same whether or not the target takes them. -/
theorem silent_aliasTo_of_accepted (h : ¬ a.ClosesCycle v target) :
    (aliasTo v target a).silent =
      (onSupply (Supply.giveUpAll (a.shadowed v target)) { a with
        supply := a.supply.tally fun stats => { stats with aliases := stats.aliases + 1 }
        bindings := a.bindings.erase v.id
        aliases := a.aliases.insert v.id (a.aliases.flatten target) }).silent := by
  rw [aliasTo, Action.current_bind, if_neg (mt any_chain_eq_true_iff.mp h), shadowed]
  cases hDropped : a.bindings.get? v.id with
  | none => rfl
  | some dropped =>
      dsimp only
      split
      · rfl
      · exact congrArg (fun x => (onSupply x : Action (Allocator σ κ) κ Unit) _)
          (Supply.silent_release dropped.register)

end Bind

section Free

variable [RegisterKind κ] [Target σ κ]

/-- A register is released by giving its leaves up. -/
theorem silent_freeRegister (register : Register κ) :
    (freeRegister register : Action (Allocator σ κ) κ Unit).silent =
      (onSupply (Supply.giveUpAll register.leaves)).silent := by
  rw [freeRegister, onSupply, Action.silent_onPart, Supply.silent_release]
  rfl

/-- What is unbound cannot be freed; the error names the value that was passed in. -/
theorem free_of_unbound (h : a.binding? v = none) :
    free v a = ⟨.error (.unbound v.text), a, [], []⟩ := by
  rw [binding?] at h
  rw [free, Action.current_bind, h]
  rfl

/-- The binding is removed first, so it is gone also if a leaf is refused. -/
theorem silent_free_of_bound {held : Binding κ} (h : a.binding? v = some held) :
    (free v a).silent = (onSupply (Supply.giveUpAll held.register.leaves)
      { a with bindings := a.bindings.erase (a.resolve v).id }).silent := by
  rw [binding?] at h
  rw [free, Action.current_bind, h]
  exact congrFun (silent_freeRegister held.register) _

/-- The registers of bindings are released by giving up their leaves row by row. -/
theorem silent_releaseRows (rows : List (ValueId × Binding κ)) :
    (releaseRows rows : Action (Allocator σ κ) κ Unit).silent =
      (onSupply (Supply.giveUpAll (rows.flatMap fun row => row.2.register.leaves))).silent := by
  rw [releaseRows, Supply.giveUpAll_flatMap, ← all_map_onSupply, Action.silent_all,
    Action.silent_all, List.map_map, List.map_map, List.map_map]
  congr 1
  apply List.map_congr_left
  intro row _
  simp only [Function.comp_apply, Action.silent_warnOnError, silent_freeRegister]

theorem reset_apply (a : Allocator σ κ) :
    reset a = releaseRows a.bindings.rows { a with bindings := .empty, aliases := .empty } := rfl

/-- A reset empties both tables and then gives every leaf up that was held. -/
theorem silent_reset (a : Allocator σ κ) :
    (reset a).silent =
      (onSupply (Supply.giveUpAll a.bindings.leaves)
        { a with bindings := .empty, aliases := .empty }).silent := by
  rw [reset_apply]
  exact congrFun (silent_releaseRows a.bindings.rows) _

end Free

end Allocator

end RegisterAssignment
