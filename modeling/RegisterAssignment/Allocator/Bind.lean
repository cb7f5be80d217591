import RegisterAssignment.Allocator.Basic

/-!
Bindings and aliases that a client chooses. Binding a value replaces its register without
releasing the old one. Aliasing a value makes it use the register of another value, and releases
the register it had, unless that is the very register it goes on to use.
-/

namespace RegisterAssignment.Allocator

variable {σ κ : Type} [DecidableEq κ] [RegisterKind κ]

/-- Deals with the binding, if any, that is about to be replaced by a register. The same register
again is no change. -/
def replacing (id : ValueId) (register : Register κ) : Option (Binding κ) →
    Action (Allocator σ κ) κ Unit
  | none => return ()
  | some held => do
    let a ← Action.current
    let name := ValueId.text id
    let maker := ValueId.text held.producer.id
    if held.register = register then
      return ()
    else match a.rebind with
      | .silent =>
        Action.note .debug
          s!"rebinding {name} from {held.register.text} (produced by {maker}) to {register.text}"
      | .warn =>
        if held.register.leaves.isEmpty then
          return ()
        else
          Action.note .warn
            s!"rebinding {name} drops live registers {held.register.text} (produced by {maker})"
      | .deny =>
        Action.fail (.codegen
          s!"value {name} is already bound to {held.register.text} (produced by {maker})")

/-- Binds a value to a register that the client chose. The target is not asked. -/
def bindTo (v : Value) (register : Register κ) : Action (Allocator σ κ) κ Unit := do
  let a ← Action.current
  let root := a.resolve v
  replacing root.id register (a.bindings.get? root.id)
  Action.note .trace s!"bind {root.text} -> {register.text}"
  onSupply (Supply.count fun stats => { stats with binds := stats.binds + 1 })
  record root.id v register

def holds (a : Allocator σ κ) (id : ValueId) (register : Register κ) : Bool :=
  match a.bindings.get? id with
  | some held => held.register = register
  | none => false

variable [Target σ κ]

/-- Makes a value use the register of another one, now and later. It is refused if the value is
met when following the chain of the other one. A register that the value had is released, unless
the value that the new chain ends in is bound to the same one. -/
def aliasTo (v target : Value) : Action (Allocator σ κ) κ Unit := do
  let a ← Action.current
  let stored := a.aliases.flatten target
  if (a.aliases.chain stored).any fun hop => hop.id == v.id then
    Action.fail (.aliasCycle (ValueId.text v.id) (ValueId.text target.id))
  else
    let name := ValueId.text v.id
    let goal := ValueId.text stored.id
    Action.note .trace s!"alias {name} -> {goal}"
    Action.modify fun a =>
      { a with bindings := a.bindings.erase v.id, aliases := a.aliases.insert v.id stored }
    onSupply (Supply.count fun stats => { stats with aliases := stats.aliases + 1 })
    match a.bindings.get? v.id with
    | none => return ()
    | some dropped =>
      let shared := a.holds (a.aliases.resolve stored).id dropped.register
      let word := if shared then "true" else "false"
      Action.note .debug
        s!"alias of {name} drops its binding {dropped.register.text} (shared: {word})"
      if shared then return () else onSupply (Supply.release dropped.register)

end RegisterAssignment.Allocator
