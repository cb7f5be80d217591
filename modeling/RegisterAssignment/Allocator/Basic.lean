import RegisterAssignment.Aliases
import RegisterAssignment.Supply

/-!
The state of an allocator: a supply of registers, the registers that values are bound to, and the
aliases between values. Bindings are kept under the value that an alias chain ends in.
-/

namespace RegisterAssignment

/-- What happens when a client binds a value that is bound to another register. -/
inductive RebindPolicy where
  /-- The old register is dropped. -/
  | silent
  /-- The old register is dropped, with a warning if it holds target registers. -/
  | warn
  /-- The request is refused. -/
  | deny
deriving DecidableEq

structure Options where
  rebind : RebindPolicy
  collectStats : Bool
deriving DecidableEq

instance : Inhabited Options := ⟨.silent, true⟩

/-- A register bound to a value, with the value whose request bound it. -/
structure Binding (κ : Type) where
  producer : Value
  register : Register κ

structure Allocator (σ κ : Type) where
  supply : Supply σ
  rebind : RebindPolicy
  bindings : Table (Binding κ)
  aliases : Aliases

namespace Allocator

variable {σ κ α : Type}

def new (target : σ) (options : Options) : Allocator σ κ :=
  ⟨.new target options.collectStats, options.rebind, .empty, .empty⟩

def options (a : Allocator σ κ) : Options := ⟨a.rebind, a.supply.counting⟩

def target (a : Allocator σ κ) : σ := a.supply.target

def stats (a : Allocator σ κ) : Stats := a.supply.stats

/-- The value whose binding a value uses. -/
def resolve (a : Allocator σ κ) (v : Value) : Value := a.aliases.resolve v

def binding? (a : Allocator σ κ) (v : Value) : Option (Binding κ) :=
  a.bindings.get? (a.resolve v).id

/-- Runs an action of the supply. It cannot touch bindings or aliases. -/
def onSupply (x : Action (Supply σ) κ α) : Action (Allocator σ κ) κ α :=
  Action.onPart supply (fun s a => { a with supply := s }) x

def record (id : ValueId) (producer : Value) (register : Register κ) :
    Action (Allocator σ κ) κ Unit :=
  Action.modify fun a => { a with bindings := a.bindings.insert id ⟨producer, register⟩ }

end Allocator

end RegisterAssignment
