import RegisterAssignment.Allocator.Allocate
import RegisterAssignment.Allocator.Bind
import RegisterAssignment.Allocator.Free
import RegisterAssignment.Allocator.Load

/-!
Everything that a client can ask of an allocator, as data, so that one can speak of sequences of
requests and of the states that they reach. A client can also ask which version it works with.
-/

namespace RegisterAssignment

def version : String := "0.1.0"

/-- A question. It changes nothing. -/
inductive Query where
  | isBound (v : Value)
  | load (v : Value)
  | loadAs (v : Value) (variant : Variant)
  | loadPrimitive (v : Value)
  | loadHardware (v : Value)
  | aliasTarget (v : Value)
  | resolve (v : Value)
deriving DecidableEq

/-- A request that mentions no register, and so makes sense on every target. -/
inductive Request where
  | allocate (v : Value)
  | allocateHardware (v : Value)
  | allocateConstant (v : Value) (literal : Literal)
  | allocateType (ty : Ty)
  | aliasTo (v target : Value)
  | free (v : Value)
  | reset
  | query (q : Query)
deriving DecidableEq

/-- Anything a client can do: a request, a use of a register it holds, or a call that goes past
the allocator to the target. -/
inductive Command (κ : Type) where
  | request (r : Request)
  | bindTo (v : Value) (register : Register κ)
  | freeRegister (register : Register κ)
  | describe (ty : Ty)
  | take (wanted : Descriptor κ)
  | giveBack (held : Hardware κ)
deriving DecidableEq

inductive Answer (κ : Type) where
  | done
  | register (r : Register κ)
  | hardware (held : Hardware κ)
  | descriptor (d : Descriptor κ)
  | flag (b : Bool)
  | value (v : Option Value)
deriving DecidableEq

namespace Allocator

variable {σ κ : Type}

def answer (a : Allocator σ κ) : Query → Except Error (Answer κ)
  | .isBound v => .ok (.flag (a.isBound v))
  | .load v => .register <$> a.load v
  | .loadAs v variant => .register <$> a.loadAs v variant
  | .loadPrimitive v => .register <$> a.loadPrimitive v
  | .loadHardware v => .hardware <$> a.loadHardware v
  | .aliasTarget v => .ok (.value (a.aliases.get? v.id))
  | .resolve v => .ok (.value (a.resolve v))

variable [DecidableEq κ] [RegisterKind κ] [Target σ κ]

def serve : Request → Action (Allocator σ κ) κ (Answer κ)
  | .allocate v => .register <$> allocate v
  | .allocateHardware v => .register <$> allocateHardware v
  | .allocateConstant v literal => .register <$> allocateConstant v literal
  | .allocateType ty => .register <$> allocateType ty
  | .aliasTo v target => (fun _ => .done) <$> aliasTo v target
  | .free v => (fun _ => .done) <$> free v
  | .reset => (fun _ => .done) <$> reset
  | .query q => do Action.ofExcept ((← Action.current).answer q)

def perform : Command κ → Action (Allocator σ κ) κ (Answer κ)
  | .request r => serve r
  | .bindTo v register => (fun _ => .done) <$> bindTo v register
  | .freeRegister register => (fun _ => .done) <$> freeRegister register
  | .describe ty => .descriptor <$> onSupply (Supply.describe ty)
  | .take wanted => .hardware <$> onSupply (Supply.take wanted)
  | .giveBack held => (fun _ => .done) <$> onSupply (Supply.giveBack held)

/-- The state after a sequence of commands. One that fails does not end the sequence. -/
def run (a : Allocator σ κ) (commands : List (Command κ)) : Allocator σ κ :=
  commands.foldl (fun a c => (perform c a).state) a

end Allocator

end RegisterAssignment
