import RegisterAssignment.Action
import RegisterAssignment.Register.Basic
import RegisterAssignment.Stats
import RegisterAssignment.Target.Basic

/-!
The supply of registers: a target together with the bookkeeping of what was taken from it. Here
types are placed in registers and registers are released. Nothing here knows which value a
register is for.
-/

namespace RegisterAssignment

/-- A target, the number of registers made so far, and the counters, which stand still unless
`counting` holds. -/
structure Supply (σ : Type) where
  target : σ
  made : Nat
  counting : Bool
  stats : Stats
deriving DecidableEq

namespace Supply

variable {σ κ : Type}

def new (target : σ) (counting : Bool) : Supply σ := ⟨target, 0, counting, .zero⟩

/-- Changes the counters, if they are kept. -/
def tally (f : Stats → Stats) (s : Supply σ) : Supply σ :=
  if s.counting then { s with stats := f s.stats } else s

def count (f : Stats → Stats) : Action (Supply σ) κ Unit := Action.modify (tally f)

/-- The origin of a register that is made now. No two registers get the same one. -/
def freshOrigin : Action (Supply σ) κ Origin := fun s =>
  ⟨.ok (.allocated s.made), { s with made := s.made + 1 }, [], []⟩

section Target

variable [Target σ κ]

def describe (ty : Ty) : Action (Supply σ) κ (Descriptor κ) := fun s =>
  let answer := Target.describe s.target ty
  ⟨answer, s, [.describe ty answer], []⟩

/-- Takes a register from the target. The counters do not notice. -/
def take (wanted : Descriptor κ) : Action (Supply σ) κ (Hardware κ) := fun s =>
  let reply := Target.take wanted s.target
  ⟨reply.result, { s with target := reply.state }, [.take wanted reply.result], reply.log⟩

/-- Gives a register back to the target. The counters do not notice. -/
def giveBack (held : Hardware κ) : Action (Supply σ) κ Unit := fun s =>
  let reply := Target.giveBack held s.target
  ⟨reply.result, { s with target := reply.state }, [.giveBack held reply.result], reply.log⟩

/-- Makes a register of one that is taken from the target. -/
def hardware (wanted : Descriptor κ) : Action (Supply σ) κ (Register κ) := do
  let held ← take wanted
  count fun stats => { stats with hardwareAllocated := stats.hardwareAllocated + 1 }
  let origin ← freshOrigin
  return .hardware origin held

/-- Makes a constant. The target is not involved. -/
def constant (descriptor : Descriptor κ) (literal : Literal) : Action (Supply σ) κ (Register κ) := do
  count fun stats => { stats with constantsBound := stats.constantsBound + 1 }
  let origin ← freshOrigin
  return .constant origin descriptor literal

/-- Makes a compound for a structure whose fields are placed already. -/
def compound (fields : List Ty) (children : List (Register κ)) :
    Action (Supply σ) κ (Register κ) := do
  count fun stats => { stats with compoundsBuilt := stats.compoundsBuilt + 1 }
  let origin ← freshOrigin
  return .compound origin fields children

variable [RegisterKind κ]

mutual

/-- Gives all target registers in a register back, in order. A refusal does not stop the rest;
the first one is returned. Constants need nothing. -/
def release : Register κ → Action (Supply σ) κ Unit
  | .constant .. => return ()
  | .hardware _ held => do
    giveBack held
    count fun stats => { stats with hardwareFreed := stats.hardwareFreed + 1 }
  | .compound origin fields children =>
    releaseChildren (.compound origin fields children) 0 children

/-- Releases the children of `whole` from number `i` on, and warns of each that fails. -/
def releaseChildren (whole : Register κ) (i : Nat) : List (Register κ) → Action (Supply σ) κ Unit
  | [] => return ()
  | child :: rest =>
    ((release child).warnOnError fun e =>
      let number := String.ofList (Numeral.decimal i)
      s!"failed to free child {number} of {whole.text}: {e.message}").both
        (releaseChildren whole (i + 1) rest)

end

/-- Releases the fields of a structure that could not be completed. What fails is warned of. -/
def releaseAll (placed : List (Register κ)) : Action (Supply σ) κ Unit :=
  Action.all <| placed.map fun register => (release register).warnOnError fun e =>
    s!"failed to release partially allocated register {register.text}: {e.message}"

mutual

/-- Places a type in registers: one target register, or for a structure a compound with a
register for each field. Padding is held like the scalar it is made of, under its own type. If a
field cannot be placed, the fields before it are released and its error is returned. -/
def place : Ty → Action (Supply σ) κ (Register κ)
  | .void => Action.fail (Ty.unsupported .void)
  | .view element space => Action.fail (Ty.unsupported (.view element space))
  | .scalar s => do hardware (← describe (.scalar s))
  | .pointer element space => do hardware (← describe (.pointer element space))
  | .string => do hardware (← describe .string)
  | .padding s => do
    let described ← describe (.scalar s)
    hardware ⟨.padding s, described.basic, described.kind⟩
  | .struct fields => do compound fields (← placeFields [] fields)

/-- Places the remaining fields of a structure after those in `placed`, and returns all. -/
def placeFields (placed : List (Register κ)) : List Ty → Action (Supply σ) κ (List (Register κ))
  | [] => return placed
  | field :: rest => do
    let child ← (place field).cleaningUp (releaseAll placed)
    placeFields (placed ++ [child]) rest

end

end Target

end Supply

end RegisterAssignment
