import RegisterAssignment.Text.Numeral

/-!
Everything that can go wrong, one constructor per cause, and the wording of each in one place.
Types, values and registers appear in errors by their texts.
-/

namespace RegisterAssignment

/-- Why a request was refused. -/
inductive Error where
  /-- A type that cannot live in registers. -/
  | unsupportedType (ty : String)
  /-- A type for which the target names no register. -/
  | undescribable (ty reason : String)
  /-- A value that holds no register. -/
  | unbound (value : String)
  /-- A value that holds another variant of register than the one asked for. -/
  | wrongVariant (value expected found : String)
  /-- An alias that would make a value resolve through itself. -/
  | aliasCycle (value target : String)
  /-- A register file with no free register of a kind. -/
  | exhausted (kind : String) (capacity : Nat)
  /-- A register given back that the target has not handed out. -/
  | invalidFree (register : String)
  /-- A document that could not be written. -/
  | unserializable (detail : String)
  /-- Any other misuse of the allocator. -/
  | codegen (detail : String)
deriving DecidableEq

namespace Error

def message : Error → String
  | unsupportedType ty => s!"Unsupported type for register allocation: {ty}"
  | undescribable ty reason => s!"Target cannot describe type {ty}: {reason}"
  | unbound value => s!"Invalid code generation: value {value} has no register binding"
  | wrongVariant value expected found =>
    s!"Invalid code generation: value {value} is bound to a {found} register, expected {expected}"
  | aliasCycle value target => s!"Alias of {value} to {target} would create a cycle"
  | exhausted kind capacity =>
    let limit := String.ofList (Numeral.decimal capacity)
    s!"Register file exhausted: no free {kind} register (capacity {limit})"
  | invalidFree register => s!"Invalid free of register {register}"
  | unserializable detail => s!"Serialization error: {detail}"
  | codegen detail => s!"Code generation error: {detail}"

/-- Whether an error points at a defect of the code generator itself. A full register file and a
document that cannot be written are limits of the surroundings instead. -/
def isInternal : Error → Bool
  | exhausted .. | unserializable .. => false
  | _ => true

end Error

end RegisterAssignment
