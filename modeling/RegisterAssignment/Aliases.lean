import RegisterAssignment.Table

/-!
Aliases: values that share the register of another value. Each aliased value has a stored target,
which may be aliased in turn. Following the targets from a value gives its chain, and the last
value of the chain is the one that the value resolves to.
-/

namespace RegisterAssignment

abbrev Aliases := Table Value

namespace Aliases

/-- The values met when following at most `hops` targets from a value, which comes first. -/
def chainWithin (t : Aliases) : (hops : Nat) → Value → List Value
  | 0, v => [v]
  | hops + 1, v =>
    match t.get? v.id with
    | none => [v]
    | some target => v :: chainWithin t hops target

/-- The chain of a value. A chain without repetitions has no more hops than there are aliases, so
following that many reaches its end. -/
def chain (t : Aliases) (v : Value) : List Value := t.chainWithin t.size v

/-- The value at the end of the chain, which is the one that registers are bound to. -/
def resolve (t : Aliases) (v : Value) : Value := (t.chain v).getLastD v

/-- What is stored as the target when a value is aliased to `target`: the target of that one, if it
has one, so that a chain is shorter by one hop. -/
def flatten (t : Aliases) (target : Value) : Value := (t.get? target.id).getD target

end Aliases

end RegisterAssignment
