import RegisterAssignment.Register.Basic

/-!
Walking over the target registers in a register, one after the other. A walk keeps a stack of the
registers that are still to be visited, so it can be interrupted after each step.
-/

namespace RegisterAssignment

/-- A walk: the registers that are still to be visited, the next one on top. -/
structure Walk (κ : Type) where
  stack : List (Register κ)

def Register.walk {κ : Type} (r : Register κ) : Walk κ := ⟨[r]⟩

namespace Walk

variable {κ : Type}

/-- Puts registers on a stack, the last one first, so that the first one comes to lie on top. -/
def push (children stack : List (Register κ)) : List (Register κ) :=
  children.reverse.foldl (fun stack child => child :: stack) stack

/-- Pushing the children in reverse leaves them on the stack in field order. -/
theorem push_eq_append (children stack : List (Register κ)) :
    push children stack = children ++ stack := by
  simp [push]

/-- A compound is larger than what it leaves on the stack, which is why a walk ends. -/
theorem sizeOf_push (children stack : List (Register κ)) :
    sizeOf (push children stack) + 1 = sizeOf children + sizeOf stack := by
  rw [push_eq_append]
  induction children with
  | nil => simp [Nat.add_comm]
  | cons child rest ih =>
      simp only [List.cons_append, List.cons.sizeOf_spec]
      omega

/-- The next target register, with the walk that continues after it. Constants are passed over,
and a compound makes room for its children. -/
def next? : Walk κ → Option (Hardware κ × Walk κ)
  | ⟨[]⟩ => none
  | ⟨.hardware _ held :: rest⟩ => some (held, ⟨rest⟩)
  | ⟨.constant .. :: rest⟩ => next? ⟨rest⟩
  | ⟨.compound _ _ children :: rest⟩ => next? ⟨push children rest⟩
termination_by w => sizeOf w.stack
decreasing_by
  · simp only [List.cons.sizeOf_spec]
    omega
  · have hPush := sizeOf_push children rest
    simp only [List.cons.sizeOf_spec, Register.compound.sizeOf_spec]
    omega

/-- Every target register that is found leaves less to visit. -/
theorem sizeOf_lt_of_next? {w later : Walk κ} {held : Hardware κ}
    (h : w.next? = some (held, later)) : sizeOf later.stack < sizeOf w.stack := by
  fun_induction next? w with
  | case1 => cases h
  | case2 origin found rest =>
      cases h
      simp only [List.cons.sizeOf_spec]
      omega
  | case3 origin descriptor literal rest ih =>
      have hRest : sizeOf later.stack < sizeOf rest := ih h
      simp only [List.cons.sizeOf_spec]
      omega
  | case4 origin fields children rest ih =>
      have hRest : sizeOf later.stack < sizeOf (push children rest) := ih h
      have hPush := sizeOf_push children rest
      simp only [List.cons.sizeOf_spec, Register.compound.sizeOf_spec]
      omega

def yielded (w : Walk κ) : List (Hardware κ) :=
  match _h : w.next? with
  | none => []
  | some (held, later) => held :: later.yielded
termination_by sizeOf w.stack
decreasing_by exact sizeOf_lt_of_next? _h

end Walk

end RegisterAssignment
