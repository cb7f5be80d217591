import RegisterAssignment.Proofs.Independence.Outline

/-! Renumbered registers. A supply numbers the registers that it makes one after the other, so one
that has made some before gives later numbers than one that has not. Renumbering a register changes
its origins and nothing else that can be seen of it. -/

namespace RegisterAssignment

variable {κ : Type}

/-- The origin of the same register if `n` more had been made before all of them. -/
def Origin.shift (n : Nat) : Origin → Origin
  | .allocated k => .allocated (k + n)
  | .supplied k => .supplied k

theorem Origin.shift_injective (n : Nat) : Function.Injective (Origin.shift n) := by
  intro o o' h
  cases o <;> cases o' <;> simp only [shift, allocated.injEq, supplied.injEq, reduceCtorEq] at h ⊢
  · omega
  · exact h

@[simp] theorem Origin.shift_zero (o : Origin) : o.shift 0 = o := by
  cases o <;> rfl

namespace Register

/-- The same register if `n` more had been made before. -/
def shift (n : Nat) : Register κ → Register κ := map ⟨Origin.shift n, id, id⟩

theorem shift_compound (n : Nat) (o : Origin) (fields : List Ty) (children : List (Register κ)) :
    (compound o fields children).shift n =
      .compound (o.shift n) fields (children.map (shift n)) :=
  map_compound _ o fields children

@[simp] theorem variant_shift (n : Nat) (r : Register κ) : (r.shift n).variant = r.variant :=
  variant_map _ r

@[simp] theorem leaves_shift (n : Nat) (r : Register κ) : (r.shift n).leaves = r.leaves := by
  rw [shift, leaves_map]
  exact List.map_id _

@[simp] theorem leavesList_map_shift (n : Nat) (rs : List (Register κ)) :
    leavesList (rs.map (shift n)) = leavesList rs := by
  calc leavesList (rs.map (shift n)) = (leavesList rs).map id := leavesList_map _ rs
    _ = leavesList rs := List.map_id _

/-- Renumbering keeps different registers different. -/
@[simp] theorem shift_inj {n : Nat} {r r' : Register κ} : r.shift n = r'.shift n ↔ r = r' :=
  ⟨eq_of_map ⟨Origin.shift_injective n, fun _ _ => id, fun _ _ => id⟩, congrArg (shift n)⟩

@[simp] theorem shift_zero (r : Register κ) : r.shift 0 = r :=
  map_eq_self Origin.shift_zero (fun _ => rfl) (fun _ => rfl) r

/-- The text of a register does not show its origins. -/
@[simp] theorem text_shift [RegisterKind κ] (n : Nat) (r : Register κ) :
    (r.shift n).text = r.text := by
  rw [text, text, shift, chars_map _ fun _ => rfl]

end Register

def Binding.shift (n : Nat) (b : Binding κ) : Binding κ := ⟨b.producer, b.register.shift n⟩

@[simp] theorem Binding.producer_shift (n : Nat) (b : Binding κ) :
    (b.shift n).producer = b.producer := rfl

@[simp] theorem Binding.register_shift (n : Nat) (b : Binding κ) :
    (b.shift n).register = b.register.shift n := rfl

@[simp] theorem Binding.shift_zero : (Binding.shift 0 : Binding κ → Binding κ) = id := by
  funext binding
  simp [shift]

@[simp] theorem Table.map_shift_zero (bindings : Table (Binding κ)) :
    bindings.map (Binding.shift 0) = bindings := by
  apply Table.ext_get?
  simp

/-- Renumbering changes nothing of what is held. -/
@[simp] theorem Table.leaves_map_shift (n : Nat) (bindings : Table (Binding κ)) :
    (bindings.map (Binding.shift n)).leaves = bindings.leaves := by
  simp [leaves, map, List.flatMap_map]

def Answer.shift (n : Nat) : Answer κ → Answer κ
  | .register r => .register (r.shift n)
  | other => other

@[simp] theorem Answer.shift_zero : (Answer.shift 0 : Answer κ → Answer κ) = id := by
  funext answer
  cases answer <;> simp [shift]

def Command.shift (n : Nat) : Command κ → Command κ
  | .bindTo v register => .bindTo v (register.shift n)
  | .freeRegister register => .freeRegister (register.shift n)
  | other => other

@[simp] theorem Command.shift_zero (c : Command κ) : c.shift 0 = c := by
  cases c <;> simp [shift]

end RegisterAssignment
