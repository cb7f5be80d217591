import RegisterAssignment.Command
import RegisterAssignment.Proofs.Allocator.Leaves
import RegisterAssignment.Proofs.Register.Map

/-! Outlines: what is left of registers, bindings and answers if the kinds and numbers of target
registers are forgotten. Registers of different targets are compared by their outlines. -/

namespace RegisterAssignment

variable {κ κ' : Type}

/-- What a register has to hold, on no particular target. -/
def Descriptor.outline (d : Descriptor κ) : Descriptor Unit := ⟨d.ty, d.basic, ()⟩

/-- A target register of which only the descriptor counts. -/
def Hardware.outline (h : Hardware κ) : Hardware Unit := ⟨h.descriptor.outline, 0⟩

namespace Register

/-- A register with its variant, tree, types and literals. Its origin is kept as well, so outlines
also tell whether two bindings share a register. -/
def outline : Register κ → Register Unit := map ⟨id, Descriptor.outline, Hardware.outline⟩

theorem outline_compound (o : Origin) (fields : List Ty) (children : List (Register κ)) :
    (compound o fields children).outline = .compound o fields (children.map outline) :=
  map_compound _ o fields children

/-- Registers with one outline are of one variant. -/
theorem variant_eq_of_outline {r : Register κ} {r' : Register κ'} (h : r.outline = r'.outline) :
    r.variant = r'.variant := by
  have hVariant := congrArg variant h
  rwa [outline, outline, variant_map, variant_map] at hVariant

/-- Origins are not a matter of the target. -/
theorem origins_outline (r : Register κ) : r.outline.origins = r.origins := by
  rw [outline, origins_map]
  exact List.map_id _

theorem leaves_outline (r : Register κ) : r.outline.leaves = r.leaves.map Hardware.outline :=
  leaves_map _ r

theorem leavesList_map_outline (rs : List (Register κ)) :
    leavesList (rs.map outline) = (leavesList rs).map Hardware.outline :=
  leavesList_map _ rs

/-- Registers with one outline have equally many leaves. -/
theorem length_leaves_of_outline {r : Register κ} {r' : Register κ'} (h : r.outline = r'.outline) :
    r.leaves.length = r'.leaves.length := by
  have hLeaves := congrArg (fun r => r.leaves.length) h
  simpa [leaves_outline] using hLeaves

/-- Lists of registers with the same outlines have equally many leaves. -/
theorem length_leavesList_of_outline {rs : List (Register κ)} {rs' : List (Register κ')}
    (h : rs.map outline = rs'.map outline) :
    (leavesList rs).length = (leavesList rs').length := by
  have hLeaves := congrArg (fun rs => (leavesList rs).length) h
  simpa [leavesList_map_outline] using hLeaves

end Register

def Binding.outline (b : Binding κ) : Binding Unit := ⟨b.producer, b.register.outline⟩

def Answer.outline : Answer κ → Answer Unit
  | .done => .done
  | .register r => .register r.outline
  | .hardware held => .hardware held.outline
  | .descriptor d => .descriptor d.outline
  | .flag b => .flag b
  | .value v => .value v

/-- The leaves of all bindings are outlined one by one. -/
theorem Table.leaves_map_outline (bindings : Table (Binding κ)) :
    (bindings.map Binding.outline).leaves = bindings.leaves.map Hardware.outline := by
  simp only [leaves, map, List.flatMap_map, List.map_flatMap, Binding.outline,
    Register.leaves_outline]

end RegisterAssignment
