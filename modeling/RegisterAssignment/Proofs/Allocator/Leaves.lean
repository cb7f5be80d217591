import RegisterAssignment.Allocator.Basic
import RegisterAssignment.Proofs.Table

/-! The target registers that bindings hold. Binding a value adds the leaves of its register and
removing a binding takes them away, wherever its row stands in the table. -/

namespace RegisterAssignment.Table

variable {κ : Type} {bindings : Table (Binding κ)} {id : ValueId} {held : Binding κ}

/-- All target registers that are held by bindings, in ascending order of the values. -/
def leaves (bindings : Table (Binding κ)) : List (Hardware κ) :=
  bindings.rows.flatMap fun row => row.2.register.leaves

/-- What is held is what some binding holds. -/
theorem mem_leaves {leaf : Hardware κ} :
    leaf ∈ bindings.leaves ↔
      ∃ id held, bindings.get? id = some held ∧ leaf ∈ held.register.leaves := by
  rw [leaves, List.mem_flatMap]
  constructor
  · rintro ⟨⟨id, held⟩, hRow, hLeaf⟩
    exact ⟨id, held, get?_eq_some_iff.mpr hRow, hLeaf⟩
  · rintro ⟨id, held, hGet, hLeaf⟩
    exact ⟨(id, held), get?_eq_some_iff.mp hGet, hLeaf⟩

/-- Binding an unbound identity adds the leaves of its register to those that are held. -/
theorem leaves_insert (h : bindings.get? id = none) (held : Binding κ) :
    (bindings.insert id held).leaves.Perm (held.register.leaves ++ bindings.leaves) :=
  (rows_insert_perm h held).flatMap_right _

/-- Removing a binding takes the leaves of its register away, and no others. -/
theorem leaves_erase (h : bindings.get? id = some held) :
    bindings.leaves.Perm (held.register.leaves ++ (bindings.erase id).leaves) :=
  (rows_perm_erase h).flatMap_right _

/-- What bindings hold is a matter of the registers alone, not of who asked for them. -/
theorem leaves_congr {bindings' : Table (Binding κ)}
    (hSame : ∀ id, (bindings.get? id).map Binding.register =
      (bindings'.get? id).map Binding.register) : bindings.leaves = bindings'.leaves := by
  have hRegisters : bindings.map Binding.register = bindings'.map Binding.register := by
    apply ext_get?
    intro id
    rw [get?_map, get?_map, hSame]
  have hLeaves (b : Table (Binding κ)) :
      b.leaves = (b.map Binding.register).rows.flatMap fun row => row.2.leaves := by
    rw [leaves, map, List.flatMap_map]
  rw [hLeaves, hLeaves, hRegisters]

end RegisterAssignment.Table
