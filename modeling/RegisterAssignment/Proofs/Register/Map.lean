import Mathlib.Logic.Function.Basic
import RegisterAssignment.Proofs.Supply.Origins

/-! Registers with their parts replaced. The tree, the declared fields and the literals stay;
origins, descriptors and target registers are each changed by a function of their own. Forgetting
the target and renumbering the origins are both of this form, and what can be said of a changed
register follows from what is known of the functions. -/

namespace RegisterAssignment

variable {κ κ' : Type}

/-- What is put in place of the parts of a register. -/
structure Relabeling (κ κ' : Type) where
  origin : Origin → Origin
  descriptor : Descriptor κ → Descriptor κ'
  held : Hardware κ → Hardware κ'

/-- No two parts are given the same replacement. -/
structure Relabeling.Injective (f : Relabeling κ κ') : Prop where
  origin : Function.Injective f.origin
  descriptor : Function.Injective f.descriptor
  held : Function.Injective f.held

namespace Register

variable (f : Relabeling κ κ')

mutual

def map : Register κ → Register κ'
  | .constant o d l => .constant (f.origin o) (f.descriptor d) l
  | .hardware o h => .hardware (f.origin o) (f.held h)
  | .compound o fields children => .compound (f.origin o) fields (mapList children)

def mapList : List (Register κ) → List (Register κ')
  | [] => []
  | r :: rs => map r :: mapList rs

end

/-- Children are changed one by one. -/
theorem mapList_eq_map (rs : List (Register κ)) : mapList f rs = rs.map (map f) := by
  induction rs with
  | nil => rfl
  | cons r rest ih => rw [mapList, ih, List.map_cons]

theorem map_compound (o : Origin) (fields : List Ty) (children : List (Register κ)) :
    (compound o fields children).map f = .compound (f.origin o) fields (children.map (map f)) := by
  rw [map, mapList_eq_map]

/-- A changed register is of the same variant. -/
theorem variant_map (r : Register κ) : (r.map f).variant = r.variant := by
  cases r <;> rfl

mutual

/-- The leaves are replaced one by one, in their order. -/
theorem leaves_map : ∀ r : Register κ, (r.map f).leaves = r.leaves.map f.held
  | .constant .. => rfl
  | .hardware .. => rfl
  | .compound _ _ children => by
      rw [map_compound, leaves, leaves, leavesList_map children]

theorem leavesList_map : ∀ rs : List (Register κ),
    leavesList (rs.map (map f)) = (leavesList rs).map f.held
  | [] => rfl
  | r :: rs => by
      rw [List.map_cons, leavesList, leavesList, List.map_append, leaves_map r, leavesList_map rs]

end

mutual

/-- The origins are replaced one by one, in their order. -/
theorem origins_map : ∀ r : Register κ, (r.map f).origins = r.origins.map f.origin
  | .constant .. => rfl
  | .hardware .. => rfl
  | .compound _ _ children => by
      rw [map_compound, origins, origins, List.map_cons, originsList_map children]

theorem originsList_map : ∀ rs : List (Register κ),
    originsList (rs.map (map f)) = (originsList rs).map f.origin
  | [] => rfl
  | r :: rs => by
      rw [List.map_cons, originsList, originsList, List.map_append, origins_map r,
        originsList_map rs]

end

section Text

variable [RegisterKind κ] [RegisterKind κ']

mutual

/-- The text stays if the texts of target registers do: nothing else that is replaced shows. -/
theorem chars_map (hText : ∀ h, (f.held h).chars = h.chars) : ∀ r : Register κ,
    (r.map f).chars = r.chars
  | .constant .. => by rw [map, chars, chars]
  | .hardware .. => by rw [map, chars, chars, hText]
  | .compound _ _ [] => by rw [map_compound, List.map_nil, chars, chars]
  | .compound _ _ (child :: rest) => by
      rw [map_compound, List.map_cons, chars, chars, chars_map hText child,
        moreChildren_map hText rest]

theorem moreChildren_map (hText : ∀ h, (f.held h).chars = h.chars) : ∀ rs : List (Register κ),
    moreChildren (rs.map (map f)) = moreChildren rs
  | [] => rfl
  | r :: rs => by
      rw [List.map_cons, moreChildren, moreChildren, chars_map hText r, moreChildren_map hText rs]

end

end Text

variable {f}

mutual

/-- A register that is left as it is in all its parts is left as it is. -/
theorem map_eq_self {f : Relabeling κ κ} (hOrigin : ∀ o, f.origin o = o)
    (hDescriptor : ∀ d, f.descriptor d = d) (hHeld : ∀ h, f.held h = h) :
    ∀ r : Register κ, r.map f = r
  | .constant .. => by rw [map, hOrigin, hDescriptor]
  | .hardware .. => by rw [map, hOrigin, hHeld]
  | .compound _ _ children => by
      rw [map, hOrigin, mapList_eq_self hOrigin hDescriptor hHeld children]

theorem mapList_eq_self {f : Relabeling κ κ} (hOrigin : ∀ o, f.origin o = o)
    (hDescriptor : ∀ d, f.descriptor d = d) (hHeld : ∀ h, f.held h = h) :
    ∀ rs : List (Register κ), mapList f rs = rs
  | [] => rfl
  | r :: rs => by
      rw [mapList, map_eq_self hOrigin hDescriptor hHeld r,
        mapList_eq_self hOrigin hDescriptor hHeld rs]

end

mutual

/-- Registers that differ still differ if no two parts are given the same replacement. -/
theorem eq_of_map (hf : f.Injective) : ∀ {r r' : Register κ}, r.map f = r'.map f → r = r'
  | .constant .., r', h => by
      cases r' <;> simp only [map, constant.injEq, reduceCtorEq] at h ⊢
      exact ⟨hf.origin h.1, hf.descriptor h.2.1, h.2.2⟩
  | .hardware .., r', h => by
      cases r' <;> simp only [map, hardware.injEq, reduceCtorEq] at h ⊢
      exact ⟨hf.origin h.1, hf.held h.2⟩
  | .compound _ _ children, r', h => by
      cases r' <;> simp only [map, compound.injEq, reduceCtorEq] at h ⊢
      exact ⟨hf.origin h.1, h.2.1, eq_of_mapList hf h.2.2⟩

theorem eq_of_mapList (hf : f.Injective) : ∀ {rs rs' : List (Register κ)},
    mapList f rs = mapList f rs' → rs = rs'
  | [], rs', h => by cases rs' <;> simp [mapList] at h ⊢
  | r :: rs, rs', h => by
      cases rs' <;> simp only [mapList, List.cons.injEq, reduceCtorEq] at h ⊢
      exact ⟨eq_of_map hf h.1, eq_of_mapList hf h.2⟩

end

end Register

end RegisterAssignment
