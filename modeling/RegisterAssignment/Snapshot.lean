import RegisterAssignment.Allocator.Basic

/-!
Snapshots: what an allocator holds, as texts. Bindings and aliases are listed in ascending order
of the values, so equal states give equal snapshots.
-/

namespace RegisterAssignment

/-- A bound value, the type and the text of its register, and the value whose request bound it. -/
structure BindingRow where
  value : String
  ty : String
  register : String
  producedBy : String
deriving DecidableEq

structure AliasRow where
  value : String
  target : String
deriving DecidableEq

structure Snapshot where
  bindings : List BindingRow
  aliases : List AliasRow
  stats : Stats
deriving DecidableEq

namespace Snapshot

def document (s : Snapshot) : Document :=
  .record [
    ("bindings", .list <| s.bindings.map fun row => .record [
      ("value", .text row.value),
      ("ty", .text row.ty),
      ("register", .text row.register),
      ("produced_by", .text row.producedBy)]),
    ("aliases", .list <| s.aliases.map fun row => .record [
      ("value", .text row.value),
      ("target", .text row.target)]),
    ("stats", s.stats.document)]

end Snapshot

namespace Allocator

variable {σ κ : Type} [RegisterKind κ]

def snapshot (a : Allocator σ κ) : Snapshot where
  bindings := a.bindings.rows.map fun row =>
    ⟨ValueId.text row.1, row.2.register.ty.text, row.2.register.text,
      ValueId.text row.2.producer.id⟩
  aliases := a.aliases.rows.map fun row => ⟨ValueId.text row.1, ValueId.text row.2.id⟩
  stats := a.stats

/-- The snapshot as text, one item a line. -/
def dump (a : Allocator σ κ) : String := a.snapshot.document.render .indented

end Allocator

end RegisterAssignment
