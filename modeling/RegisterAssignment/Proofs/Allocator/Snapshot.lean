import RegisterAssignment.Proofs.Allocator.ResetOrder
import RegisterAssignment.Proofs.Register.Text
import RegisterAssignment.Snapshot
import RegisterAssignment.Target.File

/-! Snapshots are canonical. Their rows are sorted by the numbers of the values and not by the
texts, in which `%10` comes before `%9`, and how the tables came about leaves no trace in them: not
the order of requests, not what was replaced or removed, not the origins of registers. -/

namespace RegisterAssignment

variable {σ σ' κ : Type}

def AliasRow.of (entry : ValueId × Value) : AliasRow :=
  ⟨ValueId.text entry.1, ValueId.text entry.2.id⟩

def BindingRow.of [RegisterKind κ] (entry : ValueId × Binding κ) : BindingRow :=
  ⟨ValueId.text entry.1, entry.2.register.ty.text, entry.2.register.text,
    ValueId.text entry.2.producer.id⟩

/-- What a binding amounts to: the value that asked for it, the type of the register, and what the
register holds. Registers of two runs are never the same ones, so origins are left out. -/
def Binding.contents (b : Binding κ) : ValueId × Ty × Holding κ :=
  (b.producer.id, b.register.ty, b.register.holding)

/-- A row shows nothing of a binding but what the binding amounts to. -/
theorem BindingRow.of_congr [RegisterKind κ] (id : ValueId) {b b' : Binding κ}
    (h : b.contents = b'.contents) : of (id, b) = of (id, b') := by
  simp only [Binding.contents, Prod.mk.injEq] at h
  obtain ⟨hProducer, hTy, hHolding⟩ := h
  simp only [of, hProducer, hTy, Register.text_eq_of_holding hHolding]

theorem map_eq_map_of_imp {α β γ : Type} {f : α → β} {g : α → γ} {x y : Option α}
    (hImp : ∀ a b, f a = f b → g a = g b) (h : x.map f = y.map f) : x.map g = y.map g := by
  cases x with
  | none =>
      cases y with
      | none => rfl
      | some b => cases h
  | some a =>
      cases y with
      | none => cases h
      | some b => exact congrArg some (hImp a b (Option.some.inj h))

namespace Allocator

/-- Two allocators with the same tables and counters. Bindings are compared by what they amount to,
and aliases by the identities of their targets. -/
structure SameContents (a : Allocator σ κ) (b : Allocator σ' κ) : Prop where
  bindings : ∀ id, (a.bindings.get? id).map Binding.contents =
    (b.bindings.get? id).map Binding.contents
  aliases : ∀ id, (a.aliases.get? id).map Value.id = (b.aliases.get? id).map Value.id
  stats : a.stats = b.stats

variable [RegisterKind κ]

/-- The first list of a snapshot lists the bindings. -/
theorem listed_bindings (a : Allocator σ κ) :
    a.bindings.Listed BindingRow.of a.snapshot.bindings (a.bindings.rows.map Prod.fst) :=
  a.bindings.listed_rows BindingRow.of

/-- The second list of a snapshot lists the aliases. -/
theorem listed_aliases (a : Allocator σ κ) :
    a.aliases.Listed AliasRow.of a.snapshot.aliases (a.aliases.rows.map Prod.fst) :=
  a.aliases.listed_rows AliasRow.of

/-- Two allocators with the same contents have the same snapshot, on whatever targets they are. -/
theorem SameContents.snapshot_eq {a : Allocator σ κ} {b : Allocator σ' κ} (h : SameContents a b) :
    a.snapshot = b.snapshot := by
  have hBindings : a.snapshot.bindings = b.snapshot.bindings :=
    a.listed_bindings.congr b.listed_bindings fun id =>
      map_eq_map_of_imp (fun _ _ => BindingRow.of_congr id) (h.bindings id)
  have hAliases : a.snapshot.aliases = b.snapshot.aliases :=
    a.listed_aliases.congr b.listed_aliases fun id => by
      refine map_eq_map_of_imp (fun v w hSame => ?_) (h.aliases id)
      simp only [AliasRow.of, hSame]
  calc a.snapshot = ⟨a.snapshot.bindings, a.snapshot.aliases, a.stats⟩ := rfl
    _ = ⟨b.snapshot.bindings, b.snapshot.aliases, b.stats⟩ := by rw [hBindings, hAliases, h.stats]
    _ = b.snapshot := rfl

variable [DecidableEq κ] [Target σ κ] [Target σ' κ]

/-- Snapshots are canonical. In every state that a run reaches there is one row for each bound and
one for each aliased identity, in ascending order of the identities, made of what is stored there,
and no identity is in both lists. Two runs that end with the same bindings, aliases and counters
have the same snapshot, whatever they did to get there. -/
theorem snapshots_canonical (target : σ) (options : Options) (commands : List (Command κ))
    (target' : σ') (options' : Options) (commands' : List (Command κ)) :
    let a : Allocator σ κ := (new target options).run commands
    let b : Allocator σ' κ := (new target' options').run commands'
    (∃ bound aliased, a.bindings.Listed BindingRow.of a.snapshot.bindings bound ∧
      a.aliases.Listed AliasRow.of a.snapshot.aliases aliased ∧ ∀ id ∈ bound, id ∉ aliased) ∧
    a.snapshot.stats = a.stats ∧
    (SameContents a b → a.snapshot = b.snapshot) := by
  intro a b
  have hCoherent : a.Coherent := run_coherent target options commands
  refine ⟨⟨_, _, a.listed_bindings, a.listed_aliases, ?_⟩, rfl, SameContents.snapshot_eq⟩
  intro id hBound hAliased
  obtain ⟨held, hHeld⟩ := Option.isSome_iff_exists.mp ((a.listed_bindings.mem_iff id).mp hBound)
  have hSome := (a.listed_aliases.mem_iff id).mp hAliased
  rw [hCoherent.unaliased id held hHeld] at hSome
  cases hSome

/-- One run binds the values as they are used. The other one, on a larger file, aliases first,
places and frees another value, binds a constant and replaces it by a register of the client.
Without counters both end with the same contents, and `%9` is listed before `%10`, also if the
entries come in the opposite order. -/
theorem snapshots_canonical_after_detours :
    let nine : Value := ⟨9, .scalar .i32⟩
    let ten : Value := ⟨10, .scalar .f64⟩
    let spare : Value := ⟨2, .scalar .i64⟩
    let other : Value := ⟨3, .string⟩
    let options : Options := ⟨.silent, false⟩
    let real : Descriptor FileKind := .ofScalar .f64 .float
    let direct : List (Command FileKind) :=
      [.request (.allocate nine), .request (.allocate ten), .request (.aliasTo other ten)]
    let detour : List (Command FileKind) :=
      [.request (.aliasTo other spare), .request (.allocate spare), .request (.free spare),
        .bindTo ten (.constant (.supplied 0) real (.f64 0)), .request (.aliasTo other ten),
        .request (.allocate nine), .bindTo ten (.hardware (.supplied 1) ⟨real, 0⟩)]
    let a : Allocator File FileKind := (new (File.new ⟨1, 1, .bits32⟩) options).run direct
    let b : Allocator File FileKind := (new (File.new ⟨4, 4, .bits64⟩) options).run detour
    SameContents a b ∧ a.snapshot = b.snapshot ∧
      (a.bindings.rows.reverse.mergeSort Table.byId).map BindingRow.of = a.snapshot.bindings ∧
      b.snapshot.bindings = [⟨"%9", "i32", "General#0", "%9"⟩, ⟨"%10", "f64", "Float#0", "%10"⟩] ∧
      b.snapshot.aliases = [⟨"%3", "%10"⟩] := by
  intro nine ten spare other options real direct detour a b
  let entries (c : Allocator File FileKind) : List (ValueId × ValueId × Register FileKind) :=
    c.bindings.rows.map fun entry => (entry.1, entry.2.producer.id, entry.2.register)
  let integer (o : Origin) : Register FileKind := .hardware o ⟨.ofScalar .i32 .general, 0⟩
  let float (o : Origin) : Register FileKind := .hardware o ⟨real, 0⟩
  have hFirst : entries a = [(9, 9, integer (.allocated 0)), (10, 10, float (.allocated 1))] := by
    decide +kernel
  have hSecond : entries b = [(9, 9, integer (.allocated 1)), (10, 10, float (.supplied 1))] := by
    decide +kernel
  have hBindings : (a.bindings.map Binding.contents).rows =
      (b.bindings.map Binding.contents).rows := by
    have hEntries (c : Allocator File FileKind) : (c.bindings.map Binding.contents).rows =
        (entries c).map fun entry => (entry.1, entry.2.1, entry.2.2.ty, entry.2.2.holding) := by
      simp only [entries, List.map_map]
      rfl
    rw [hEntries, hEntries, hFirst, hSecond]
    rfl
  have hAliases : (a.aliases.map Value.id).rows = (b.aliases.map Value.id).rows := by
    decide +kernel
  have hContents : SameContents a b := by
    refine ⟨fun id => ?_, fun id => ?_, by decide +kernel⟩
    · rw [← Table.get?_map, ← Table.get?_map]
      exact congrArg (Table.findRow id) hBindings
    · rw [← Table.get?_map, ← Table.get?_map]
      exact congrArg (Table.findRow id) hAliases
  obtain ⟨⟨_, _, hListed, _⟩, _, hSame⟩ := snapshots_canonical (File.new ⟨1, 1, .bits32⟩) options
    direct (File.new ⟨4, 4, .bits64⟩) options detour
  have hReversed : a.bindings.Enumerates a.bindings.rows.reverse :=
    Table.enumerates_iff_perm.mpr (List.reverse_perm _)
  exact ⟨hContents, hSame hContents, hListed.sorted _ hReversed, by decide +kernel,
    by decide +kernel⟩

end Allocator

end RegisterAssignment
