import RegisterAssignment.Proofs.Allocator.Tables
import RegisterAssignment.Proofs.Supply.Calls
import RegisterAssignment.Snapshot
import RegisterAssignment.Target.Scripted

/-! Every binding can be got at. A binding under an aliased identity would be out of reach: each
value with that identity resolves to another one, so nothing but a reset could load or free it. No
run leads there, and what a snapshot lists is what can be used. -/

namespace RegisterAssignment.Allocator

variable {σ κ : Type} {a : Allocator σ κ} {v : Value} {held : Binding κ}

/-- A bound identity is not aliased, so it stands for itself. -/
theorem Coherent.resolve_of_bound (h : a.Coherent) (hHeld : a.bindings.get? v.id = some held) :
    a.resolve v = v :=
  (Aliases.Leads.root (h.unaliased v.id held hHeld)).resolve_eq

/-- Whoever asks for a bound identity finds the binding that is stored under it. -/
theorem Coherent.binding?_of_bound (h : a.Coherent) (hHeld : a.bindings.get? v.id = some held) :
    a.binding? v = some held := by
  rw [binding?, h.resolve_of_bound hHeld, hHeld]

variable [RegisterKind κ]

/-- The identity that a row of a snapshot shows is bound, to the register that the row shows. -/
theorem exists_of_mem_snapshot {row : BindingRow} (hRow : row ∈ a.snapshot.bindings) {id : ValueId}
    (hId : ValueId.text id = row.value) :
    ∃ held, a.bindings.get? id = some held ∧
      row = ⟨ValueId.text id, held.register.ty.text, held.register.text,
        ValueId.text held.producer.id⟩ := by
  obtain ⟨⟨key, held⟩, hMem, rfl⟩ := List.mem_map.mp hRow
  have hKey : id = key := ValueId.text_injective hId
  subst hKey
  exact ⟨held, Table.get?_eq_some_iff.mpr hMem, rfl⟩

variable [Target σ κ]

/-- Freeing a bound value offers the leaves of its register to the target and removes its entry,
whatever the target says. It can only fail by a refusal of the target. -/
theorem free_of_bound (h : a.binding? v = some held) :
    (free v a).result = firstRefusal (free v a).calls ∧
    offeredIn (free v a).calls = held.register.leaves ∧
    (free v a).state.bindings = a.bindings.erase (a.resolve v).id ∧
    (free v a).state.aliases = a.aliases := by
  have hFree := silent_free_of_bound h
  rw [Outcome.result_eq hFree, Outcome.calls_eq hFree, Outcome.state_eq hFree]
  exact ⟨Supply.giveUpAll_result _ _, Supply.offeredIn_giveUpAll _ _, rfl, rfl⟩

variable [DecidableEq κ]

/-- No binding is hidden behind an alias. In every state that a run reaches no identity is both
bound and aliased; so a value whose identity is listed in the snapshot stands for itself, is loaded
with the register that is listed, and is freed: the leaves of that register are offered to the
target, the entry and nothing else is removed, and only the target can object. -/
theorem no_binding_hidden (target : σ) (options : Options) (commands : List (Command κ)) :
    let a : Allocator σ κ := (new target options).run commands
    (∀ id, a.bindings.get? id = none ∨ a.aliases.get? id = none) ∧
    ∀ row ∈ a.snapshot.bindings, ∀ v : Value, ValueId.text v.id = row.value →
      a.resolve v = v ∧
      ∃ held, a.bindings.get? v.id = some held ∧ row.register = held.register.text ∧
        a.load v = .ok held.register ∧
        (free v a).result = firstRefusal (free v a).calls ∧
        offeredIn (free v a).calls = held.register.leaves ∧
        (free v a).state.bindings = a.bindings.erase v.id ∧
        (free v a).state.aliases = a.aliases := by
  intro a
  have hCoherent : a.Coherent := run_coherent target options commands
  constructor
  · intro id
    cases hHeld : a.bindings.get? id with
    | none => exact .inl rfl
    | some held => exact .inr (hCoherent.unaliased id held hHeld)
  · intro row hRow v hId
    obtain ⟨held, hHeld, rfl⟩ := exists_of_mem_snapshot hRow hId
    have hRoot : a.resolve v = v := hCoherent.resolve_of_bound hHeld
    have hBinding : a.binding? v = some held := hCoherent.binding?_of_bound hHeld
    have hLoad : a.load v = .ok held.register := by rw [load, hBinding]
    have hFree := free_of_bound hBinding
    rw [hRoot] at hFree
    exact ⟨hRoot, held, hHeld, rfl, hLoad, hFree⟩

/-- The target refuses the register of the first value when an alias drops its binding, and the
alias is stored all the same. The value that it leads to is listed and can be loaded and freed. -/
theorem no_binding_hidden_after_refusal :
    let first : Value := ⟨0, .scalar .i32⟩
    let second : Value := ⟨1, .scalar .f64⟩
    let start : Allocator Scripted ScriptedKind := new (Scripted.new none [0] false) default
    let before : List (Command ScriptedKind) :=
      [.request (.allocate first), .request (.allocate second)]
    let a := start.run (before ++ [.request (.aliasTo first second)])
    let row : BindingRow := ⟨"%1", "f64", "Float#1", "%1"⟩
    (aliasTo first second (start.run before)).result = .error (.invalidFree "Int#0") ∧
      a.aliases.get? 0 = some second ∧ row ∈ a.snapshot.bindings ∧ a.resolve second = second ∧
      ∃ held : Binding ScriptedKind, held.register.text = "Float#1" ∧
        a.load second = .ok held.register ∧
        offeredIn (free second a).calls = held.register.leaves := by
  intro first second start before a row
  have hRow : row ∈ a.snapshot.bindings := by decide +kernel
  have hText : ValueId.text second.id = row.value := by decide +kernel
  obtain ⟨_, hListed⟩ :=
    no_binding_hidden (Scripted.new none [0] false) default
      (before ++ [.request (.aliasTo first second)])
  obtain ⟨hRoot, held, _, hRegister, hLoad, _, hOffered, _⟩ := hListed row hRow second hText
  have hRefused : (aliasTo first second (start.run before)).result =
      .error (.invalidFree "Int#0") := by decide +kernel
  have hStored : a.aliases.get? 0 = some second := by decide +kernel
  exact ⟨hRefused, hStored, hRow, hRoot, held, hRegister.symm, hLoad, hOffered⟩

end RegisterAssignment.Allocator
