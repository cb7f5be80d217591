import RegisterAssignment.Proofs.Allocator.Step

/-! The tables of an allocator over whole runs, on any target. There are five ways in which a step
may change them; that chains end and that bindings stand under unaliased values follows from this
for every state that a run reaches. -/

namespace RegisterAssignment

/-- Skipping one hop leads to the same end. -/
theorem Aliases.Acyclic.resolve_flatten {t : Aliases} (hAcyclic : t.Acyclic) (target : Value) :
    t.resolve (t.flatten target) = t.resolve target := by
  obtain ⟨passed, w, h⟩ := hAcyclic target
  rw [h.resolve_eq, flatten]
  cases h with
  | root hRoot =>
      rw [hRoot]
      exact (Leads.root hRoot).resolve_eq
  | hop hNext rest =>
      rw [hNext]
      exact rest.resolve_eq

namespace Allocator

variable {σ κ : Type}

/-- How one step may change the bindings and the aliases. -/
inductive TableStep (a : Allocator σ κ) : Table (Binding κ) → Aliases → Prop where
  | kept : TableStep a a.bindings a.aliases
  | bound (v : Value) (register : Register κ) :
      TableStep a (a.bindings.insert (a.resolve v).id ⟨v, register⟩) a.aliases
  | freed (v : Value) : TableStep a (a.bindings.erase (a.resolve v).id) a.aliases
  | aliased {v target : Value} (hOpen : ¬ a.ClosesCycle v target) :
      TableStep a (a.bindings.erase v.id) (a.aliases.insert v.id (a.aliases.flatten target))
  | cleared : TableStep a .empty .empty

/-- Every chain of aliases ends, and no identity is both bound and aliased. -/
structure Coherent (a : Allocator σ κ) : Prop where
  acyclic : a.aliases.Acyclic
  unaliased : ∀ id held, a.bindings.get? id = some held → a.aliases.get? id = none

theorem coherent_new (target : σ) (options : Options) :
    (new target options : Allocator σ κ).Coherent :=
  ⟨Aliases.acyclic_empty, fun _ _ h => by cases h⟩

/-- No step closes a circle or binds what is aliased, because bindings are made at the ends of
chains only. -/
theorem TableStep.coherent {a b : Allocator σ κ} (hStep : TableStep a b.bindings b.aliases)
    (h : a.Coherent) : b.Coherent := by
  obtain ⟨supply, rebind, bindings, aliases⟩ := b
  dsimp only at hStep
  cases hStep with
  | kept => exact ⟨h.acyclic, h.unaliased⟩
  | bound v register =>
      refine ⟨h.acyclic, ?_⟩
      intro id held hHeld
      by_cases hRoot : id = (a.resolve v).id
      · rw [hRoot]
        exact h.acyclic.resolve_unaliased v
      · rw [Table.get?_insert, if_neg hRoot] at hHeld
        exact h.unaliased id held hHeld
  | freed v =>
      refine ⟨h.acyclic, ?_⟩
      intro id held hHeld
      rw [Table.get?_erase] at hHeld
      split at hHeld
      · cases hHeld
      · exact h.unaliased id held hHeld
  | @aliased v target hOpen =>
      constructor
      · apply h.acyclic.insert
        intro hop hMem hId
        exact hOpen ⟨hop, hMem, hId⟩
      · intro id held hHeld
        rw [Table.get?_erase] at hHeld
        split at hHeld
        next => cases hHeld
        next hOther =>
          rw [Table.get?_insert, if_neg hOther]
          exact h.unaliased id held hHeld
  | cleared => exact ⟨Aliases.acyclic_empty, fun _ _ hHeld => by cases hHeld⟩

variable [DecidableEq κ] [RegisterKind κ] [Target σ κ]

/-- What one command can do to the tables. -/
theorem Step.tables {a : Allocator σ κ} {c : Command κ}
    {o : Outcome (Allocator σ κ) κ (Answer κ)} (h : Step a c o) :
    TableStep a o.state.bindings o.state.aliases := by
  cases h with
  | made _ _ =>
      simp only [Outcome.map, settle]
      split
      · exact .bound _ _
      · exact .kept
  | aliased hOpen => exact .aliased hOpen
  | freed _ => exact .freed _
  | cleared => exact .cleared
  | bound _ => exact .bound _ _
  | answered _ | placed _ | released _ | described _ | taken _ | givenBack _ => exact .kept

/-- Both facts hold in every state that any sequence of commands reaches, on any target. -/
theorem run_coherent (target : σ) (options : Options) (commands : List (Command κ)) :
    ((new target options : Allocator σ κ).run commands).Coherent :=
  run_keeps (fun _ _ _ _ hStep h => hStep.tables.coherent h) (coherent_new target options)

/-- Following the stored targets from any value ends after at most as many hops as there are
aliases, in the unaliased value that the allocator takes it to resolve to. So both loops along a
chain stop by themselves, and allowing them more rounds changes nothing: the one that resolves `v`,
and the one that checks a request to alias `value` to `v`. -/
theorem alias_chains_end (target : σ) (options : Options) (commands : List (Command κ))
    (v : Value) :
    let a : Allocator σ κ := (new target options).run commands
    ∃ passed, a.aliases.Leads v passed (a.resolve v) ∧ passed.length ≤ a.aliases.size ∧
      a.aliases.get? (a.resolve v).id = none ∧
      ∀ more, a.aliases.followLoop (a.aliases.size + 1 + more) v = some (a.resolve v) ∧
        ∀ value : Value,
          a.aliases.meetLoop value.id (a.aliases.size + 1 + more) (a.aliases.flatten v) =
            some (if (a.aliases.chain (a.aliases.flatten v)).any (fun hop => hop.id == value.id)
              then none else some (a.resolve v)) := by
  intro a
  have hAcyclic : a.aliases.Acyclic := (run_coherent target options commands).acyclic
  obtain ⟨passed, hLeads⟩ := hAcyclic.leads_resolve v
  refine ⟨passed, hLeads, hLeads.length_le, hLeads.unaliased, ?_⟩
  intro more
  have hBound := hLeads.length_le
  refine ⟨hLeads.followLoop_eq (by omega), ?_⟩
  intro value
  obtain ⟨stored, hStored⟩ := hAcyclic.leads_resolve (a.aliases.flatten v)
  have hStoredBound := hStored.length_le
  rw [hStored.meetLoop_eq value.id (by omega), hAcyclic.resolve_flatten]
  rfl

end Allocator

end RegisterAssignment
