import RegisterAssignment.Proofs.Allocator.Sharing
import RegisterAssignment.Target.Virtual

/-! An alias lasts. What is stored for a value when an alias is accepted stays stored until the
value is aliased again or everything is reset, so the value keeps resolving like the value that is
stored for it. The stored value is the one that was asked for unless that one was aliased itself;
then it is the next value on its chain, and the two part if the one in between is aliased anew. -/

namespace RegisterAssignment

namespace Aliases

variable {t : Aliases} {x y stored : Value}

/-- An aliased value resolves like its stored target. -/
theorem Acyclic.resolve_of_stored (hAcyclic : t.Acyclic) (hStored : t.get? x.id = some stored) :
    t.resolve x = t.resolve stored := by
  obtain ⟨passed, hLeads⟩ := hAcyclic.leads_resolve stored
  exact (Leads.hop hStored hLeads).resolve_eq

/-- The type of a value does not matter for the identity that it resolves to. -/
theorem Acyclic.resolve_id_congr (hAcyclic : t.Acyclic) (hId : x.id = y.id) :
    (t.resolve x).id = (t.resolve y).id := by
  cases hStored : t.get? x.id with
  | none =>
      have hOther : t.get? y.id = none := hId ▸ hStored
      rw [(Leads.root hStored).resolve_eq, (Leads.root hOther).resolve_eq, hId]
  | some stored =>
      have hOther : t.get? y.id = some stored := hId ▸ hStored
      rw [hAcyclic.resolve_of_stored hStored, hAcyclic.resolve_of_stored hOther]

theorem flatten_of_unaliased (h : t.get? x.id = none) : t.flatten x = x := by
  rw [flatten, h]
  rfl

theorem flatten_of_aliased (h : t.get? x.id = some stored) : t.flatten x = stored := by
  rw [flatten, h]
  rfl

end Aliases

namespace Allocator

variable {σ κ : Type} {a : Allocator σ κ} {id : ValueId} {v t x y : Value}

/-- Two values are loaded with the same register, or neither has one. -/
def LoadAlike (a : Allocator σ κ) (x y : Value) : Prop :=
  (∃ register, a.load x = .ok register ∧ a.load y = .ok register) ∨
    ∃ name name', a.load x = .error (.unbound name) ∧ a.load y = .error (.unbound name')

/-- Values that resolve to one identity are loaded alike. -/
theorem loadAlike_of_resolve (h : (a.resolve x).id = (a.resolve y).id) : a.LoadAlike x y := by
  have hBinding : a.binding? x = a.binding? y := by rw [binding?, binding?, h]
  cases hHeld : a.binding? y with
  | none =>
      rw [hHeld] at hBinding
      exact .inr ⟨_, _, by rw [load, hBinding], by rw [load, hHeld]⟩
  | some held =>
      rw [hHeld] at hBinding
      exact .inl ⟨held.register, by rw [load, hBinding], by rw [load, hHeld]⟩

variable [DecidableEq κ] [RegisterKind κ] [Target σ κ]

/-- The commands that may change the stored target of an identity: a reset, and an alias of it
that is accepted. -/
def Redirects (a : Allocator σ κ) (id : ValueId) : Command κ → Prop
  | .request .reset => True
  | .request (.aliasTo v target) => v.id = id ∧ ¬ a.RefusesAlias v target
  | _ => False

/-- All other commands leave the stored target alone, or leave the identity unaliased. -/
theorem Step.get?_aliases {c : Command κ} {o : Outcome (Allocator σ κ) κ (Answer κ)}
    (hStep : Step a c o) (hCalm : ¬ a.Redirects id c) :
    o.state.aliases.get? id = a.aliases.get? id := by
  cases hStep with
  | made _ _ =>
      simp only [Outcome.map, settle]
      split <;> rfl
  | @aliased v target hOpen =>
      have hOther : id ≠ v.id := by
        intro hId
        exact hCalm ⟨hId.symm, mt refusesAlias_iff.mp hOpen⟩
      exact (Table.get?_insert _ _ _ _).trans (if_neg hOther)
  | cleared => exact absurd trivial hCalm
  | answered _ | placed _ | freed _ | bound _ | released _ | described _ | taken _ | givenBack _ =>
      rfl

/-- A stored target stays as it is through any number of such commands. -/
theorem run_get?_aliases {commands : List (Command κ)}
    (hCalm : Throughout (fun b c => ¬ b.Redirects id c) a commands) :
    (a.run commands).aliases.get? id = a.aliases.get? id :=
  hCalm.run_keeps (fun _ _ _ hStep hOther hSame => (hStep.get?_aliases hOther).trans hSame) rfl

/-- What an accepted alias stores is the target of its target, if that one has any. -/
theorem aliases_aliasTo (hOpen : ¬ a.ClosesCycle v t) :
    (aliasTo v t a).state.aliases = a.aliases.insert v.id (a.aliases.flatten t) := by
  rw [Outcome.state_eq (silent_aliasTo_of_accepted hOpen)]
  rfl

/-- Alias transparency. Once an alias of `v` to `t` is accepted, its stored target is what `v` is
resolved and loaded like, in every state that is reached without a reset and without another
accepted alias of `v`. The same holds of `t` itself, and if `t` was unaliased at the time then
whatever becomes of it; if it was aliased, then as long as no other alias of it is accepted. -/
theorem alias_transparent (target : σ) (options : Options) (before later : List (Command κ))
    (v t : Value) :
    let a : Allocator σ κ := (new target options).run before
    let stored := a.aliases.flatten t
    let next := (aliasTo v t a).state
    let b := next.run later
    ¬ a.RefusesAlias v t → Throughout (fun s c => ¬ s.Redirects v.id c) next later →
    b.aliases.get? v.id = some stored ∧
    (∀ x, x.id = v.id → b.resolve x = b.resolve stored ∧ b.load x = b.load stored) ∧
    ((a.aliases.get? t.id = none ∨ Throughout (fun s c => ¬ s.Redirects t.id c) next later) →
      ∀ x y, x.id = v.id → y.id = t.id →
        (b.resolve x).id = (b.resolve y).id ∧ b.LoadAlike x y) := by
  intro a stored next b hAccepted hCalm
  have hOpen : ¬ a.ClosesCycle v t := mt refusesAlias_iff.mpr hAccepted
  have hNext : next.aliases = a.aliases.insert v.id stored := aliases_aliasTo hOpen
  have hAcyclic : b.aliases.Acyclic := by
    have hRun : b = (new target options : Allocator σ κ).run
        (before ++ .request (.aliasTo v t) :: later) := by
      rw [run_append, run_cons, perform, serve, Action.map_apply]
      rfl
    rw [hRun]
    exact (run_coherent target options _).acyclic
  have hStored : b.aliases.get? v.id = some stored := by
    rw [run_get?_aliases hCalm, hNext, Table.get?_insert, if_pos rfl]
  have hFollows : ∀ x, x.id = v.id → b.resolve x = b.resolve stored := by
    intro x hx
    exact hAcyclic.resolve_of_stored (hx ▸ hStored)
  refine ⟨hStored, ?_, ?_⟩
  · intro x hx
    refine ⟨hFollows x hx, ?_⟩
    rw [load, load, binding?, binding?, hFollows x hx]
  · intro hKept x y hx hy
    have hSame : (b.resolve x).id = (b.resolve y).id := by
      rw [hFollows x hx]
      cases hTarget : a.aliases.get? t.id with
      | none =>
          -- What is stored is `t` itself, so whatever `t` resolves to later is followed.
          have hItself : stored = t := Aliases.flatten_of_unaliased hTarget
          rw [hItself]
          exact hAcyclic.resolve_id_congr hy.symm
      | some further =>
          have hFurther : stored = further := Aliases.flatten_of_aliased hTarget
          rcases hKept with hUnaliased | hKept
          · rw [hUnaliased] at hTarget
            cases hTarget
          · have hStill : b.aliases.get? y.id = some stored := by
              rw [hy, run_get?_aliases hKept, hNext, Table.get?_insert, hTarget, hFurther]
              split <;> rfl
            exact congrArg Value.id (hAcyclic.resolve_of_stored hStill).symm
    exact ⟨hSame, loadAlike_of_resolve hSame⟩

/-- The value in the middle of a chain of three is aliased already when the first is aliased to it.
Then the chain grows at its far end, an alias back to the first value is refused, and a register is
made through a value that leads to the first: the first and the middle one both load it. -/
theorem alias_transparent_through_chain :
    let far : Value := ⟨0, .scalar .i32⟩
    let middle : Value := ⟨1, .scalar .i32⟩
    let first : Value := ⟨2, .scalar .i32⟩
    let low : Value := ⟨3, .scalar .i32⟩
    let other : Value := ⟨4, .scalar .f64⟩
    let before : List (Command VirtualKind) :=
      [.request (.aliasTo low first), .request (.aliasTo middle far)]
    let later : List (Command VirtualKind) := [.request (.aliasTo far other),
      .request (.aliasTo first low), .request (.allocate low)]
    let a : Allocator Virtual VirtualKind := (new (Virtual.new .bits64) default).run before
    let next := (aliasTo first middle a).state
    let b := next.run later
    ¬ a.RefusesAlias first middle ∧
      Throughout (fun s c => ¬ s.Redirects first.id c) next later ∧
      Throughout (fun s c => ¬ s.Redirects middle.id c) next later ∧
      a.aliases.get? middle.id = some far ∧ b.resolve first = other ∧
      b.load first = .ok (.hardware (.allocated 0) ⟨⟨.scalar .f64, some .f64, .float64⟩, 0⟩) ∧
      (b.resolve first).id = (b.resolve middle).id ∧ b.LoadAlike first middle := by
  intro far middle first low other before later a next b
  have hAccepted : ¬ a.RefusesAlias first middle := by
    intro hRefused
    have hMet := any_chain_eq_true_iff.mpr (refusesAlias_iff.mp hRefused)
    exact absurd hMet (by decide +kernel)
  have hFirst : Throughout (fun s c => ¬ s.Redirects first.id c) next later := by
    refine ⟨?_, ?_, ?_, trivial⟩
    · exact fun h => absurd h.1 (by decide)
    · exact fun h => h.2 (refusesAlias_iff.mpr (any_chain_eq_true_iff.mp (by decide +kernel)))
    · exact fun h => h
  have hMiddle : Throughout (fun s c => ¬ s.Redirects middle.id c) next later :=
    ⟨fun h => absurd h.1 (by decide), fun h => absurd h.1 (by decide), fun h => h, trivial⟩
  obtain ⟨_, _, hAlike⟩ := alias_transparent (Virtual.new .bits64) default before later first middle
    hAccepted hFirst
  obtain ⟨hSame, hLoad⟩ := hAlike (.inr hMiddle) first middle rfl rfl
  have hAliased : a.aliases.get? middle.id = some far := by decide +kernel
  have hRoot : b.resolve first = other := by decide +kernel
  have hRegister : b.load first =
      .ok (.hardware (.allocated 0) ⟨⟨.scalar .f64, some .f64, .float64⟩, 0⟩) := by decide +kernel
  exact ⟨hAccepted, hFirst, hMiddle, hAliased, hRoot, hRegister, hSame, hLoad⟩

/-- The first value is aliased to one that is aliased itself, and then that one is aliased anew.
The first value has not been touched since, and yet the two now load different registers. -/
theorem alias_parts_from_realiased_target :
    let old : Value := ⟨0, .scalar .i32⟩
    let other : Value := ⟨1, .scalar .i32⟩
    let middle : Value := ⟨2, .scalar .i32⟩
    let first : Value := ⟨3, .scalar .i32⟩
    let before : List (Command VirtualKind) := [.request (.allocate old),
      .request (.allocate other), .request (.aliasTo middle old)]
    let later : List (Command VirtualKind) := [.request (.aliasTo middle other)]
    let a : Allocator Virtual VirtualKind := (new (Virtual.new .bits64) default).run before
    let next := (aliasTo first middle a).state
    let b := next.run later
    ¬ a.RefusesAlias first middle ∧
      Throughout (fun s c => ¬ s.Redirects first.id c) next later ∧
      b.resolve first = old ∧ b.resolve middle = other ∧ ¬ b.LoadAlike first middle := by
  intro old other middle first before later a next b
  have hAccepted : ¬ a.RefusesAlias first middle := by
    intro hRefused
    have hMet := any_chain_eq_true_iff.mpr (refusesAlias_iff.mp hRefused)
    exact absurd hMet (by decide +kernel)
  have hCalm : Throughout (fun s c => ¬ s.Redirects first.id c) next later :=
    ⟨fun h => absurd h.1 (by decide), trivial⟩
  have hFirst : b.load first =
      .ok (.hardware (.allocated 0) ⟨⟨.scalar .i32, some .i32, .int32⟩, 0⟩) := by decide +kernel
  have hMiddle : b.load middle =
      .ok (.hardware (.allocated 1) ⟨⟨.scalar .i32, some .i32, .int32⟩, 1⟩) := by decide +kernel
  have hApart : ¬ b.LoadAlike first middle := by
    rintro (⟨register, hx, hy⟩ | ⟨name, name', hx, _⟩)
    · rw [hFirst] at hx
      rw [hMiddle, ← hx] at hy
      exact absurd hy (by decide +kernel)
    · rw [hFirst] at hx
      cases hx
  exact ⟨hAccepted, hCalm, by decide +kernel, by decide +kernel, hApart⟩

end Allocator

end RegisterAssignment
