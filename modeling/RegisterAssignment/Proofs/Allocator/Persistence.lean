import RegisterAssignment.Proofs.Allocator.Tables
import RegisterAssignment.Proofs.Supply.Failure

/-! A value keeps its register. Once an identity is bound, only four kinds of commands can end
that; through all others, failing ones included, every request for a register of the identity is
answered from the table. -/

namespace RegisterAssignment.Allocator

variable {σ κ : Type}

/-- An identity stands for itself and is bound to this very register. -/
structure BoundTo (a : Allocator σ κ) (id : ValueId) (register : Register κ) : Prop where
  unaliased : a.aliases.get? id = none
  bound : ∃ held, a.bindings.get? id = some held ∧ held.register = register

variable {a : Allocator σ κ} {id : ValueId} {register : Register κ} {v target : Value}

/-- A value that resolves to a bound identity has its register. -/
theorem BoundTo.binding? (h : a.BoundTo id register) (hRoot : (a.resolve v).id = id) :
    ∃ held, a.binding? v = some held ∧ held.register = register := by
  rw [Allocator.binding?, hRoot]
  exact h.bound

/-- An unbound value resolves to another identity. -/
theorem BoundTo.ne_of_unbound (h : a.BoundTo id register) (hUnbound : a.binding? v = none) :
    id ≠ (a.resolve v).id := by
  intro hRoot
  obtain ⟨held, hHeld, _⟩ := h.binding? hRoot.symm
  rw [hUnbound] at hHeld
  cases hHeld

/-- Changing the entry of another identity does no harm. -/
theorem BoundTo.congr {b : Allocator σ κ} (h : a.BoundTo id register)
    (hBindings : b.bindings.get? id = a.bindings.get? id)
    (hAliases : b.aliases.get? id = a.aliases.get? id) : b.BoundTo id register :=
  ⟨hAliases.trans h.unaliased, by rw [hBindings]; exact h.bound⟩

variable [DecidableEq κ] [RegisterKind κ] [Target σ κ]

/-- An alias is refused if the answer is that it would close a cycle. The target is not asked
then: an error of the target is no refusal even if it looks the same, because by that time the
alias is stored. -/
def RefusesAlias (a : Allocator σ κ) (v target : Value) : Prop :=
  (∃ name goal, (aliasTo v target a).result = .error (.aliasCycle name goal)) ∧
    (aliasTo v target a).calls = []

/-- An alias is refused exactly if its value is met on the way from what would be stored. -/
theorem refusesAlias_iff : a.RefusesAlias v target ↔ a.ClosesCycle v target := by
  refine ⟨?_, fun h => by rw [RefusesAlias, aliasTo_of_cycle h]; exact ⟨⟨_, _, rfl⟩, rfl⟩⟩
  rintro ⟨⟨name, goal, hResult⟩, hCalls⟩
  by_contra hOpen
  rw [Outcome.result_eq (silent_aliasTo_of_accepted hOpen)] at hResult
  rw [Outcome.calls_eq (silent_aliasTo_of_accepted hOpen)] at hCalls
  cases hShadowed : a.shadowed v target with
  | nil =>
      rw [hShadowed] at hResult
      cases hResult
  | cons leaf rest =>
      rw [hShadowed, Supply.giveUpAll_cons] at hCalls
      change (Supply.giveUp leaf _).calls ++ _ = [] at hCalls
      rw [Supply.giveUp_calls] at hCalls
      cases hCalls

/-- On a target that does not answer a release with the error for a cycle, that error alone tells
that an alias is refused. -/
theorem refusesAlias_iff_result
    (hTarget : ∀ (held : Hardware κ) (t : σ) name goal,
      (Target.giveBack held t).result ≠ .error (.aliasCycle name goal)) :
    a.RefusesAlias v target ↔
      ∃ name goal, (aliasTo v target a).result = .error (.aliasCycle name goal) := by
  refine ⟨And.left, ?_⟩
  rintro ⟨name, goal, hResult⟩
  rw [refusesAlias_iff]
  by_contra hOpen
  rw [Outcome.result_eq (silent_aliasTo_of_accepted hOpen)] at hResult
  obtain ⟨leaf, _, t, hBack⟩ := Supply.exists_of_giveUpAll_error hResult
  exact hTarget leaf t name goal hBack

/-- Every discerning target is such a target, and among them are the virtual one, the register file
and the scripted one. -/
theorem refusesAlias_iff_of_discerning (hTarget : Discerning σ) :
    a.RefusesAlias v target ↔
      ∃ name goal, (aliasTo v target a).result = .error (.aliasCycle name goal) := by
  apply refusesAlias_iff_result
  intro held t name goal hBack
  obtain ⟨_, hInvalid⟩ := hTarget.giveBack held t _ hBack
  cases hInvalid

/-- The commands that may take a register away from an identity: a reset, a release through a
value that resolves to it, a binding of it to another register, and an alias of it. -/
def Disturbs (a : Allocator σ κ) (id : ValueId) (register : Register κ) : Command κ → Prop
  | .request .reset => True
  | .request (.free v) => (a.resolve v).id = id
  | .request (.aliasTo v target) => v.id = id ∧ ¬ a.RefusesAlias v target
  | .bindTo v other =>
      (a.resolve v).id = id ∧ other ≠ register ∧ (bindTo v other a).result = .ok ()
  | _ => False

/-- No command of a sequence disturbs the binding in the state in which it is performed. -/
def Undisturbed (id : ValueId) (register : Register κ) :
    Allocator σ κ → List (Command κ) → Prop :=
  Throughout fun a c => ¬ a.Disturbs id register c

/-- A command that does not disturb a binding leaves it in place, whether it succeeds or fails. -/
theorem Step.boundTo {c : Command κ} {o : Outcome (Allocator σ κ) κ (Answer κ)} (hStep : Step a c o)
    (h : a.BoundTo id register) (hCalm : ¬ a.Disturbs id register c) :
    o.state.BoundTo id register := by
  cases hStep with
  | made _ hUnbound =>
      simp only [Outcome.map, settle]
      split
      · refine h.congr ?_ rfl
        exact (Table.get?_insert _ _ _ _).trans (if_neg (h.ne_of_unbound hUnbound))
      · exact h.congr rfl rfl
  | @aliased v target hOpen =>
      have hOther : id ≠ v.id := by
        intro hId
        exact hCalm ⟨hId.symm, mt refusesAlias_iff.mp hOpen⟩
      refine h.congr ?_ ?_
      · exact (Table.get?_erase _ _ _).trans (if_neg hOther)
      · exact (Table.get?_insert _ _ _ _).trans (if_neg hOther)
  | @freed v held hBound =>
      have hOther : id ≠ (a.resolve v).id := fun hId => hCalm hId.symm
      refine h.congr ?_ rfl
      exact (Table.get?_erase _ _ _).trans (if_neg hOther)
  | cleared => exact absurd trivial hCalm
  | @bound v other hAccepted =>
      by_cases hRoot : id = (a.resolve v).id
      · -- Binding the identity to the register that it has may change the producer only.
        have hSame : other = register := by
          by_contra hNe
          exact hCalm ⟨hRoot.symm, hNe, Outcome.result_eq (silent_bindTo_of_accepted hAccepted)⟩
        refine ⟨h.unaliased, ⟨v, other⟩, ?_, hSame⟩
        rw [Table.get?_insert, if_pos hRoot]
      · refine h.congr ?_ rfl
        exact (Table.get?_insert _ _ _ _).trans (if_neg hRoot)
  | answered _ | placed _ | released _ | described _ | taken _ | givenBack _ =>
      exact h.congr rfl rfl

/-- The binding lasts through every sequence of such commands. -/
theorem run_boundTo {commands : List (Command κ)} (h : a.BoundTo id register)
    (hCalm : Undisturbed id register a commands) : (a.run commands).BoundTo id register :=
  Throughout.run_keeps hCalm (fun _ _ _ hStep hOther hBound => hStep.boundTo hBound hOther) h

omit [DecidableEq κ] [RegisterKind κ] [Target σ κ] in
/-- A value that resolves to a bound identity is loaded with its register. -/
theorem BoundTo.load_eq (h : a.BoundTo id register) (hRoot : (a.resolve v).id = id) :
    a.load v = .ok register := by
  obtain ⟨held, hHeld, rfl⟩ := h.binding? hRoot
  rw [load, hHeld]

/-- At most one register per value. From any state in which an identity is bound, through any
further commands that do not disturb the binding, the identity stays unaliased and bound to the
same register; and at every moment each request through a value that resolves to it then is
answered with that register, without a call into the target and without any change. -/
theorem binding_persists (target : σ) (options : Options) (before later : List (Command κ))
    (id : ValueId) (held : Binding κ)
    (hBound : ((new target options : Allocator σ κ).run before).bindings.get? id = some held)
    (hCalm : Undisturbed id held.register ((new target options).run before) later) :
    ∀ earlier, earlier <+: later →
      let b : Allocator σ κ := ((new target options).run before).run earlier
      b.aliases.get? id = none ∧
      (∃ now, b.bindings.get? id = some now ∧ now.register = held.register) ∧
      ∀ v, (b.resolve v).id = id →
        serve (.allocate v) b = ⟨.ok (.register held.register), b, [], []⟩ ∧
        (∀ literal,
          serve (.allocateConstant v literal) b = ⟨.ok (.register held.register), b, [], []⟩) ∧
        serve (.query (.load v)) b = ⟨.ok (.register held.register), b, [], []⟩ ∧
        serve (.allocateHardware v) b =
          ⟨if held.register.variant = .hardware then .ok (.register held.register) else
            .error (.wrongVariant (b.resolve v).text Variant.hardware.text
              held.register.variant.text), b, [], []⟩ := by
  rintro earlier ⟨rest, rfl⟩ b
  have hStart : ((new target options : Allocator σ κ).run before).BoundTo id held.register :=
    ⟨(run_coherent target options before).unaliased id held hBound, held, hBound, rfl⟩
  have hNow : b.BoundTo id held.register := run_boundTo hStart (Throughout.of_append hCalm)
  refine ⟨hNow.unaliased, hNow.bound, ?_⟩
  intro v hRoot
  obtain ⟨now, hHeld, hSame⟩ := hNow.binding? hRoot
  rw [← hSame]
  refine ⟨?_, ?_, ?_, ?_⟩
  · rw [serve, Action.map_apply, allocate_of_bound hHeld]
    rfl
  · intro literal
    rw [serve, Action.map_apply, allocateConstant_of_bound hHeld]
    rfl
  · change Outcome.mk (Answer.register <$> b.load v) b [] [] = _
    rw [hNow.load_eq hRoot, ← hSame]
    rfl
  · rw [serve, Action.map_apply, allocateHardware_of_bound hHeld]
    split <;> rfl

/-- The first of two values keeps its register while an alias of it is stored and used, the alias
the other way round is refused, the same register is bound again, and the second value is freed. -/
theorem binding_persists_on_file :
    let first : Value := ⟨0, .scalar .i32⟩
    let second : Value := ⟨1, .scalar .i32⟩
    let other : Value := ⟨2, .scalar .f64⟩
    let general : Descriptor FileKind := ⟨.scalar .i32, some .i32, .general⟩
    let held : Register FileKind := .hardware (.allocated 0) ⟨general, 0⟩
    let before : List (Command FileKind) :=
      [.request (.allocate first), .request (.allocate second)]
    let later : List (Command FileKind) := [.request (.aliasTo other first),
      .request (.allocateConstant other (.i32 7)), .request (.aliasTo first other),
      .bindTo other held, .request (.free second)]
    let a : Allocator File FileKind := (new (File.new ⟨2, 0, .bits64⟩) default).run before
    a.bindings.get? 0 = some ⟨first, held⟩ ∧ Undisturbed 0 held a later ∧
      serve (.allocateHardware other) (a.run later) =
        ⟨.ok (.register held), a.run later, [], []⟩ := by
  intro first second other general held before later a
  have hBound : a.bindings.get? 0 = some ⟨first, held⟩ := rfl
  have hCalm : Undisturbed 0 held a later := by
    refine ⟨?_, ?_, ?_, ?_, ?_, trivial⟩
    · exact fun h => absurd h.1 (by decide)
    · exact fun h => h
    · exact fun h => h.2 (refusesAlias_iff.mpr (any_chain_eq_true_iff.mp (by decide +kernel)))
    · exact fun h => h.2.1 rfl
    · change ¬ (Allocator.resolve _ second).id = 0
      decide +kernel
  obtain ⟨_, _, hAnswers⟩ :=
    binding_persists _ default before later 0 _ hBound hCalm later (List.prefix_refl later)
  obtain ⟨_, _, _, hHardware⟩ := hAnswers other (by decide +kernel)
  exact ⟨hBound, hCalm, hHardware⟩

end RegisterAssignment.Allocator
