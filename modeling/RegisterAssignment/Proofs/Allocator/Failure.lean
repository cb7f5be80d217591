import RegisterAssignment.Proofs.Allocator.Counters
import RegisterAssignment.Proofs.Supply.Failure

/-! What a failed command leaves behind. The tables are changed before anything is released and
after everything is made, so a command that fails has left them alone, unless a release was
refused; then it has changed them just as if the target had taken everything back. -/

namespace RegisterAssignment

variable {σ κ : Type}

namespace Command

/-- Whether a command may release registers that a value or a client holds. -/
def releases : Command κ → Bool
  | .request (.aliasTo ..) | .request (.free _) | .request .reset | .freeRegister _ => true
  | _ => false

def makes : Command κ → Bool
  | .request (.allocate _) | .request (.allocateHardware _) | .request (.allocateConstant ..)
  | .request (.allocateType _) => true
  | _ => false

end Command

namespace Allocator

variable {a : Allocator σ κ} {v t : Value}

/-- The same allocator over a target that takes every register back. -/
def obliging (a : Allocator σ κ) : Allocator (Obliging σ) κ where
  supply := ⟨⟨a.supply.target⟩, a.supply.made, a.supply.counting, a.supply.stats⟩
  rebind := a.rebind
  bindings := a.bindings
  aliases := a.aliases

variable [Target σ κ]

/-- No release is refused by an obliging target. -/
theorem releasing_obliging (a : Allocator (Obliging σ) κ) (leaves : List (Hardware κ)) :
    (a.releasing leaves).result = .ok .done :=
  congrArg (Except.map _) (Obliging.giveUpAll_result leaves a.supply)

/-- A command that fails at the releases fails as an invalid release. -/
theorem releasing_error (h : Discerning σ) {leaves : List (Hardware κ)} {e : Error}
    (hResult : (a.releasing leaves).result = .error e) : ∃ name, e = .invalidFree name := by
  change (Supply.giveUpAll leaves a.supply).result.map _ = _ at hResult
  cases hGiven : (Supply.giveUpAll leaves a.supply).result with
  | ok _ =>
      rw [hGiven] at hResult
      cases hResult
  | error refusal =>
      rw [hGiven] at hResult
      cases hResult
      exact Supply.giveUpAll_error h hGiven

variable [RegisterKind κ]

/-- Making a register never fails so, although a structure that cannot be completed is released. -/
theorem Making.neverInvalid (h : Discerning σ) {r : Request}
    {make : Action (Supply σ) κ (Register κ)} (hMaking : Making a r v make) :
    make.NeverInvalid := by
  cases hMaking with
  | allocate v => exact Supply.neverInvalid_place h _
  | allocateHardware v => exact Supply.neverInvalid_placeWhole h _
  | allocateConstant v literal => exact Supply.neverInvalid_placeConstant h _ _

theorem Making.request_makes {r : Request} {make : Action (Supply σ) κ (Register κ)}
    (hMaking : Making a r v make) : (Command.request r : Command κ).makes = true := by
  cases hMaking <;> rfl

variable [DecidableEq κ]

/-- An accepted alias changes both tables and then releases what it shadows. -/
theorem silent_perform_aliasTo (hOpen : ¬ a.ClosesCycle v t) :
    (perform (.request (.aliasTo v t)) a).silent = releasing { a with
      supply := a.supply.tally fun stats => { stats with aliases := stats.aliases + 1 }
      bindings := a.bindings.erase v.id
      aliases := a.aliases.insert v.id (a.aliases.flatten t) } (a.shadowed v t) := by
  rw [perform, serve, Action.silent_map_apply, silent_aliasTo_of_accepted hOpen]
  rfl

/-- Freeing removes the binding and then releases its register. -/
theorem silent_perform_free {held : Binding κ} (hBound : a.binding? v = some held) :
    (perform (.request (.free v)) a).silent = releasing
      { a with bindings := a.bindings.erase (a.resolve v).id } held.register.leaves := by
  rw [perform, serve, Action.silent_map_apply, silent_free_of_bound hBound]
  rfl

/-- A reset empties both tables and then releases everything. -/
theorem silent_perform_reset (a : Allocator σ κ) :
    (perform (.request .reset) a).silent = releasing
      { a with bindings := .empty, aliases := .empty } a.bindings.leaves := by
  rw [perform, serve, Action.silent_map_apply, silent_reset]
  rfl

theorem silent_perform_freeRegister (register : Register κ) (a : Allocator σ κ) :
    (perform (.freeRegister register) a).silent = a.releasing register.leaves := by
  rw [perform, Action.silent_map_apply]
  exact congrArg (Outcome.map _) (congrFun (silent_freeRegister register) a)

/-- A step that fails has left the tables alone, and everything else too unless it was to make a
register; or it is a release that the target has refused. -/
theorem Step.failure (h : Discerning σ) {c : Command κ}
    {o : Outcome (Allocator σ κ) κ (Answer κ)} {e : Error} (hStep : Step a c o)
    (hDirect : c.direct = false) (hResult : o.result = .error e) :
    ((∀ name, e ≠ .invalidFree name) ∧ o.state.bindings = a.bindings ∧
      o.state.aliases = a.aliases ∧ (c.makes = false → o.state = a)) ∨
    ((∃ name, e = .invalidFree name) ∧ c.releases = true) := by
  cases hStep with
  | answered hValid =>
      refine .inl ⟨?_, rfl, rfl, fun _ => rfl⟩
      rintro name rfl
      exact hValid name hResult
  | @made r v make hMaking hUnbound =>
      refine .inl ?_
      simp only [Outcome.map, settle] at hResult ⊢
      cases hMade : (make a.supply).result with
      | ok register =>
          rw [hMade] at hResult
          cases hResult
      | error refusal =>
          rw [hMade] at hResult
          cases hResult
          refine ⟨?_, rfl, rfl, ?_⟩
          · rintro name rfl
            exact hMaking.neverInvalid h a.supply name hMade
          · intro hNot
            rw [hMaking.request_makes] at hNot
            cases hNot
  | placed ty =>
      refine .inl ⟨?_, rfl, rfl, fun hNot => by cases hNot⟩
      rintro name rfl
      exact map_ne_invalidFree (Supply.neverInvalid_place h ty a.supply) name hResult
  | aliased _ => exact .inr ⟨releasing_error h hResult, rfl⟩
  | freed _ => exact .inr ⟨releasing_error h hResult, rfl⟩
  | cleared => exact .inr ⟨releasing_error h hResult, rfl⟩
  | released _ => exact .inr ⟨releasing_error h hResult, rfl⟩
  | bound _ => cases hResult
  | described _ | taken _ | givenBack _ => cases hDirect

/-- A command that changes the tables and gives leaves up succeeds where none is refused. -/
theorem perform_obliging {c : Command κ} {b : Allocator (Obliging σ) κ}
    {leaves : List (Hardware κ)} (h : (perform c a.obliging).silent = b.releasing leaves) :
    (perform c a.obliging).result = .ok .done ∧
      b.bindings = (perform c a.obliging).state.bindings ∧
      b.aliases = (perform c a.obliging).state.aliases := by
  rw [Outcome.result_eq h, Outcome.state_eq h, releasing_obliging]
  exact ⟨rfl, rfl, rfl⟩

/-- A refused release has changed the tables as it does where nothing is refused. -/
theorem Step.refused {c : Command κ} {o : Outcome (Allocator σ κ) κ (Answer κ)} {name : String}
    (hStep : Step a c o) (hReleases : c.releases = true)
    (hResult : o.result = .error (.invalidFree name)) :
    (perform c a.obliging).result = .ok .done ∧
      o.state.bindings = (perform c a.obliging).state.bindings ∧
      o.state.aliases = (perform c a.obliging).state.aliases := by
  cases hStep with
  | answered hValid => exact absurd hResult (hValid name)
  | made hMaking _ => cases hMaking <;> cases hReleases
  | @aliased v t hOpen =>
      have hOpen' : ¬ a.obliging.ClosesCycle v t := hOpen
      exact perform_obliging (silent_perform_aliasTo hOpen')
  | @freed v held hBound =>
      have hBound' : a.obliging.binding? v = some held := hBound
      exact perform_obliging (silent_perform_free hBound')
  | cleared => exact perform_obliging (silent_perform_reset a.obliging)
  | released register => exact perform_obliging (silent_perform_freeRegister register a.obliging)
  | placed _ | bound _ | described _ | taken _ | givenBack _ => cases hReleases

/-- How a command may fail. -/
structure FailsCleanly (a : Allocator σ κ) (c : Command κ) : Prop where
  /-- Unless a release was refused, the tables are as before, and so is everything else unless the
  command was to make a register. -/
  other : ∀ e, (perform c a).result = .error e → (∀ name, e ≠ .invalidFree name) →
    (perform c a).state.bindings = a.bindings ∧ (perform c a).state.aliases = a.aliases ∧
      (c.makes = false → (perform c a).state = a)
  /-- If a release was refused, the command was to release something, and the tables are as it
  leaves them where it succeeds because the target takes everything back. -/
  refused : ∀ name, (perform c a).result = .error (.invalidFree name) →
    c.releases = true ∧ (perform c a.obliging).result = .ok .done ∧
      (perform c a).state.bindings = (perform c a.obliging).state.bindings ∧
      (perform c a).state.aliases = (perform c a.obliging).state.aliases

/-- On a discerning target every command that goes through the allocator fails cleanly. -/
theorem failsCleanly (h : Discerning σ) (a : Allocator σ κ) {c : Command κ}
    (hDirect : c.direct = false) : a.FailsCleanly c := by
  have hStep : Step a c (perform c a).silent := perform_step c a
  constructor
  · intro e hResult hOther
    rcases hStep.failure h hDirect hResult with ⟨_, hKept⟩ | ⟨⟨name, hName⟩, _⟩
    · exact hKept
    · exact absurd hName (hOther name)
  · intro name hResult
    rcases hStep.failure h hDirect hResult with ⟨hOther, _⟩ | ⟨_, hReleases⟩
    · exact absurd rfl (hOther name)
    · exact ⟨hReleases, hStep.refused hReleases hResult⟩

/-- Clean failure. On virtual registers, on a register file and on any scripted target, in every
state, a command that fails for any other reason than a refused release has left the tables alone,
and everything else too unless it was to make a register. Only releases can be refused, and a
refused one leaves the tables as it does where the target takes everything back. -/
theorem failed_commands_keep_tables :
    (∀ (a : Allocator Virtual VirtualKind) (c : Command VirtualKind), c.direct = false →
      a.FailsCleanly c) ∧
    (∀ (a : Allocator File FileKind) (c : Command FileKind), c.direct = false →
      a.FailsCleanly c) ∧
    ∀ (a : Allocator Scripted ScriptedKind) (c : Command ScriptedKind), c.direct = false →
      a.FailsCleanly c :=
  ⟨fun a _ => failsCleanly discerning_virtual a, fun a _ => failsCleanly discerning_file a,
    fun a _ => failsCleanly discerning_scripted a⟩

/-- A structure fails at its second field, and shadowing another one is refused for its second leaf:
the first leaves both tables alone, the second has erased the binding and entered the alias. -/
theorem failed_commands_keep_tables_midway :
    let pair : Value := ⟨0, .struct [.scalar .i32, .scalar .i32]⟩
    let single : Value := ⟨1, .scalar .i32⟩
    let a : Allocator Scripted ScriptedKind := (new (Scripted.new (some 4) [1] false) default).run
      [.request (.allocate pair), .request (.allocate single)]
    let grow : Command ScriptedKind := .request (.allocate { pair with id := 2 })
    let shadow : Command ScriptedKind := .request (.aliasTo pair single)
    (perform grow a).result = .error (.exhausted "Int" 4) ∧
      (perform grow a).state.bindings = a.bindings ∧
      (perform shadow a).result = .error (.invalidFree "Int#1") ∧
      (perform shadow a).state.bindings = (perform shadow a.obliging).state.bindings ∧
      (perform shadow a).state.aliases = (perform shadow a.obliging).state.aliases ∧
      (perform shadow a).state.bindings.get? 0 = none ∧
      (perform shadow a).state.aliases.get? 0 = some single := by
  intro pair single a grow shadow
  have hGrow : (perform grow a).result = .error (.exhausted "Int" 4) := by decide +kernel
  have hShadow : (perform shadow a).result = .error (.invalidFree "Int#1") := by decide +kernel
  have hGrown := (failed_commands_keep_tables.2.2 a grow rfl).other _ hGrow nofun
  have hShadowed := (failed_commands_keep_tables.2.2 a shadow rfl).refused _ hShadow
  refine ⟨hGrow, hGrown.1, hShadow, hShadowed.2.2.1, hShadowed.2.2.2, ?_, by decide +kernel⟩
  apply Option.isNone_iff_eq_none.mp
  decide +kernel

end Allocator

end RegisterAssignment
