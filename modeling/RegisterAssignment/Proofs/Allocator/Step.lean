import RegisterAssignment.Proofs.Allocator.Operations
import RegisterAssignment.Proofs.Supply.Stable

/-! Everything that one command can do to an allocator, apart from its log, in one relation. A
property of all states that runs reach is proved by cases on this relation, and no such proof looks
at how an operation is written. -/

namespace RegisterAssignment.Allocator

variable {σ κ : Type}

section InvalidFree

variable {α β : Type} {a : Allocator σ κ} {v : Value}

theorem map_ne_invalidFree {f : α → β} {result : Except Error α}
    (h : ∀ name, result ≠ .error (.invalidFree name)) (name : String) :
    result.map f ≠ .error (.invalidFree name) := by
  cases result with
  | ok _ => nofun
  | error e => exact fun hName => h name (by cases hName; rfl)

/-- A load fails only because there is nothing to load. -/
theorem load_ne_invalidFree (a : Allocator σ κ) (v : Value) (name : String) :
    a.load v ≠ .error (.invalidFree name) := by
  rw [load]
  split <;> nofun

/-- What is done with a loaded register may add refusals of its own. -/
theorem load_bind_ne_invalidFree {f : Register κ → Except Error β}
    (h : ∀ register name, f register ≠ .error (.invalidFree name)) (name : String) :
    (a.load v >>= f) ≠ .error (.invalidFree name) := by
  cases hLoad : a.load v with
  | ok register => exact h register name
  | error e => exact fun hName => load_ne_invalidFree a v name (by cases hName; exact hLoad)

/-- A question can only fail because a value is unbound or has a register of another variant. -/
theorem answer_ne_invalidFree (a : Allocator σ κ) (q : Query) :
    ∀ name, a.answer q ≠ .error (.invalidFree name) := by
  cases q with
  | isBound v | aliasTarget v | resolve v => nofun
  | load v => exact map_ne_invalidFree (load_ne_invalidFree a v)
  | loadAs v variant =>
      refine map_ne_invalidFree (load_bind_ne_invalidFree ?_)
      intro register
      split <;> nofun
  | loadPrimitive v =>
      refine map_ne_invalidFree (load_bind_ne_invalidFree ?_)
      intro register
      split <;> nofun
  | loadHardware v =>
      refine map_ne_invalidFree (load_bind_ne_invalidFree ?_)
      intro register
      split <;> nofun

end InvalidFree

variable [DecidableEq κ] [RegisterKind κ] [Target σ κ]

/-- The requests that make a register for an unbound value, with the action that makes it. -/
inductive Making (a : Allocator σ κ) :
    Request → Value → Action (Supply σ) κ (Register κ) → Prop where
  | allocate (v : Value) : Making a (.allocate v) v (Supply.place (a.resolve v).ty)
  | allocateHardware (v : Value) :
      Making a (.allocateHardware v) v (Supply.placeWhole (a.resolve v).ty)
  | allocateConstant (v : Value) (literal : Literal) :
      Making a (.allocateConstant v literal) v (Supply.placeConstant (a.resolve v) literal)

/-- How a command ends that has changed the tables and then gives leaves up. -/
def releasing (a : Allocator σ κ) (leaves : List (Hardware κ)) :
    Outcome (Allocator σ κ) κ (Answer κ) :=
  (onSupply (Supply.giveUpAll leaves) a).silent.map fun _ => .done

/-- What a command does, apart from its log: it is answered from the tables, or makes a register,
or changes the tables and gives leaves up, or goes to the target directly. -/
inductive Step (a : Allocator σ κ) : Command κ → Outcome (Allocator σ κ) κ (Answer κ) → Prop where
  | answered {c : Command κ} {result : Except Error (Answer κ)}
      (hValid : ∀ name, result ≠ .error (.invalidFree name)) : Step a c ⟨result, a, [], []⟩
  | made {r : Request} {v : Value} {make : Action (Supply σ) κ (Register κ)}
      (hMaking : Making a r v make) (hUnbound : a.binding? v = none) :
      Step a (.request r) ((a.settle (a.resolve v).id v (make a.supply)).map .register)
  | placed (ty : Ty) :
      Step a (.request (.allocateType ty)) ((onSupply (Supply.place ty) a).silent.map .register)
  | aliased {v target : Value} (hOpen : ¬ a.ClosesCycle v target) :
      Step a (.request (.aliasTo v target)) (releasing { a with
        supply := a.supply.tally fun stats => { stats with aliases := stats.aliases + 1 }
        bindings := a.bindings.erase v.id
        aliases := a.aliases.insert v.id (a.aliases.flatten target) } (a.shadowed v target))
  | freed {v : Value} {held : Binding κ} (hBound : a.binding? v = some held) :
      Step a (.request (.free v)) (releasing
        { a with bindings := a.bindings.erase (a.resolve v).id } held.register.leaves)
  | cleared : Step a (.request .reset) (releasing
      { a with bindings := .empty, aliases := .empty } a.bindings.leaves)
  | bound {v : Value} {register : Register κ} (hAccepted : ¬ a.RefusesBind v register) :
      Step a (.bindTo v register) ⟨.ok .done, { a with
        supply := a.supply.tally fun stats => { stats with binds := stats.binds + 1 }
        bindings := a.bindings.insert (a.resolve v).id ⟨v, register⟩ }, [], []⟩
  | released (register : Register κ) :
      Step a (.freeRegister register) (releasing a register.leaves)
  | described (ty : Ty) :
      Step a (.describe ty) ((onSupply (Supply.describe ty) a).silent.map .descriptor)
  | taken (wanted : Descriptor κ) :
      Step a (.take wanted) ((onSupply (Supply.take wanted) a).silent.map .hardware)
  | givenBack (held : Hardware κ) :
      Step a (.giveBack held) ((onSupply (Supply.giveBack held) a).silent.map fun _ => .done)

/-- The relation covers every request. -/
theorem serve_step (r : Request) (a : Allocator σ κ) : Step a (.request r) (serve r a).silent := by
  cases r with
  | allocate v =>
      rw [serve, Action.silent_map_apply]
      cases hBound : a.binding? v with
      | some held =>
          rw [allocate_of_bound hBound]
          exact .answered nofun
      | none =>
          rw [silent_allocate_of_unbound hBound]
          exact .made (.allocate v) hBound
  | allocateHardware v =>
      rw [serve, Action.silent_map_apply]
      cases hBound : a.binding? v with
      | some held =>
          rw [allocateHardware_of_bound hBound]
          refine .answered (map_ne_invalidFree ?_)
          intro name
          change (if _ then _ else _ : Except Error (Register κ)) ≠ _
          split <;> nofun
      | none =>
          rw [silent_allocateHardware_of_unbound hBound]
          exact .made (.allocateHardware v) hBound
  | allocateConstant v literal =>
      rw [serve, Action.silent_map_apply]
      cases hBound : a.binding? v with
      | some held =>
          rw [allocateConstant_of_bound hBound]
          exact .answered nofun
      | none =>
          rw [silent_allocateConstant_of_unbound hBound]
          exact .made (.allocateConstant v literal) hBound
  | allocateType ty =>
      rw [serve, Action.silent_map_apply]
      exact .placed ty
  | aliasTo v target =>
      rw [serve, Action.silent_map_apply]
      by_cases hCycle : a.ClosesCycle v target
      · rw [aliasTo_of_cycle hCycle]
        exact .answered nofun
      · rw [silent_aliasTo_of_accepted hCycle]
        exact .aliased hCycle
  | free v =>
      rw [serve, Action.silent_map_apply]
      cases hBound : a.binding? v with
      | none =>
          rw [free_of_unbound hBound]
          exact .answered nofun
      | some held =>
          rw [silent_free_of_bound hBound]
          exact .freed hBound
  | reset =>
      rw [serve, Action.silent_map_apply, silent_reset]
      exact .cleared
  | query q => exact .answered (answer_ne_invalidFree a q)

/-- The relation covers every command. -/
theorem perform_step (c : Command κ) (a : Allocator σ κ) : Step a c (perform c a).silent := by
  cases c with
  | request r => exact serve_step r a
  | bindTo v register =>
      rw [perform, Action.silent_map_apply]
      by_cases hRefused : a.RefusesBind v register
      · obtain ⟨hDeny, held, hHeld, hOther⟩ := hRefused
        rw [bindTo_of_denied hDeny hHeld hOther]
        exact .answered nofun
      · rw [silent_bindTo_of_accepted hRefused]
        exact .bound hRefused
  | freeRegister register =>
      have hRelease : (freeRegister register a).silent =
          (onSupply (Supply.giveUpAll register.leaves) a).silent :=
        congrFun (silent_freeRegister register) a
      rw [perform, Action.silent_map_apply, hRelease]
      exact .released register
  | describe ty =>
      rw [perform, Action.silent_map_apply]
      exact .described ty
  | take wanted =>
      rw [perform, Action.silent_map_apply]
      exact .taken wanted
  | giveBack held =>
      rw [perform, Action.silent_map_apply]
      exact .givenBack held

omit [DecidableEq κ] in
/-- Every way of making a register keeps what no action of a supply can change. -/
theorem Making.keeps {P : Supply σ → Prop} (hP : Supply.Stable P) {a : Allocator σ κ} {r : Request}
    {v : Value} {make : Action (Supply σ) κ (Register κ)} (h : Making a r v make) :
    Supply.Keeps P make := by
  cases h with
  | allocate v => exact hP.keeps_place _
  | allocateHardware v => exact hP.keeps_placeWhole _
  | allocateConstant v literal => exact hP.keeps_placeConstant _ _

/-- What no action of a supply can change lasts through every command. -/
theorem Step.keeps_supply {P : Supply σ → Prop} (hP : Supply.Stable P) {a : Allocator σ κ}
    {c : Command κ} {o : Outcome (Allocator σ κ) κ (Answer κ)} (hStep : Step a c o)
    (h : P a.supply) : P o.state.supply := by
  cases hStep with
  | answered _ | described _ => exact h
  | made hMaking _ =>
      simp only [Outcome.map, settle]
      split
      · exact hMaking.keeps hP _ h
      · exact hMaking.keeps hP _ h
  | placed ty => exact hP.keeps_place ty _ h
  | aliased _ =>
      have hCounted := hP.tally (fun stats => { stats with aliases := stats.aliases + 1 }) h
      exact hP.keeps_giveUpAll _ _ hCounted
  | freed _ | cleared | released _ => exact hP.keeps_giveUpAll _ _ h
  | bound _ => exact hP.tally (fun stats => { stats with binds := stats.binds + 1 }) h
  | taken wanted => exact hP.take wanted h
  | givenBack held => exact hP.giveBack held h

theorem run_cons (a : Allocator σ κ) (c : Command κ) (rest : List (Command κ)) :
    a.run (c :: rest) = (perform c a).state.run rest := rfl

/-- A run can be interrupted and taken up again. -/
theorem run_append (a : Allocator σ κ) (first second : List (Command κ)) :
    a.run (first ++ second) = (a.run first).run second :=
  List.foldl_append

/-- A condition holds for each command of a sequence in the state in which it is performed. -/
def Throughout (P : Allocator σ κ → Command κ → Prop) : Allocator σ κ → List (Command κ) → Prop
  | _, [] => True
  | a, c :: rest => P a c ∧ Throughout P (perform c a).state rest

section Throughout

variable {P : Allocator σ κ → Command κ → Prop} {a : Allocator σ κ} {commands : List (Command κ)}

/-- A condition that does not depend on the states is one on the commands. -/
theorem throughout_of_forall (h : ∀ c ∈ commands, ∀ b, P b c) : Throughout P a commands := by
  induction commands generalizing a with
  | nil => trivial
  | cons c rest ih =>
      exact ⟨h c List.mem_cons_self a, ih fun d hd => h d (List.mem_cons_of_mem c hd)⟩

/-- A condition that holds throughout a sequence holds throughout its beginnings. -/
theorem Throughout.of_append {first second : List (Command κ)}
    (h : Throughout P a (first ++ second)) : Throughout P a first := by
  induction first generalizing a with
  | nil => trivial
  | cons c rest ih => exact ⟨h.1, ih h.2⟩

/-- What holds before a run, and is kept by every step whose command meets a condition, holds after
the run if all its commands meet it. -/
theorem Throughout.run_keeps {Inv : Allocator σ κ → Prop} (hAll : Throughout P a commands)
    (hStep : ∀ b c o, Step b c o → P b c → Inv b → Inv o.state) (h : Inv a) :
    Inv (a.run commands) := by
  induction commands generalizing a with
  | nil => exact h
  | cons c rest ih =>
      rw [run_cons]
      exact ih hAll.2 (hStep a c (perform c a).silent (perform_step c a) hAll.1 h)

/-- What holds before a run and is kept by each of its steps holds after the run. -/
theorem run_keeps {Inv : Allocator σ κ → Prop}
    (hStep : ∀ c ∈ commands, ∀ b o, Step b c o → Inv b → Inv o.state) (h : Inv a) :
    Inv (a.run commands) :=
  (throughout_of_forall hStep).run_keeps (fun _ _ o hOne hKept => hKept o hOne) h

end Throughout

end RegisterAssignment.Allocator
