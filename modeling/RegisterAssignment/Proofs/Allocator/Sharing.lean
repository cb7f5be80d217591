import Mathlib.Data.List.Basic
import RegisterAssignment.Proofs.Allocator.Persistence
import RegisterAssignment.Proofs.Supply.Calls
import RegisterAssignment.Proofs.Supply.Origins
import RegisterAssignment.Target.File

/-! Registers that bindings share. The allocator itself never binds a register that has a part in
common with another bound one; only a client can do that. An alias releases the register of the
value that it takes over, so what two bindings share decides whether the value still has what it
will load next. -/

namespace RegisterAssignment.Allocator

variable {σ κ : Type} {R : Register κ → Register κ → Prop} {a : Allocator σ κ} {v t : Value}

/-- All bound registers exist, and each two under different identities are related. -/
structure Pairwise (R : Register κ → Register κ → Prop) (a : Allocator σ κ) : Prop where
  existing : ∀ id held, a.bindings.get? id = some held →
    ∀ n, Origin.allocated n ∈ held.register.origins → n < a.supply.made
  related : ∀ id id' held held', id ≠ id' → a.bindings.get? id = some held →
    a.bindings.get? id' = some held' → R held.register held'.register

/-- A register that the client binds exists by then and is related to all that other identities
are bound to. -/
def Fits (R : Register κ → Register κ → Prop) (a : Allocator σ κ) : Command κ → Prop
  | .bindTo v register => ¬ a.RefusesBind v register →
      (∀ n, Origin.allocated n ∈ register.origins → n < a.supply.made) ∧
      ∀ id held, id ≠ (a.resolve v).id → a.bindings.get? id = some held →
        R register held.register
  | _ => True

theorem pairwise_new (target : σ) (options : Options) :
    Pairwise R (new target options : Allocator σ κ) where
  existing _ _ h := by cases h
  related _ _ _ _ _ h := by cases h

/-- Fewer bindings, and a count that has gone on. -/
theorem Pairwise.of_subset {b : Allocator σ κ} (h : Pairwise R a)
    (hMade : a.supply.made ≤ b.supply.made)
    (hKept : ∀ id held, b.bindings.get? id = some held → a.bindings.get? id = some held) :
    Pairwise R b where
  existing id held hHeld n hn :=
    Nat.lt_of_lt_of_le (h.existing id held (hKept id held hHeld) n hn) hMade
  related id id' held held' hOther hHeld hHeld' :=
    h.related id id' held held' hOther (hKept id held hHeld) (hKept id' held' hHeld')

/-- One more binding. -/
theorem Pairwise.insert {b : Allocator σ κ} {id : ValueId} {new : Binding κ} (h : Pairwise R a)
    (hSymm : ∀ r r', R r r' → R r' r) (hMade : a.supply.made ≤ b.supply.made)
    (hBindings : b.bindings = a.bindings.insert id new)
    (hExisting : ∀ n, Origin.allocated n ∈ new.register.origins → n < b.supply.made)
    (hRelated : ∀ id' held, id' ≠ id → a.bindings.get? id' = some held →
      R new.register held.register) : Pairwise R b := by
  have hCases : ∀ k held, b.bindings.get? k = some held →
      (k = id ∧ held = new) ∨ (k ≠ id ∧ a.bindings.get? k = some held) := by
    intro k held hHeld
    rw [hBindings, Table.get?_insert] at hHeld
    split at hHeld
    next hSame => exact .inl ⟨hSame, (Option.some.inj hHeld).symm⟩
    next hOther => exact .inr ⟨hOther, hHeld⟩
  constructor
  · intro k held hHeld
    rcases hCases k held hHeld with ⟨_, rfl⟩ | ⟨_, hOld⟩
    · exact hExisting
    · intro n hn
      exact Nat.lt_of_lt_of_le (h.existing k held hOld n hn) hMade
  · intro k k' held held' hApart hHeld hHeld'
    rcases hCases k held hHeld with ⟨rfl, rfl⟩ | ⟨hOther, hOld⟩
    · rcases hCases k' held' hHeld' with ⟨rfl, _⟩ | ⟨hOther', hOld'⟩
      · exact absurd rfl hApart
      · exact hRelated k' held' hOther' hOld'
    · rcases hCases k' held' hHeld' with ⟨rfl, rfl⟩ | ⟨_, hOld'⟩
      · exact hSymm _ _ (hRelated k held hOther hOld)
      · exact h.related k k' held held' hApart hOld hOld'

/-- What was made from now on has no part in common with what is bound. -/
theorem Pairwise.disjoint_of_made (h : Pairwise R a) {id : ValueId} {held : Binding κ}
    {next : Nat} {register : Register κ} (hHeld : a.bindings.get? id = some held)
    (hMade : MadeBetween a.supply.made next register.origins) :
    register.origins.Disjoint held.register.origins := by
  intro o hNew hOld
  obtain ⟨n, rfl, hLow, _⟩ := hMade o hNew
  have hHigh := h.existing id held hHeld n hOld
  omega

/-- A register that was just made has no part in common with those that are bound. -/
theorem Pairwise.settle {made : Outcome (Supply σ) κ (Register κ)} (h : Pairwise R a)
    (hSymm : ∀ r r', R r r' → R r' r)
    (hFresh : ∀ r r' : Register κ, r.origins.Disjoint r'.origins → R r r')
    (hMade : Supply.Numbered a.supply made) (id : ValueId) :
    Pairwise R (a.settle id v made).state := by
  rw [Allocator.settle]
  cases hResult : made.result with
  | error e => exact h.of_subset hMade.mono fun _ _ hHeld => hHeld
  | ok register =>
      have hOrigins := hMade.made register hResult
      apply h.insert hSymm hMade.mono rfl
      · intro n hn
        obtain ⟨m, hOrigin, _, hHigh⟩ := hOrigins _ hn
        cases hOrigin
        exact hHigh
      · intro id' held _ hHeld
        exact hFresh _ _ (h.disjoint_of_made hHeld hOrigins)

variable [Target σ κ]

theorem releasing_made (a : Allocator σ κ) (leaves : List (Hardware κ)) :
    (a.releasing leaves).state.supply.made = a.supply.made :=
  Supply.giveUpAll_made leaves a.supply

variable [RegisterKind κ]

/-- Every way of making a register takes its origins from the count. -/
theorem Making.numbered {r : Request} {make : Action (Supply σ) κ (Register κ)}
    (h : Making a r v make) (s : Supply σ) : Supply.Numbered s (make s) := by
  cases h with
  | allocate v => exact Supply.numbered_place _ s
  | allocateHardware v => exact Supply.numbered_placeWhole _ s
  | allocateConstant v literal => exact Supply.numbered_placeConstant _ _ s

variable [DecidableEq κ]

/-- A relation that holds between registers without common parts is kept between all bound ones by
every command, except that the client has to see to it for registers that it binds itself. -/
theorem Step.pairwise {c : Command κ} {o : Outcome (Allocator σ κ) κ (Answer κ)}
    (hStep : Step a c o) (hSymm : ∀ r r', R r r' → R r' r)
    (hFresh : ∀ r r' : Register κ, r.origins.Disjoint r'.origins → R r r') (h : Pairwise R a)
    (hFits : Fits R a c) : Pairwise R o.state := by
  have hErased (id k : ValueId) (held : Binding κ)
      (hHeld : (a.bindings.erase id).get? k = some held) : a.bindings.get? k = some held := by
    rw [Table.get?_erase] at hHeld
    split at hHeld
    · cases hHeld
    · exact hHeld
  cases hStep with
  | answered _ => exact h
  | made hMaking hUnbound => exact h.settle hSymm hFresh (hMaking.numbered _) _
  | placed ty => exact h.of_subset (Supply.numbered_place ty a.supply).mono fun _ _ hHeld => hHeld
  | aliased _ =>
      refine h.of_subset ?_ (hErased _)
      rw [releasing_made]
      exact Nat.le_of_eq (Supply.tally_made _ _).symm
  | freed _ => exact h.of_subset (Nat.le_of_eq (releasing_made _ _).symm) (hErased _)
  | cleared =>
      refine h.of_subset (Nat.le_of_eq (releasing_made _ _).symm) ?_
      intro k held hHeld
      cases hHeld
  | @bound v register hAccepted =>
      obtain ⟨hExisting, hRelated⟩ := hFits hAccepted
      have hMade : a.supply.made = (a.supply.tally fun stats =>
          { stats with binds := stats.binds + 1 }).made := (Supply.tally_made _ _).symm
      refine h.insert hSymm (Nat.le_of_eq hMade) rfl ?_ hRelated
      intro n hn
      exact Nat.lt_of_lt_of_eq (hExisting n hn) hMade
  | released _ =>
      exact h.of_subset (Nat.le_of_eq (releasing_made _ _).symm) fun _ _ hHeld => hHeld
  | described _ | taken _ | givenBack _ => exact h.of_subset (Nat.le_refl _) fun _ _ hHeld => hHeld

/-- A relation that holds between what has nothing in common holds between all bound registers, as
long as what clients bind fits. -/
theorem run_pairwise {commands : List (Command κ)} (hSymm : ∀ r r', R r r' → R r' r)
    (hFresh : ∀ r r' : Register κ, r.origins.Disjoint r'.origins → R r r') (h : Pairwise R a)
    (hFits : Throughout (Fits R) a commands) : Pairwise R (a.run commands) :=
  hFits.run_keeps (fun _ _ _ hStep hFit hPairwise => hStep.pairwise hSymm hFresh hPairwise hFit) h

/-- Two registers are one and the same, or no leaf of one is a leaf of the other. Leaves are
compared as instances. -/
def WholeOrApart (r r' : Register κ) : Prop := r = r' ∨ r.cells.Disjoint r'.cells

omit [RegisterKind κ] [Target σ κ] [DecidableEq κ] in
theorem wholeOrApart_symm (r r' : Register κ) (h : WholeOrApart r r') : WholeOrApart r' r :=
  h.imp Eq.symm fun hApart _ hCell hCell' => hApart hCell' hCell

omit [RegisterKind κ] [Target σ κ] [DecidableEq κ] in
/-- Registers without a common origin have no common leaf. -/
theorem wholeOrApart_of_disjoint (r r' : Register κ) (h : r.origins.Disjoint r'.origins) :
    WholeOrApart r r' := by
  refine .inr ?_
  intro cell hCell hCell'
  exact h (r.fst_mem_origins hCell) (r'.fst_mem_origins hCell')

omit [RegisterKind κ] [Target σ κ] [DecidableEq κ] in
/-- A load succeeds exactly for what is bound. -/
theorem load_eq_ok_iff {register : Register κ} :
    a.load v = .ok register ↔ ∃ held, a.binding? v = some held ∧ held.register = register := by
  rw [load]
  cases a.binding? v with
  | none => simp
  | some held => simp

/-- After an accepted alias the value uses the binding of the identity that its new chain ends
in. -/
theorem binding?_aliasTo (hAcyclic : a.aliases.Acyclic) (hOpen : ¬ a.ClosesCycle v t) :
    (aliasTo v t a).state.binding? v =
      a.bindings.get? (a.aliases.resolve (a.aliases.flatten t)).id := by
  obtain ⟨passed, hLeads⟩ := hAcyclic.leads_resolve (a.aliases.flatten t)
  have hAvoids : ∀ hop ∈ passed ++ [a.aliases.resolve (a.aliases.flatten t)], hop.id ≠ v.id := by
    rw [← hLeads.chain_eq]
    intro hop hMem hId
    exact hOpen ⟨hop, hMem, hId⟩
  have hAhead : Aliases.Leads (a.aliases.insert v.id (a.aliases.flatten t)) (a.aliases.flatten t)
      passed (a.aliases.resolve (a.aliases.flatten t)) := hLeads.insert_of_avoids hAvoids
  have hNext : (a.aliases.insert v.id (a.aliases.flatten t)).get? v.id =
      some (a.aliases.flatten t) := by rw [Table.get?_insert, if_pos rfl]
  have hRoot : (aliasTo v t a).state.resolve v = a.aliases.resolve (a.aliases.flatten t) := by
    rw [Outcome.state_eq (silent_aliasTo_of_accepted hOpen)]
    exact (Aliases.Leads.hop hNext hAhead).resolve_eq
  have hOther : (a.aliases.resolve (a.aliases.flatten t)).id ≠ v.id :=
    hAvoids _ (List.mem_append_right _ (List.mem_singleton_self _))
  rw [binding?, hRoot, Outcome.state_eq (silent_aliasTo_of_accepted hOpen)]
  exact (Table.get?_erase _ _ _).trans (if_neg hOther)

/-- The only calls that an accepted alias makes are those that release what it shadows. -/
theorem calls_aliasTo (hOpen : ¬ a.ClosesCycle v t) :
    ∃ s : Supply σ, (aliasTo v t a).calls = (Supply.giveUpAll (a.shadowed v t) s).calls :=
  ⟨_, Outcome.calls_eq (silent_aliasTo_of_accepted hOpen)⟩

/-- What an accepted alias releases of a value that was bound: nothing, if the value goes on to
load the very register that it had. -/
theorem shadowed_eq {old : Register κ} (hAcyclic : a.aliases.Acyclic)
    (hOpen : ¬ a.ClosesCycle v t) (hOld : (a.bindings.get? v.id).map Binding.register = some old) :
    a.shadowed v t = if (aliasTo v t a).state.load v = .ok old then [] else old.leaves := by
  obtain ⟨held, hHeld, rfl⟩ := Option.map_eq_some_iff.mp hOld
  have hNext := binding?_aliasTo hAcyclic hOpen
  rw [shadowed, hHeld]
  dsimp only
  by_cases hKept : (aliasTo v t a).state.load v = .ok held.register
  · obtain ⟨live, hLive, hSame⟩ := load_eq_ok_iff.mp hKept
    rw [if_pos hKept, if_pos (holds_iff.mpr ⟨live, hNext.symm.trans hLive, hSame⟩)]
  · rw [if_neg hKept, if_neg]
    intro hHolds
    obtain ⟨live, hLive, hSame⟩ := holds_iff.mp hHolds
    exact hKept (load_eq_ok_iff.mpr ⟨live, hNext.trans hLive, hSame⟩)

/-- What an alias releases. A value that had no register loses none. If the value goes on to load
the very register that it had, nothing is released; otherwise the leaves of that register are, in
order, and no others. If the client has bound registers only as a whole, each of them the very
register of other values or without a leaf in common with theirs, then nothing that the value will
load next is released. -/
theorem alias_spares_next_load (target : σ) (options : Options) (commands : List (Command κ))
    (v t : Value) :
    let a : Allocator σ κ := (new target options).run commands
    let after := aliasTo v t a
    ¬ a.RefusesAlias v t →
    (a.bindings.get? v.id = none → after.calls = []) ∧
    ∀ old, (a.bindings.get? v.id).map Binding.register = some old →
      let released := if after.state.load v = .ok old then [] else old.cells
      offeredIn after.calls = released.map Prod.snd ∧
      (Throughout (Fits WholeOrApart) (new target options : Allocator σ κ) commands →
        ∀ live, after.state.load v = .ok live → ∀ cell ∈ released, cell ∉ live.cells) := by
  intro a after hAccepted
  have hOpen : ¬ a.ClosesCycle v t := mt refusesAlias_iff.mpr hAccepted
  have hAcyclic : a.aliases.Acyclic := (run_coherent target options commands).acyclic
  obtain ⟨s, hCalls⟩ := calls_aliasTo hOpen
  constructor
  · intro hUnbound
    rw [hCalls, shadowed, hUnbound]
    rfl
  · intro old hOld released
    constructor
    · rw [hCalls, Supply.offeredIn_giveUpAll, shadowed_eq hAcyclic hOpen hOld]
      by_cases hKept : after.state.load v = .ok old
      · rw [if_pos hKept, show released = [] from if_pos hKept, List.map_nil]
      · rw [if_neg hKept, show released = old.cells from if_neg hKept, Register.map_snd_cells]
    · intro hWhole live hLive cell hCell hShared
      have hPairwise : Pairwise WholeOrApart a :=
        run_pairwise wholeOrApart_symm wholeOrApart_of_disjoint (pairwise_new target options) hWhole
      by_cases hKept : after.state.load v = .ok old
      · rw [show released = [] from if_pos hKept] at hCell
        cases hCell
      · rw [show released = old.cells from if_neg hKept] at hCell
        obtain ⟨held, hHeld, rfl⟩ := Option.map_eq_some_iff.mp hOld
        obtain ⟨next, hNext, rfl⟩ := load_eq_ok_iff.mp hLive
        rw [binding?_aliasTo hAcyclic hOpen] at hNext
        have hOther : v.id ≠ (a.aliases.resolve (a.aliases.flatten t)).id := fun hId =>
          hOpen ⟨_, Aliases.resolve_mem_chain _ _, hId.symm⟩
        rcases hPairwise.related _ _ held next hOther hHeld hNext with hSame | hApart
        · exact hKept (hSame ▸ hLive)
        · exact hApart hCell hShared

/-- A register is bound to two values as a whole, and a structure is aliased to one of them: the
two leaves of the structure are released, and neither is the register that is loaded next. -/
theorem alias_spares_next_load_shared :
    let first : Value := ⟨0, .scalar .i32⟩
    let second : Value := ⟨1, .scalar .i32⟩
    let pair : Value := ⟨2, .struct [.scalar .i32, .scalar .f64]⟩
    let general : Descriptor FileKind := ⟨.scalar .i32, some .i32, .general⟩
    let float : Descriptor FileKind := ⟨.scalar .f64, some .f64, .float⟩
    let shared : Register FileKind := .hardware (.allocated 0) ⟨general, 0⟩
    let old : Register FileKind := .compound (.allocated 3) [.scalar .i32, .scalar .f64]
      [.hardware (.allocated 1) ⟨general, 1⟩, .hardware (.allocated 2) ⟨float, 0⟩]
    let start : Allocator File FileKind := new (File.new ⟨2, 1, .bits64⟩) default
    let commands : List (Command FileKind) :=
      [.request (.allocate second), .bindTo first shared, .request (.allocate pair)]
    let a := start.run commands
    let after := aliasTo pair first a
    ¬ a.RefusesAlias pair first ∧ Throughout (Fits WholeOrApart) start commands ∧
      (a.bindings.get? pair.id).map Binding.register = some old ∧
      after.state.load pair = .ok shared ∧
      offeredIn after.calls = [⟨general, 1⟩, ⟨float, 0⟩] ∧
      ∀ cell ∈ old.cells, cell ∉ shared.cells := by
  intro first second pair general float shared old start commands a after
  have hAccepted : ¬ a.RefusesAlias pair first := by
    intro hRefused
    have hMet := any_chain_eq_true_iff.mpr (refusesAlias_iff.mp hRefused)
    exact absurd hMet (by decide +kernel)
  have hWhole : Throughout (Fits WholeOrApart) start commands := by
    refine ⟨trivial, fun _ => ⟨?_, ?_⟩, trivial, trivial⟩
    · intro n hn
      cases List.mem_singleton.mp hn
      decide +kernel
    · intro id held _ hHeld
      have hRow : (id, held) ∈ [(1, (⟨second, shared⟩ : Binding FileKind))] :=
        Table.get?_eq_some_iff.mp hHeld
      cases List.mem_singleton.mp hRow
      exact .inl rfl
  have hOld : (a.bindings.get? pair.id).map Binding.register = some old := by decide +kernel
  have hLive : after.state.load pair = .ok shared := by decide +kernel
  have hOther : after.state.load pair ≠ .ok old := by decide +kernel
  obtain ⟨_, hReleased⟩ :=
    alias_spares_next_load (File.new ⟨2, 1, .bits64⟩) default commands pair first hAccepted
  obtain ⟨hOffered, hSpared⟩ := hReleased old hOld
  rw [if_neg hOther] at hOffered
  have hApart := hSpared hWhole shared hLive
  rw [if_neg hOther] at hApart
  exact ⟨hAccepted, hWhole, hOld, hLive, hOffered, hApart⟩

/-- A client wraps the register of one value in a structure and binds that to another. When the
other value is aliased to the first, the register is released, although it is the one that both
will load; and the register file hands it out again. -/
theorem alias_releases_enclosed_register :
    let whole : Value := ⟨0, .struct [.scalar .i32]⟩
    let part : Value := ⟨1, .scalar .i32⟩
    let general : Descriptor FileKind := ⟨.scalar .i32, some .i32, .general⟩
    let enclosed : Register FileKind := .hardware (.allocated 0) ⟨general, 0⟩
    let wrapper : Register FileKind := .compound (.supplied 0) [.scalar .i32] [enclosed]
    let a : Allocator File FileKind := (new (File.new ⟨1, 0, .bits64⟩) default).run
      [.request (.allocate part), .bindTo whole wrapper]
    let after := aliasTo whole part a
    ¬ a.RefusesAlias whole part ∧ a.load whole = .ok wrapper ∧ after.result = .ok () ∧
      after.state.load whole = .ok enclosed ∧ wrapper.cells = enclosed.cells ∧
      offeredIn after.calls = enclosed.cells.map Prod.snd ∧
      (after.state.target.pool .general).inUse = 0 ∧
      (allocate ⟨2, .scalar .i32⟩ after.state).result =
        .ok (.hardware (.allocated 1) ⟨general, 0⟩) := by
  intro whole part general enclosed wrapper a after
  have hAccepted : ¬ a.RefusesAlias whole part := by
    intro hRefused
    have hMet := any_chain_eq_true_iff.mpr (refusesAlias_iff.mp hRefused)
    exact absurd hMet (by decide +kernel)
  refine ⟨hAccepted, ?_⟩
  decide +kernel

end RegisterAssignment.Allocator
