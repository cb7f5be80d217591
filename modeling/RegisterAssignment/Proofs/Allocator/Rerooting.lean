import RegisterAssignment.Proofs.Allocator.Transparency
import RegisterAssignment.Target.Scripted

/-! Where an alias leads everything that leads to it. The stored targets form a forest, and an alias
that is accepted cuts one identity off and hangs it, with all values below it, under another root;
all other values stay where they are. An alias is refused if its value is met on the way from the
one that it is aliased to, except that the check begins behind the first hop: a value that is
aliased already is not found by a request to alias it to itself. -/

namespace RegisterAssignment

namespace Aliases

variable {t : Aliases} {id : ValueId} {x next stored : Value}

/-- Following stored targets from a value, which counts as well, comes to an identity. -/
inductive Meets (t : Aliases) (id : ValueId) : Value → Prop where
  | here {x : Value} (hId : x.id = id) : Meets t id x
  | later {x next : Value} (hNext : t.get? x.id = some next) (rest : Meets t id next) : Meets t id x

/-- Without circles, an identity is met exactly if it is on the chain. -/
theorem Acyclic.meets_iff (hAcyclic : t.Acyclic) :
    t.Meets id x ↔ ∃ hop ∈ t.chain x, hop.id = id := by
  obtain ⟨passed, w, hLeads⟩ := hAcyclic x
  rw [hLeads.chain_eq]
  induction hLeads with
  | @root x hRoot =>
      constructor
      · intro hMeets
        cases hMeets with
        | here hId => exact ⟨x, by simp, hId⟩
        | later hNext _ =>
            rw [hRoot] at hNext
            cases hNext
      · rintro ⟨hop, hMem, hId⟩
        rw [List.mem_singleton.mp hMem] at hId
        exact .here hId
  | @hop x next w passed hNext _ ih =>
      constructor
      · intro hMeets
        cases hMeets with
        | here hId => exact ⟨x, by simp, hId⟩
        | later hNext' hLater =>
            rw [hNext] at hNext'
            cases hNext'
            obtain ⟨hop, hMem, hId⟩ := ih.mp hLater
            exact ⟨hop, List.mem_cons_of_mem x hMem, hId⟩
      · rintro ⟨hop, hMem, hId⟩
        rcases List.mem_cons.mp hMem with rfl | hMem
        · exact .here hId
        · exact .later hNext (ih.mpr ⟨hop, hMem, hId⟩)

/-- No chain comes back to where it started. -/
theorem Acyclic.not_meets_next (hAcyclic : t.Acyclic) (hNext : t.get? x.id = some next) :
    ¬ t.Meets x.id next := by
  obtain ⟨passed, w, hLeads⟩ := hAcyclic next
  rw [hAcyclic.meets_iff, hLeads.chain_eq]
  rintro ⟨hop, hMem, hId⟩
  rcases List.mem_append.mp hMem with hPassed | hEnd
  · have hNodup := (Leads.hop hNext hLeads).nodup_ids
    rw [List.map_cons, List.nodup_cons] at hNodup
    exact hNodup.1 (hId ▸ List.mem_map_of_mem hPassed)
  · have hRoot : t.get? hop.id = none := by
      rw [List.mem_singleton.mp hEnd]
      exact hLeads.unaliased
    rw [hId, hNext] at hRoot
    cases hRoot

/-- Skipping the first hop hides an identity only if that hop is where it is met, and then it is
not met again. -/
theorem Acyclic.meets_flatten_iff (hAcyclic : t.Acyclic) :
    t.Meets id (t.flatten x) ↔ t.Meets id x ∧ (id ≠ x.id ∨ t.get? id = none) := by
  cases hStored : t.get? x.id with
  | none =>
      rw [flatten_of_unaliased hStored]
      refine ⟨fun hMeets => ⟨hMeets, ?_⟩, And.left⟩
      by_cases hId : id = x.id
      · exact .inr (hId ▸ hStored)
      · exact .inl hId
  | some next =>
      rw [flatten_of_aliased hStored]
      constructor
      · intro hMeets
        refine ⟨.later hStored hMeets, .inl ?_⟩
        rintro rfl
        exact hAcyclic.not_meets_next hStored hMeets
      · rintro ⟨hMeets, hOther⟩
        cases hMeets with
        | here hId =>
            subst hId
            simp [hStored] at hOther
        | later hNext hLater =>
            rw [hStored] at hNext
            cases hNext
            exact hLater

section Insert

variable (hAcyclic : t.Acyclic) (hAvoid : ¬ t.Meets id stored)
include hAcyclic

/-- A value that does not lead to an identity does not notice where that one is redirected to. -/
theorem Acyclic.resolve_insert_of_not_meets (hMiss : ¬ t.Meets id x) :
    resolve (t.insert id stored) x = t.resolve x := by
  obtain ⟨passed, hLeads⟩ := hAcyclic.leads_resolve x
  rw [hAcyclic.meets_iff, hLeads.chain_eq] at hMiss
  have hAvoids : ∀ hop ∈ passed ++ [t.resolve x], hop.id ≠ id :=
    fun hop hMem hId => hMiss ⟨hop, hMem, hId⟩
  exact (hLeads.insert_of_avoids hAvoids).resolve_eq

include hAvoid

/-- Redirecting an identity to a value that does not lead back to it closes no circle. -/
theorem Acyclic.insert_of_not_meets : Acyclic (t.insert id stored) := by
  apply hAcyclic.insert
  intro hop hMem hId
  exact hAvoid (hAcyclic.meets_iff.mpr ⟨hop, hMem, hId⟩)

/-- A value that leads to an identity goes wherever that one is redirected to. -/
theorem Acyclic.resolve_insert_of_meets (hMeets : t.Meets id x) :
    resolve (t.insert id stored) x = t.resolve stored := by
  have hNext : Acyclic (t.insert id stored) := hAcyclic.insert_of_not_meets hAvoid
  have hEnd : resolve (t.insert id stored) stored = t.resolve stored :=
    hAcyclic.resolve_insert_of_not_meets hAvoid
  -- The old chain is followed to the first place where it meets `id`; what lies behind is left.
  have hHere : ∀ x : Value, x.id = id → resolve (t.insert id stored) x = t.resolve stored := by
    intro x hId
    rw [← hEnd]
    apply hNext.resolve_of_stored
    rw [Table.get?_insert, if_pos hId]
  induction hMeets with
  | here hId => exact hHere _ hId
  | @later x next hStored _ ih =>
      by_cases hId : x.id = id
      · exact hHere x hId
      · rw [← ih]
        apply hNext.resolve_of_stored
        rw [Table.get?_insert, if_neg hId, hStored]

end Insert

end Aliases

namespace Allocator

variable {σ κ : Type} {a : Allocator σ κ} {v t : Value}

/-- Which requests close a cycle. -/
theorem closesCycle_iff_meets (hAcyclic : a.aliases.Acyclic) :
    a.ClosesCycle v t ↔
      a.aliases.Meets v.id t ∧ (v.id ≠ t.id ∨ a.aliases.get? v.id = none) :=
  hAcyclic.meets_iff.symm.trans hAcyclic.meets_flatten_iff

variable [DecidableEq κ] [RegisterKind κ] [Target σ κ]

/-- The only errors of an accepted alias are refusals by the target, of what it releases. -/
theorem result_aliasTo (hOpen : ¬ a.ClosesCycle v t) :
    (aliasTo v t a).result = firstRefusal (aliasTo v t a).calls := by
  have hAlias := silent_aliasTo_of_accepted hOpen
  rw [Outcome.result_eq hAlias, Outcome.calls_eq hAlias]
  exact Supply.giveUpAll_result _ _

/-- An accepted alias removes the binding of its value and no other. -/
theorem bindings_aliasTo (hOpen : ¬ a.ClosesCycle v t) :
    (aliasTo v t a).state.bindings = a.bindings.erase v.id := by
  rw [Outcome.state_eq (silent_aliasTo_of_accepted hOpen)]
  rfl

/-- An alias moves a subtree. If the value `v` is not met on the way from `t`, which may be aliased
as `v` may be, then the alias of `v` to `t` is accepted, and it can only fail because the target
refuses a register that is released. In either case every value that led to `v`, and `v` itself,
resolves afterwards to what `t` resolved to before, and every other value to what it resolved to
before. No other identity has its stored target or its binding changed, and `v` has no binding. -/
theorem alias_reroots (target : σ) (options : Options) (commands : List (Command κ))
    (v t : Value) :
    let a : Allocator σ κ := (new target options).run commands
    let after := aliasTo v t a
    ¬ a.aliases.Meets v.id t →
    ¬ a.RefusesAlias v t ∧ after.result = firstRefusal after.calls ∧
    (∀ x, a.aliases.Meets v.id x → after.state.resolve x = a.resolve t) ∧
    (∀ x, ¬ a.aliases.Meets v.id x → after.state.resolve x = a.resolve x) ∧
    (∀ id, id ≠ v.id → after.state.aliases.get? id = a.aliases.get? id ∧
      after.state.bindings.get? id = a.bindings.get? id) ∧
    after.state.bindings.get? v.id = none := by
  intro a after hMiss
  have hAcyclic : a.aliases.Acyclic := (run_coherent target options commands).acyclic
  have hOpen : ¬ a.ClosesCycle v t :=
    fun hCycle => hMiss ((closesCycle_iff_meets hAcyclic).mp hCycle).1
  have hAvoid : ¬ a.aliases.Meets v.id (a.aliases.flatten t) :=
    fun hMeets => hMiss (hAcyclic.meets_flatten_iff.mp hMeets).1
  have hAliases : after.state.aliases = a.aliases.insert v.id (a.aliases.flatten t) :=
    aliases_aliasTo hOpen
  have hBindings : after.state.bindings = a.bindings.erase v.id := bindings_aliasTo hOpen
  refine ⟨mt refusesAlias_iff.mp hOpen, result_aliasTo hOpen, ?_, ?_, ?_, ?_⟩
  · intro x hMeets
    rw [resolve, resolve, hAliases, hAcyclic.resolve_insert_of_meets hAvoid hMeets]
    exact hAcyclic.resolve_flatten t
  · intro x hPast
    rw [resolve, resolve, hAliases]
    exact hAcyclic.resolve_insert_of_not_meets hPast
  · intro id hOther
    rw [hAliases, hBindings, Table.get?_insert, Table.get?_erase, if_neg hOther, if_neg hOther]
    exact ⟨rfl, rfl⟩
  · rw [hBindings, Table.get?_erase, if_pos rfl]

/-- The value has a register, which the target refuses to take back, and another value leads to it
over a third. It is aliased to a value that is aliased itself: the alias fails, and yet all three
resolve to the end of the new chain, and a bystander to what it did before. -/
theorem alias_reroots_past_refusal :
    let root : Value := ⟨0, .scalar .i32⟩
    let middle : Value := ⟨1, .scalar .i32⟩
    let low : Value := ⟨2, .scalar .i32⟩
    let near : Value := ⟨3, .scalar .f64⟩
    let far : Value := ⟨4, .scalar .f64⟩
    let bystander : Value := ⟨5, .scalar .i64⟩
    let commands : List (Command ScriptedKind) := [.request (.allocate root),
      .request (.aliasTo low middle), .request (.aliasTo middle root),
      .request (.aliasTo near far), .request (.allocate far), .request (.aliasTo bystander near)]
    let a : Allocator Scripted ScriptedKind :=
      (new (Scripted.new none [0] false) default).run commands
    let after := aliasTo root near a
    ¬ a.aliases.Meets root.id near ∧ after.result = .error (.invalidFree "Int#0") ∧
      after.result = firstRefusal after.calls ∧
      a.aliases.get? low.id = some middle ∧ a.aliases.get? middle.id = some root ∧
      after.state.resolve low = far ∧ after.state.resolve root = far ∧
      after.state.resolve bystander = a.resolve bystander ∧
      after.state.bindings.get? root.id = none ∧
      after.state.bindings.get? far.id = a.bindings.get? far.id := by
  intro root middle low near far bystander commands a after
  have hAcyclic : a.aliases.Acyclic := (run_coherent _ _ commands).acyclic
  have hMiss : ¬ a.aliases.Meets root.id near := by
    rw [hAcyclic.meets_iff]
    decide +kernel
  have hLow : a.aliases.get? low.id = some middle := by decide +kernel
  have hMiddle : a.aliases.get? middle.id = some root := by decide +kernel
  have hFar : a.resolve near = far := by decide +kernel
  obtain ⟨_, hResult, hMoved, hKept, hOthers, hGone⟩ :=
    alias_reroots (Scripted.new none [0] false) default commands root near hMiss
  have hPast : ¬ a.aliases.Meets root.id bystander := by
    rw [hAcyclic.meets_iff]
    decide +kernel
  have hRoot : after.state.bindings.get? root.id = none := by simpa only [after, a] using hGone
  have hHeld : after.state.bindings.get? far.id = a.bindings.get? far.id := by
    simpa only [after, a] using (hOthers far.id (by decide)).2
  exact ⟨hMiss, by decide +kernel, hResult, hLow, hMiddle,
    (hMoved low (.later hLow (.later hMiddle (.here rfl)))).trans hFar,
    (hMoved root (.here rfl)).trans hFar, hKept bystander hPast, hRoot, hHeld⟩

/-- Cyclic requests are refused, and a refusal changes nothing: not the tables, not the counters,
not the target, which is not even asked. This holds of every request to alias a value to one from
which it is met, unless both are the same value and it is aliased already. -/
theorem cyclic_alias_refused_iff (target : σ) (options : Options) (commands : List (Command κ))
    (v t : Value) :
    let a : Allocator σ κ := (new target options).run commands
    a.aliases.Meets v.id t →
    (aliasTo v t a =
        ⟨.error (.aliasCycle (ValueId.text v.id) (ValueId.text t.id)), a, [], []⟩ ↔
      v.id ≠ t.id ∨ a.aliases.get? v.id = none) := by
  intro a hMeets
  have hAcyclic : a.aliases.Acyclic := (run_coherent target options commands).acyclic
  have hCycle := closesCycle_iff_meets (v := v) (t := t) hAcyclic
  constructor
  · intro hRefused
    have hRefuses : a.RefusesAlias v t := by
      rw [RefusesAlias, hRefused]
      exact ⟨⟨_, _, rfl⟩, rfl⟩
    exact (hCycle.mp (refusesAlias_iff.mp hRefuses)).2
  · intro hOther
    exact aliasTo_of_cycle (hCycle.mpr ⟨hMeets, hOther⟩)

/-- The first of three values in a chain is to be aliased anew, to the last one that leads to it.
What would be stored is the value itself, which is aliased already. -/
theorem cyclic_alias_refused_iff_through_own_chain :
    let first : Value := ⟨0, .scalar .i32⟩
    let second : Value := ⟨1, .scalar .i32⟩
    let last : Value := ⟨2, .scalar .i32⟩
    let commands : List (Command VirtualKind) :=
      [.request (.aliasTo second first), .request (.aliasTo first last)]
    let a : Allocator Virtual VirtualKind := (new (Virtual.new .bits64) default).run commands
    a.aliases.Meets first.id second ∧ a.aliases.flatten second = first ∧
      a.aliases.get? first.id = some last ∧
      aliasTo first second a = ⟨.error (.aliasCycle "%0" "%1"), a, [], []⟩ := by
  intro first second last commands a
  have hStored : a.aliases.get? second.id = some first := by decide +kernel
  have hMeets : a.aliases.Meets first.id second := .later hStored (.here rfl)
  have hRefused :=
    (cyclic_alias_refused_iff (Virtual.new .bits64) default commands first second hMeets).mpr
      (.inl (by decide))
  have hFirst : ValueId.text first.id = "%0" := by decide +kernel
  have hSecond : ValueId.text second.id = "%1" := by decide +kernel
  rw [hFirst, hSecond] at hRefused
  exact ⟨hMeets, by decide +kernel, by decide +kernel, hRefused⟩

/-- A value that is aliased can be aliased to itself: what is stored is the target that it has, on
whose chain it is not met. Both tables stay as they are, but the request succeeds and is counted. -/
theorem self_alias_accepted_when_aliased :
    let v : Value := ⟨0, .scalar .i32⟩
    let w : Value := ⟨1, .scalar .i32⟩
    let a : Allocator Virtual VirtualKind :=
      (new (Virtual.new .bits64) default).run [.request (.aliasTo v w)]
    let after := aliasTo v v a
    a.aliases.Meets v.id v ∧ after.result = .ok () ∧ ¬ a.RefusesAlias v v ∧
      a.stats.aliases = 1 ∧ after.state.stats.aliases = 2 ∧
      after.state.aliases.rows = a.aliases.rows := by
  intro v w a after
  have hResult : after.result = .ok () := by decide +kernel
  have hAccepted : ¬ a.RefusesAlias v v := by
    rintro ⟨⟨name, goal, hRefused⟩, _⟩
    rw [show (aliasTo v v a).result = .ok () from hResult] at hRefused
    cases hRefused
  exact ⟨.here rfl, hResult, hAccepted, by decide +kernel, by decide +kernel, by decide +kernel⟩

end Allocator

end RegisterAssignment
