import RegisterAssignment.Proofs.Allocator.Access
import RegisterAssignment.Proofs.Allocator.Freeing
import RegisterAssignment.Proofs.Independence.Runs
import RegisterAssignment.Target.Scripted

/-! A reset is a sequence of releases. It does what a client would do that frees the bound values
one by one, in ascending order of their identities and whatever goes wrong on the way. The order in
which values came to be bound has no influence: there is one way to sort them. -/

namespace RegisterAssignment

variable {σ κ : Type}

/-- Among all calls, the first refusal is that of the earlier ones, if they have one. -/
theorem firstRefusal_append (calls calls' : List (Call κ)) :
    firstRefusal (calls ++ calls') = firstRefusal calls >>= fun _ => firstRefusal calls' := by
  rw [firstRefusal, List.findSome?_append, firstRefusal]
  cases calls.findSome? Call.refusal? with
  | none => rfl
  | some e => rfl

/-- Offering registers in two parts is offering them one after the other. -/
theorem Supply.offered_append [Target σ κ] (s : Supply σ) (leaves leaves' : List (Hardware κ)) :
    s.offered (leaves ++ leaves') = (s.offered leaves).offered leaves' := by
  rw [← giveUpAll_state, giveUpAll_append]
  change (giveUpAll leaves' (giveUpAll leaves s).state).state = _
  rw [giveUpAll_state, giveUpAll_state]

/-- What offering registers does to the counters is a matter of the target and of the counters. -/
theorem Supply.offered_stats_congr [Target σ κ] {s s' : Supply σ} (hTarget : s.target = s'.target)
    (hCounting : s.counting = s'.counting) (hStats : s.stats = s'.stats)
    (leaves : List (Hardware κ)) : (s.offered leaves).stats = (s'.offered leaves).stats := by
  rw [offered, offered, hTarget, hCounting, hStats]

/-- The first error among outcomes, if there is one. -/
def firstError {s α : Type} (ends : List (Outcome s κ α)) : Except Error Unit :=
  ends.forM fun o => o.result.map fun _ => ()

theorem firstError_cons {s α : Type} (o : Outcome s κ α) (rest : List (Outcome s κ α)) :
    firstError (o :: rest) = o.result.map (fun _ => ()) >>= fun _ => firstError rest := rfl

namespace Allocator

variable {a : Allocator σ κ} {v : Value} {held : Binding κ}

section Reset

variable [RegisterKind κ] [Target σ κ]

/-- Freeing a value that is bound itself. -/
theorem Coherent.frees_of_bound (h : a.Coherent) (hHeld : a.bindings.get? v.id = some held) :
    Frees { a with bindings := a.bindings.erase v.id } held.register.leaves (free v a) := by
  have hFree := silent_free_of_bound (h.binding?_of_bound hHeld)
  rw [h.resolve_of_bound hHeld] at hFree
  exact frees_of_giveUpAll hFree

end Reset

variable [DecidableEq κ] [RegisterKind κ] [Target σ κ]

theorem serve_free (v : Value) (a : Allocator σ κ) :
    serve (.free v) a = (free v a).map fun _ => .done :=
  Action.map_apply _ _ a

/-- Requests that together offer these target registers, and do nothing else to the supply. -/
structure Offering (a : Allocator σ κ) (requests : List Request) (leaves : List (Hardware κ)) :
    Prop where
  calls : (a.served requests).flatMap Outcome.calls = offers a.target leaves
  error : firstError (a.served requests) = firstRefusal (offers a.target leaves)
  supply : (a.run (requests.map .request)).supply = a.supply.offered leaves

theorem offering_nil (a : Allocator σ κ) : a.Offering [] [] where
  calls := rfl
  error := rfl
  supply := Supply.giveUpAll_state [] a.supply

/-- One value is freed, and then come the others. -/
theorem Offering.cons {requests : List Request} {leaves leaves' : List (Hardware κ)}
    {bindings : Table (Binding κ)} (hFree : Frees { a with bindings := bindings } leaves (free v a))
    (hRest : (free v a).state.Offering requests leaves') :
    a.Offering (.free v :: requests) (leaves ++ leaves') := by
  have hServed : a.served (.free v :: requests) =
      (free v a).map (fun _ => .done) :: (free v a).state.served requests := by
    rw [served, serve_free]
    rfl
  have hTarget : (free v a).state.target = afterOffers a.target leaves := hFree.target
  constructor
  · rw [hServed, List.flatMap_cons, hRest.calls, hTarget, offers_append]
    exact congrArg (· ++ _) hFree.calls
  · have hFirst : ((free v a).map fun _ => Answer.done (κ := κ)).result.map (fun _ => ()) =
        firstRefusal (offers a.target leaves) := by
      have hResult : (free v a).result = firstRefusal (offers a.target leaves) := by
        rw [hFree.result, hFree.calls]
        rfl
      rw [← hResult, Outcome.map]
      cases (free v a).result <;> rfl
    rw [hServed, firstError_cons, hFirst, hRest.error, hTarget, offers_append, firstRefusal_append]
  · have hSupply : (free v a).state.supply = a.supply.offered leaves := by rw [hFree.state]
    rw [List.map_cons, run_cons, perform, serve_free, Supply.offered_append, ← hSupply]
    exact hRest.supply

/-- Freeing the values of all rows from the first to the last offers everything that is held. -/
theorem Coherent.offering {values : List Value} (h : a.Coherent)
    (hRows : values.map Value.id = a.bindings.rows.map Prod.fst) :
    a.Offering (values.map .free) a.bindings.leaves := by
  induction values generalizing a with
  | nil =>
      have hEmpty : a.bindings.rows = [] := by simpa using hRows.symm
      rw [Table.leaves, hEmpty]
      exact offering_nil a
  | cons v rest ih =>
      cases hFirst : a.bindings.rows with
      | nil => simp [hFirst] at hRows
      | cons row rows =>
          obtain ⟨id, held⟩ := row
          rw [hFirst, List.map_cons, List.map_cons, List.cons.injEq] at hRows
          obtain ⟨rfl, hRest⟩ := hRows
          have hErased : (a.bindings.erase v.id).rows = rows := Table.rows_erase_first hFirst
          have hHeld : a.bindings.get? v.id = some held := by
            apply Table.get?_eq_some_iff.mpr
            rw [hFirst]
            exact List.mem_cons_self
          have hFree := h.frees_of_bound hHeld
          have hNext : (free v a).state.Coherent := by
            have hStep := (serve_step (.free v) a).tables.coherent h
            rwa [serve_free] at hStep
          have hLater : (free v a).state.bindings = a.bindings.erase v.id := by rw [hFree.state]
          have hLeaves : a.bindings.leaves =
              held.register.leaves ++ (free v a).state.bindings.leaves := by
            rw [Table.leaves, hFirst, List.flatMap_cons, hLater, Table.leaves, hErased]
          rw [List.map_cons, hLeaves]
          apply Offering.cons hFree
          apply ih hNext
          rw [hLater, hErased, hRest]

omit [DecidableEq κ] in
/-- In whatever order the bindings are taken from the table, sorting them by identity gives what a
reset goes through. -/
theorem reset_of_enumerates {listing : List (ValueId × Binding κ)}
    (h : a.bindings.Enumerates listing) :
    reset a = releaseRows (listing.mergeSort Table.byId)
      { a with bindings := .empty, aliases := .empty } := by
  rw [h.mergeSort_eq, reset_apply]

/-- A reset frees everything in order. It takes the bindings as any enumeration gives them and goes
through them sorted by identity. Take a value of each bound identity, in ascending order: on any
target, whatever it refuses, a reset makes the calls that freeing these values one after the other
makes, returns the first error of that sequence if there is one, and leaves the supply, target and
counters included, as the sequence leaves it. Both tables are empty afterwards, also after an error.
All this depends on which identity is bound to which register and on nothing else in the tables. -/
theorem reset_frees_in_order (target : σ) (options : Options) (commands : List (Command κ)) :
    let a : Allocator σ κ := (new target options).run commands
    (∀ listing, a.bindings.Enumerates listing →
      reset a = releaseRows (listing.mergeSort Table.byId)
        { a with bindings := .empty, aliases := .empty }) ∧
    (∀ values : List Value, (values.map Value.id).Pairwise (· < ·) →
      (∀ id, id ∈ values.map Value.id ↔ (a.bindings.get? id).isSome = true) →
      let frees := values.map Request.free
      (reset a).calls = (a.served frees).flatMap Outcome.calls ∧
      (reset a).result = firstError (a.served frees) ∧
      (reset a).state.supply = (a.run (frees.map .request)).supply) ∧
    (reset a).state.bindings = .empty ∧ (reset a).state.aliases = .empty ∧
    ∀ b : Allocator σ κ, b.target = a.target → b.stats = a.stats →
      b.supply.counting = a.supply.counting →
      (∀ id, (b.bindings.get? id).map Binding.register =
        (a.bindings.get? id).map Binding.register) →
      (reset b).calls = (reset a).calls ∧ (reset b).result = (reset a).result ∧
      (reset b).state.target = (reset a).state.target ∧
      (reset b).state.stats = (reset a).state.stats := by
  intro a
  have hCoherent : a.Coherent := run_coherent target options commands
  have hReset := frees_reset a
  refine ⟨fun _ => reset_of_enumerates, ?_, ?_, ?_, ?_⟩
  · intro values hAscending hListed frees
    have hOffering : a.Offering frees a.bindings.leaves :=
      hCoherent.offering (Table.eq_map_fst_rows hAscending hListed)
    refine ⟨hReset.calls.trans hOffering.calls.symm, ?_, ?_⟩
    · rw [hReset.result, hReset.calls]
      exact hOffering.error.symm
    · rw [hReset.state]
      exact hOffering.supply.symm
  · rw [hReset.state]
  · rw [hReset.state]
  · intro b hTarget hStats hCounting hSame
    have hOther := frees_reset b
    rw [Table.leaves_congr hSame] at hOther
    have hCalls : (reset b).calls = (reset a).calls := by
      rw [hOther.calls, hReset.calls]
      exact congrArg (offers · _) hTarget
    refine ⟨hCalls, by rw [hOther.result, hReset.result, hCalls], ?_, ?_⟩
    · rw [hOther.target, hReset.target]
      exact congrArg (afterOffers · _) hTarget
    · rw [hOther.state, hReset.state]
      exact Supply.offered_stats_congr hTarget hCounting hStats _

/-- Three values are bound in an order that is not that of their identities, two of them to
registers with a common leaf, which the target refuses both times. The reset goes on, returns the
first refusal, and does what freeing the three does, also if it is given the bindings backwards. So
does the reset of an allocator whose values were bound in another order and one of them through an
alias. -/
theorem reset_frees_in_order_past_refusals :
    let int (index : Nat) : Register ScriptedKind :=
      .hardware (.supplied index) ⟨⟨.scalar .i32, some .i32, .int⟩, index⟩
    let pair : Register ScriptedKind :=
      .compound (.supplied 9) [.scalar .i32, .scalar .i32] [int 3, int 1]
    let two : Value := ⟨2, .scalar .i32⟩
    let five : Value := ⟨5, .scalar .i32⟩
    let seven : Value := ⟨7, pair.ty⟩
    let other : Value := ⟨11, pair.ty⟩
    let start : Allocator Scripted ScriptedKind := new (Scripted.new none [1] false) default
    let commands : List (Command ScriptedKind) := [.bindTo seven pair, .bindTo two (int 4),
      .bindTo five (int 1), .request (.aliasTo other seven)]
    let a := start.run commands
    let b := start.run [.request (.aliasTo other seven), .bindTo five (int 1), .bindTo other pair,
      .bindTo two (int 4)]
    let values := [two, five, seven]
    let frees := values.map Request.free
    reset a = releaseRows (a.bindings.rows.reverse.mergeSort Table.byId)
        { a with bindings := .empty, aliases := .empty } ∧
      (values.map Value.id).Pairwise (· < ·) ∧
      (∀ id, id ∈ values.map Value.id ↔ (a.bindings.get? id).isSome = true) ∧
      (reset a).calls = (a.served frees).flatMap Outcome.calls ∧
      (reset a).result = firstError (a.served frees) ∧
      (reset a).result = .error (.invalidFree "Int#1") ∧
      (reset a).state.target.freed = [4, 3] ∧
      (reset b).calls = (reset a).calls ∧ (reset b).result = .error (.invalidFree "Int#1") := by
  intro int pair two five seven other start commands a b values frees
  have hAscending : (values.map Value.id).Pairwise (· < ·) := by decide
  have hKeys : values.map Value.id = a.bindings.rows.map Prod.fst := by decide +kernel
  have hListed : ∀ id, id ∈ values.map Value.id ↔ (a.bindings.get? id).isSome = true := by
    intro id
    rw [Table.isSome_get?_iff, hKeys]
  have hRegisters : (b.bindings.map Binding.register).rows =
      (a.bindings.map Binding.register).rows := by decide +kernel
  have hSame : ∀ id, (b.bindings.get? id).map Binding.register =
      (a.bindings.get? id).map Binding.register := by
    intro id
    rw [← Table.get?_map, ← Table.get?_map]
    exact congrArg (Table.findRow id) hRegisters
  obtain ⟨hSorted, hFrees, _, _, hMaps⟩ :=
    reset_frees_in_order (Scripted.new none [1] false) default commands
  obtain ⟨hCalls, hResult, _⟩ := hFrees values hAscending hListed
  obtain ⟨hCalls', hResult', _⟩ :=
    hMaps b (by decide +kernel) (by decide +kernel) (by decide +kernel) hSame
  have hRefused : (reset a).result = .error (.invalidFree "Int#1") := by decide +kernel
  have hReversed : a.bindings.Enumerates a.bindings.rows.reverse :=
    Table.enumerates_iff_perm.mpr (List.reverse_perm _)
  exact ⟨hSorted _ hReversed, hAscending, hListed, hCalls, hResult, hRefused, by decide +kernel,
    hCalls', hResult'.trans hRefused⟩

end Allocator

end RegisterAssignment
