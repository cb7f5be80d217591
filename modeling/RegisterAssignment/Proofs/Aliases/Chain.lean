import Mathlib.Data.List.Perm.Subperm
import RegisterAssignment.Aliases

/-! Chains of aliases as paths in the graph of stored targets. A table is acyclic if every chain
ends. Nothing here depends on how the table came about. -/

namespace RegisterAssignment.Aliases

variable {t : Aliases} {u v w w' : Value} {passed passed' : List Value}

/-- Following stored targets from `v` passes through the aliased values `passed`, in this order,
and ends in the unaliased value `w`. The number of hops is the length of `passed`. -/
inductive Leads (t : Aliases) : Value → List Value → Value → Prop where
  | root {v : Value} (hRoot : t.get? v.id = none) : Leads t v [] v
  | hop {v next w : Value} {passed : List Value} (hNext : t.get? v.id = some next)
      (rest : Leads t next passed w) : Leads t v (v :: passed) w

/-- Every chain of stored targets ends. -/
def Acyclic (t : Aliases) : Prop := ∀ v, ∃ passed w, t.Leads v passed w

/-- The loop that follows a chain to its end, cut off after a number of rounds. There is no result
if it has not stopped by then. -/
def followLoop (t : Aliases) : Nat → Value → Option Value
  | 0, _ => none
  | rounds + 1, current =>
    match t.get? current.id with
    | some target => followLoop t rounds target
    | none => some current

/-- The loop that looks for an identity on a chain, cut off after a number of rounds. It stops with
nothing where it meets the identity, and otherwise with the end of the chain. -/
def meetLoop (t : Aliases) (id : ValueId) : Nat → Value → Option (Option Value)
  | 0, _ => none
  | rounds + 1, hop =>
    if hop.id = id then some none
    else match t.get? hop.id with
      | some next => meetLoop t id rounds next
      | none => some (some hop)

/-- A chain ends where nothing is stored. -/
theorem Leads.unaliased (h : t.Leads v passed w) : t.get? w.id = none := by
  induction h with
  | root hRoot => exact hRoot
  | hop _ _ ih => exact ih

/-- Each value has one stored target at most, so there is one way to follow its chain. -/
theorem Leads.functional (h : t.Leads v passed w) (h' : t.Leads v passed' w') :
    passed = passed' ∧ w = w' := by
  induction h generalizing passed' with
  | root hRoot =>
      cases h' with
      | root _ => exact ⟨rfl, rfl⟩
      | hop hNext _ => simp [hRoot] at hNext
  | hop hNext rest ih =>
      cases h' with
      | root hRoot => simp [hNext] at hRoot
      | hop hNext' rest' =>
          rw [hNext] at hNext'
          cases hNext'
          obtain ⟨hPassed, hEnd⟩ := ih rest'
          exact ⟨by rw [hPassed], hEnd⟩

/-- An aliased value that is passed has the rest of the chain before it. -/
theorem Leads.from_passed (h : t.Leads v passed w) (hu : u ∈ passed) :
    ∃ next later, t.get? u.id = some next ∧ t.Leads next later w ∧
      later.length < passed.length := by
  induction h with
  | root _ => cases hu
  | @hop v next w passed hNext rest ih =>
      rcases List.mem_cons.mp hu with rfl | hu
      · exact ⟨next, passed, hNext, rest, by simp⟩
      · obtain ⟨next', later, hNext', hLater, hLength⟩ := ih hu
        refine ⟨next', later, hNext', hLater, ?_⟩
        simp only [List.length_cons]
        omega

/-- No identity is passed twice: the rest of the chain is determined by the identity, so it would
have to be shorter than itself. -/
theorem Leads.nodup_ids (h : t.Leads v passed w) : (passed.map Value.id).Nodup := by
  induction h with
  | root _ => simp
  | @hop v next w passed hNext rest ih =>
      rw [List.map_cons, List.nodup_cons]
      refine ⟨?_, ih⟩
      intro hMem
      obtain ⟨u, hu, hId⟩ := List.mem_map.mp hMem
      obtain ⟨next', later, hNext', hLater, hLength⟩ := rest.from_passed hu
      rw [hId, hNext] at hNext'
      cases hNext'
      obtain ⟨hSame, _⟩ := rest.functional hLater
      rw [hSame] at hLength
      exact Nat.lt_irrefl _ hLength

/-- A chain has at most as many hops as there are aliases. -/
theorem Leads.length_le (h : t.Leads v passed w) : passed.length ≤ t.size := by
  have hKeys : passed.map Value.id ⊆ t.rows.map Prod.fst := by
    intro id hId
    obtain ⟨u, hu, rfl⟩ := List.mem_map.mp hId
    obtain ⟨next, _, hNext, _⟩ := h.from_passed hu
    exact List.mem_map.mpr ⟨(u.id, next), Table.get?_eq_some_iff.mp hNext, rfl⟩
  have hLength := (h.nodup_ids.subperm hKeys).length_le
  simpa [Table.size] using hLength

/-- Enough hops show the whole chain. -/
theorem Leads.chainWithin_eq (h : t.Leads v passed w) {hops : Nat} (hHops : passed.length ≤ hops) :
    t.chainWithin hops v = passed ++ [w] := by
  induction h generalizing hops with
  | @root v hRoot =>
      cases hops with
      | zero => rfl
      | succ hops => simp [chainWithin, hRoot]
  | @hop v next w passed hNext rest ih =>
      cases hops with
      | zero => simp at hHops
      | succ hops =>
          have hRest : passed.length ≤ hops := by simpa using hHops
          simp [chainWithin, hNext, ih hRest]

/-- The bound in the definition of a chain is never what ends it. -/
theorem Leads.chain_eq (h : t.Leads v passed w) : t.chain v = passed ++ [w] :=
  h.chainWithin_eq h.length_le

/-- A value resolves to the end of its chain. -/
theorem Leads.resolve_eq (h : t.Leads v passed w) : t.resolve v = w := by
  rw [resolve, h.chain_eq]
  simp

/-- The unbounded search for the end stops there after as many rounds as there are hops. -/
theorem Leads.followLoop_eq (h : t.Leads v passed w) {rounds : Nat}
    (hRounds : passed.length < rounds) : t.followLoop rounds v = some w := by
  induction h generalizing rounds with
  | @root v hRoot =>
      cases rounds with
      | zero => simp at hRounds
      | succ rounds => rw [followLoop, hRoot]
  | @hop v next w passed hNext rest ih =>
      cases rounds with
      | zero => simp at hRounds
      | succ rounds =>
          rw [followLoop, hNext]
          exact ih (by simpa using hRounds)

/-- The unbounded search for a cycle stops as well, with the answer that the chain gives. -/
theorem Leads.meetLoop_eq (h : t.Leads v passed w) (id : ValueId) {rounds : Nat}
    (hRounds : passed.length < rounds) :
    t.meetLoop id rounds v =
      some (if (t.chain v).any (fun hop => hop.id == id) then none else some (t.resolve v)) := by
  rw [h.chain_eq, h.resolve_eq]
  induction h generalizing rounds with
  | @root v hRoot =>
      cases rounds with
      | zero => simp at hRounds
      | succ rounds =>
          rw [meetLoop, hRoot]
          by_cases hId : v.id = id <;> simp [hId]
  | @hop v next w passed hNext rest ih =>
      cases rounds with
      | zero => simp at hRounds
      | succ rounds =>
          have hRest : passed.length < rounds := by simpa using hRounds
          rw [meetLoop, hNext]
          by_cases hId : v.id = id
          · simp [hId]
          · simpa [hId] using ih hRest

/-- The end of a chain is on the chain. -/
theorem resolve_mem_chain (t : Aliases) (v : Value) : t.resolve v ∈ t.chain v := by
  have hNonempty : t.chain v ≠ [] := by
    rw [chain]
    cases t.size with
    | zero => simp [chainWithin]
    | succ hops =>
        rw [chainWithin]
        split <;> simp
  rw [resolve, List.getLastD_eq_getLast?, List.getLast?_eq_some_getLast hNonempty]
  exact List.getLast_mem hNonempty

/-- If no chain runs in a circle, every value is led to what it resolves to. -/
theorem Acyclic.leads_resolve (hAcyclic : t.Acyclic) (v : Value) :
    ∃ passed, t.Leads v passed (t.resolve v) := by
  obtain ⟨passed, w, h⟩ := hAcyclic v
  exact ⟨passed, h.resolve_eq ▸ h⟩

/-- In an acyclic table the value that a value resolves to is unaliased. -/
theorem Acyclic.resolve_unaliased (hAcyclic : t.Acyclic) (v : Value) :
    t.get? (t.resolve v).id = none := by
  obtain ⟨_, h⟩ := hAcyclic.leads_resolve v
  exact h.unaliased

theorem acyclic_empty : Acyclic Table.empty :=
  fun v => ⟨[], v, .root (Table.get?_empty v.id)⟩

/-- A chain that does not meet an identity is the same after that identity is aliased anew. -/
theorem Leads.insert_of_avoids (h : t.Leads v passed w) {id : ValueId} {stored : Value}
    (hAvoid : ∀ hop ∈ passed ++ [w], hop.id ≠ id) :
    Leads (t.insert id stored) v passed w := by
  induction h with
  | @root v hRoot =>
      have hId : v.id ≠ id := hAvoid v (by simp)
      exact .root (by rw [Table.get?_insert, if_neg hId, hRoot])
  | @hop v next w passed hNext rest ih =>
      have hId : v.id ≠ id := hAvoid v (by simp)
      refine .hop (by rw [Table.get?_insert, if_neg hId, hNext]) (ih ?_)
      intro hop hMem
      exact hAvoid hop (List.mem_cons_of_mem _ hMem)

/-- An alias closes no cycle if its identity is not met on the chain of the stored target. The
identity may be aliased already, and may be passed by any number of other chains. -/
theorem Acyclic.insert (hAcyclic : t.Acyclic) {id : ValueId} {stored : Value}
    (hAvoid : ∀ hop ∈ t.chain stored, hop.id ≠ id) : Acyclic (t.insert id stored) := by
  obtain ⟨ahead, root, hAhead⟩ := hAcyclic stored
  rw [hAhead.chain_eq] at hAvoid
  have hStored : Leads (t.insert id stored) stored ahead root := hAhead.insert_of_avoids hAvoid
  intro v
  obtain ⟨passed, w, h⟩ := hAcyclic v
  -- The old chain is followed up to the first place where it meets `id`, from there the new one.
  induction h with
  | @root v hRoot =>
      by_cases hId : v.id = id
      · exact ⟨_, _, .hop (by rw [Table.get?_insert, if_pos hId]) hStored⟩
      · exact ⟨_, _, .root (by rw [Table.get?_insert, if_neg hId, hRoot])⟩
  | @hop v next w passed hNext _ ih =>
      by_cases hId : v.id = id
      · exact ⟨_, _, .hop (by rw [Table.get?_insert, if_pos hId]) hStored⟩
      · obtain ⟨later, w', hLater⟩ := ih
        exact ⟨_, _, .hop (by rw [Table.get?_insert, if_neg hId, hNext]) hLater⟩

end RegisterAssignment.Aliases
