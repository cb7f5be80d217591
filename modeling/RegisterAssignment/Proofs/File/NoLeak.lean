import RegisterAssignment.Proofs.File.Ownership

/-! No register of a register file is lost as long as bindings may not be replaced. Clients may
bind registers of their own making and bind one register twice, so registers can be given back more
than once and the target may refuse them; but what is in use is always held by some binding, and a
reset finds it. -/

namespace RegisterAssignment.Allocator

variable {a b : Allocator File FileKind} {v target : Value} {register : Register FileKind}

/-- Bindings are not replaced, and every target register in use is a leaf of one of them. -/
structure Covers (a : Allocator File FileKind) : Prop where
  deny : a.rebind = .deny
  held : ∀ slot, a.target.InUse slot → slot ∈ slots a.bindings.leaves

theorem covers_new (config : FileConfig) (collectStats : Bool) :
    (new (File.new config) ⟨.deny, collectStats⟩ : Allocator File FileKind).Covers where
  deny := rfl
  held slot hUsed := absurd hUsed (File.not_inUse_new config slot)

/-- A register is bound as soon as it is made, or nothing of it stays in use. -/
theorem Covers.settle {made : Outcome (Supply File) FileKind (Register FileKind)} (h : a.Covers)
    (hUnbound : a.binding? v = none) (hMakes : Supply.Makes a.supply made) :
    (a.settle (a.resolve v).id v made).state.Covers := by
  rw [Allocator.settle]
  cases hResult : made.result with
  | error e =>
      refine ⟨h.deny, ?_⟩
      intro slot hUsed
      exact h.held slot ((hMakes.inUse e hResult slot).mp hUsed)
  | ok register =>
      refine ⟨h.deny, ?_⟩
      intro slot hUsed
      have hPerm := (Table.leaves_insert hUnbound ⟨v, register⟩).map Hardware.slot
      apply hPerm.mem_iff.mpr
      rw [List.map_append, List.mem_append]
      rcases ((hMakes.takes register hResult).inUse slot).mp hUsed with hOld | hNew
      · exact .inr (h.held slot hOld)
      · exact .inl hNew

/-- Giving leaves up, no matter whether the target takes them, if no others were taken out of the
bindings before. -/
theorem Covers.releasing {leaves : List (Hardware FileKind)} (h : a.Covers)
    (hTarget : b.target = a.target) (hRebind : b.rebind = a.rebind)
    (hKept : ∀ leaf ∈ a.bindings.leaves, leaf ∈ leaves ∨ leaf ∈ b.bindings.leaves) :
    (b.releasing leaves).state.Covers := by
  refine ⟨hRebind.trans h.deny, ?_⟩
  intro slot hUsed
  obtain ⟨hBefore, hOther⟩ := (Supply.giveUpAll_inUse leaves b.supply slot).mp hUsed
  change b.target.InUse slot at hBefore
  rw [hTarget] at hBefore
  obtain ⟨leaf, hLeaf, rfl⟩ := List.mem_map.mp (h.held slot hBefore)
  rcases hKept leaf hLeaf with hGone | hStill
  · exact absurd (List.mem_map_of_mem hGone) hOther
  · exact List.mem_map_of_mem hStill

/-- What an alias does not release is held by a binding that remains. -/
theorem mem_shadowed_or (hOpen : ¬ a.ClosesCycle v target) {leaf : Hardware FileKind}
    (hLeaf : leaf ∈ a.bindings.leaves) :
    leaf ∈ a.shadowed v target ∨ leaf ∈ (a.bindings.erase v.id).leaves := by
  rw [shadowed]
  cases hDropped : a.bindings.get? v.id with
  | none =>
      rw [Table.erase_of_absent hDropped]
      exact .inr hLeaf
  | some dropped =>
      rcases List.mem_append.mp ((Table.leaves_erase hDropped).mem_iff.mp hLeaf) with hOwn | hRest
      · dsimp only
        split
        next hShared => exact .inr (mem_leaves_erase_of_shared hOpen hShared hOwn)
        next => exact .inl hOwn
      · exact .inr hRest

/-- Under the policy an accepted binding replaces no register, so no leaf is lost. -/
theorem Covers.mem_leaves_insert (h : a.Covers) (hAccepted : ¬ a.RefusesBind v register)
    {leaf : Hardware FileKind} (hLeaf : leaf ∈ a.bindings.leaves) :
    leaf ∈ (a.bindings.insert (a.resolve v).id ⟨v, register⟩).leaves := by
  obtain ⟨id, held, hHeld, hMem⟩ := Table.mem_leaves.mp hLeaf
  apply Table.mem_leaves.mpr
  by_cases hRoot : id = (a.resolve v).id
  · have hSame : held.register = register := by
      by_contra hOther
      exact hAccepted ⟨h.deny, held, by rw [binding?, ← hRoot, hHeld], hOther⟩
    refine ⟨id, ⟨v, register⟩, ?_, hSame ▸ hMem⟩
    rw [Table.get?_insert, if_pos hRoot]
  · refine ⟨id, held, ?_, hMem⟩
    rw [Table.get?_insert, if_neg hRoot, hHeld]

/-- No command that manages its registers leaves one in use that no binding holds. -/
theorem Step.covers {c : Command FileKind}
    {o : Outcome (Allocator File FileKind) FileKind (Answer FileKind)} (hStep : Step a c o)
    (h : a.Covers) (hManaged : c.managed = true) : o.state.Covers := by
  cases hStep with
  | answered _ => exact h
  | made hMaking hUnbound => exact h.settle hUnbound (hMaking.makes _)
  | aliased hOpen =>
      refine h.releasing (Supply.tally_target _ _) rfl ?_
      intro leaf hLeaf
      exact mem_shadowed_or hOpen hLeaf
  | freed hBound =>
      refine h.releasing rfl rfl ?_
      intro leaf hLeaf
      exact List.mem_append.mp ((Table.leaves_erase hBound).mem_iff.mp hLeaf)
  | cleared => exact h.releasing rfl rfl fun leaf hLeaf => .inl hLeaf
  | bound hAccepted =>
      refine ⟨h.deny, ?_⟩
      intro slot hUsed
      rw [target, Supply.tally_target] at hUsed
      obtain ⟨leaf, hLeaf, rfl⟩ := List.mem_map.mp (h.held slot hUsed)
      exact List.mem_map_of_mem (h.mem_leaves_insert hAccepted hLeaf)
  | released _ => exact h.releasing rfl rfl fun leaf hLeaf => .inr hLeaf
  | placed _ | described _ | taken _ | givenBack _ => cases hManaged

/-- At every moment each register in use can be found through a binding. -/
theorem run_covers (config : FileConfig) (collectStats : Bool) {commands : List (Command FileKind)}
    (hManaged : ∀ c ∈ commands, c.managed = true) :
    ((new (File.new config) ⟨.deny, collectStats⟩ : Allocator File FileKind).run
      commands).Covers := by
  refine run_keeps ?_ (covers_new config collectStats)
  intro c hMem b o hStep hCovers
  exact hStep.covers hCovers (hManaged c hMem)

/-- A reset gives up every leaf that is held, and refused ones are not in use anyway. -/
theorem Covers.reset_inUse (h : a.Covers) (slot : FileKind × Nat) :
    ¬ (reset a).state.target.InUse slot := by
  rw [Outcome.state_eq (silent_reset a)]
  intro hUsed
  obtain ⟨hBefore, hOther⟩ := (Supply.giveUpAll_inUse a.bindings.leaves a.supply slot).mp hUsed
  exact hOther (h.held slot hBefore)

/-- No leak while replacing is denied. After any commands that go through the bindings, with
registers of the client's own making or bound twice and with refused releases, each register in use
is a leaf of some binding; so a reset, whatever it returns, leaves both tables empty and nothing in
use. -/
theorem deny_leaks_nothing (config : FileConfig) (collectStats : Bool)
    (commands : List (Command FileKind)) (hManaged : ∀ c ∈ commands, c.managed = true) :
    let a : Allocator File FileKind :=
      (new (File.new config) ⟨.deny, collectStats⟩).run commands
    (∀ slot, a.target.InUse slot → ∃ id held, a.bindings.get? id = some held ∧
      ∃ leaf ∈ held.register.leaves, leaf.slot = slot) ∧
    (reset a).state.bindings = .empty ∧ (reset a).state.aliases = .empty ∧
    (∀ slot, ¬ (reset a).state.target.InUse slot) ∧
    ∀ kind, ((reset a).state.target.pool kind).inUse = 0 := by
  intro a
  have hCovers : a.Covers := run_covers config collectStats hManaged
  refine ⟨?_, ?_, ?_, hCovers.reset_inUse, ?_⟩
  · intro slot hUsed
    obtain ⟨leaf, hLeaf, hSlot⟩ := List.mem_map.mp (hCovers.held slot hUsed)
    obtain ⟨id, held, hHeld, hMem⟩ := Table.mem_leaves.mp hLeaf
    exact ⟨id, held, hHeld, leaf, hMem, hSlot⟩
  · rw [Outcome.state_eq (silent_reset a)]
    rfl
  · rw [Outcome.state_eq (silent_reset a)]
    rfl
  · intro kind
    apply Pool.inUse_eq_length List.nodup_nil
    intro i
    exact iff_of_false List.not_mem_nil (hCovers.reset_inUse (kind, i))

/-- One register is bound to two values, released while it is bound, and handed out again to a
third, and a structure of the client's own holds it once more beside a register that does not
exist. The reset is refused some of them, and still leaves nothing in use. -/
theorem deny_leaks_nothing_when_refused :
    let first : Value := ⟨0, .scalar .i32⟩
    let second : Value := ⟨1, .scalar .i32⟩
    let third : Value := ⟨2, .scalar .i32⟩
    let fourth : Value := ⟨3, .struct [.scalar .i32, .scalar .i32]⟩
    let general : Descriptor FileKind := ⟨.scalar .i32, some .i32, .general⟩
    let shared : Register FileKind := .hardware (.allocated 0) ⟨general, 0⟩
    let stray : Register FileKind := .hardware (.supplied 0) ⟨general, 7⟩
    let pair : Register FileKind :=
      .compound (.supplied 1) [.scalar .i32, .scalar .i32] [stray, shared]
    let commands : List (Command FileKind) := [.request (.allocate first), .bindTo second shared,
      .freeRegister shared, .request (.allocate third), .bindTo fourth pair,
      .request (.aliasTo second first), .bindTo second stray]
    let a : Allocator File FileKind := (new (File.new ⟨2, 1, .bits64⟩) ⟨.deny, true⟩).run commands
    (∀ c ∈ commands, c.managed = true) ∧ a.target.InUse (.general, 0) ∧
      (∃ id held, a.bindings.get? id = some held ∧
        ∃ leaf ∈ held.register.leaves, leaf.slot = (.general, 0)) ∧
      (reset a).result.isOk = false ∧ ((reset a).state.target.pool .general).inUse = 0 := by
  intro first second third fourth general shared stray pair commands a
  have hManaged : ∀ c ∈ commands, c.managed = true := by decide +kernel
  have hUsed : a.target.InUse (.general, 0) := ⟨by decide +kernel, by decide +kernel⟩
  obtain ⟨hHeld, _, _, _, hNone⟩ := deny_leaks_nothing ⟨2, 1, .bits64⟩ true commands hManaged
  exact ⟨hManaged, hUsed, hHeld _ hUsed, by decide +kernel, hNone .general⟩

end RegisterAssignment.Allocator
