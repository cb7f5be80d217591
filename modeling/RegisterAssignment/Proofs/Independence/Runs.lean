import RegisterAssignment.Proofs.Allocator.Sharing
import RegisterAssignment.Proofs.File.Ownership
import RegisterAssignment.Proofs.Independence.Supply

/-! The same requests to two allocators, one over a register file and one over virtual registers.
If the register file never runs out of registers, no request tells the two apart: all answers,
errors, tables and counters agree, and only the kinds and numbers of target registers differ. -/

namespace RegisterAssignment.Allocator

open Register (outline)

section Apart

variable {σ κ : Type} {a : Allocator σ κ} {v t : Value}

/-- No part of a bound register is part of another bound one. -/
def Apart (a : Allocator σ κ) : Prop := Pairwise (fun r r' => r.origins.Disjoint r'.origins) a

variable [DecidableEq κ]

/-- Without common parts there is nothing that an aliased value goes on to use. -/
theorem Apart.shadowed_eq (h : a.Apart) (hOpen : ¬ a.ClosesCycle v t) :
    a.shadowed v t = (a.bindings.get? v.id).elim [] fun dropped => dropped.register.leaves := by
  rw [shadowed]
  cases hDropped : a.bindings.get? v.id with
  | none => rfl
  | some dropped =>
      apply if_neg
      intro hHolds
      obtain ⟨live, hLive, hSame⟩ := holds_iff.mp hHolds
      have hOther : (a.aliases.resolve (a.aliases.flatten t)).id ≠ v.id := fun hId =>
        hOpen ⟨_, Aliases.resolve_mem_chain _ _, hId⟩
      have hDisjoint := h.related _ _ live dropped hOther hLive hDropped
      exact hDisjoint live.register.origin_mem_origins (hSame ▸ live.register.origin_mem_origins)

/-- If nothing is shared, an alias parts the leaves into those it releases and those it keeps. -/
theorem Apart.perm_shadowed (h : a.Apart) (hOpen : ¬ a.ClosesCycle v t) :
    a.bindings.leaves.Perm (a.shadowed v t ++ (a.bindings.erase v.id).leaves) := by
  rw [h.shadowed_eq hOpen]
  cases hDropped : a.bindings.get? v.id with
  | none =>
      rw [Table.erase_of_absent hDropped]
      exact .refl _
  | some dropped => exact Table.leaves_erase hDropped

end Apart

section Sound

variable {a b : Allocator File FileKind}

/-- Nothing is bound twice, and the register file will take back whatever is bound. -/
structure Sound (a : Allocator File FileKind) : Prop where
  apart : a.Apart
  holds : a.target.Holds a.bindings.leaves

theorem sound_new (config : FileConfig) (options : Options) :
    (new (File.new config) options : Allocator File FileKind).Sound :=
  ⟨pairwise_new _ _, File.holds_nil _⟩

/-- The file holds what was bound before together with what was made, which is bound now. -/
theorem holds_settle {v : Value} {made : Outcome (Supply File) FileKind (Register FileKind)}
    (h : a.target.Holds a.bindings.leaves) (hUnbound : a.binding? v = none)
    (hMakes : Supply.Makes a.supply made) :
    (a.settle (a.resolve v).id v made).state.target.Holds
      (a.settle (a.resolve v).id v made).state.bindings.leaves := by
  rw [Allocator.settle]
  cases hResult : made.result with
  | error e => exact h.mono fun slot => (hMakes.inUse e hResult slot).mpr
  | ok register =>
      have hPerm := Table.leaves_insert hUnbound ⟨v, register⟩
      exact (h.takes (hMakes.takes register hResult)).perm (List.perm_append_comm.trans hPerm.symm)

/-- Leaves that were taken out of the bindings are given up. -/
theorem holds_releasing {leaves : List (Hardware FileKind)} (h : a.target.Holds a.bindings.leaves)
    (hTarget : b.target = a.target)
    (hPerm : a.bindings.leaves.Perm (leaves ++ b.bindings.leaves)) :
    (b.releasing leaves).state.target.Holds (b.releasing leaves).state.bindings.leaves := by
  have hAll : b.supply.target.Holds (leaves ++ b.bindings.leaves) := by
    change b.target.Holds _
    rw [hTarget]
    exact h.perm hPerm
  exact hAll.giveUpAll

/-- Requests keep bound registers apart and in use. -/
theorem Step.sound {r : Request} {o : Outcome (Allocator File FileKind) FileKind (Answer FileKind)}
    (hStep : Step a (.request r) o) (h : a.Sound) : o.state.Sound := by
  refine ⟨hStep.pairwise (fun _ _ => List.disjoint_symm) (fun _ _ => id) h.apart trivial, ?_⟩
  cases hStep with
  | answered _ => exact h.holds
  | made hMaking hUnbound => exact holds_settle h.holds hUnbound (hMaking.makes _)
  | placed ty =>
      have hMakes := Supply.makes_place ty a.supply
      cases hResult : (Supply.place ty a.supply).result with
      | error e => exact h.holds.mono fun slot => (hMakes.inUse e hResult slot).mpr
      | ok register =>
          exact h.holds.mono fun slot hUsed =>
            ((hMakes.takes register hResult).inUse slot).mpr (.inl hUsed)
  | aliased hOpen =>
      exact holds_releasing h.holds (Supply.tally_target _ _) (h.apart.perm_shadowed hOpen)
  | freed hBound => exact holds_releasing h.holds rfl (Table.leaves_erase hBound)
  | cleared => exact holds_releasing h.holds rfl (List.Perm.of_eq (List.append_nil _).symm)

end Sound

/-- Two allocators over different targets with the same tables and counters. Of bound registers
only the outlines are compared. -/
structure Agree (a : Allocator File FileKind) (a' : Allocator Virtual VirtualKind) : Prop where
  supply : Supply.Twin a.supply a'.supply
  bindings : a.bindings.map Binding.outline = a'.bindings.map Binding.outline
  aliases : a.aliases = a'.aliases

variable {a : Allocator File FileKind} {a' : Allocator Virtual VirtualKind}

/-- A new file and a new virtual target of one pointer width agree. -/
theorem agree_new (config : FileConfig) (options : Options) :
    Agree (new (File.new config) options) (new (Virtual.new config.pointerWidth) options) :=
  ⟨⟨rfl, rfl, rfl, rfl⟩, rfl, rfl⟩

/-- Aliases do not involve the target. -/
theorem Agree.resolve (h : Agree a a') (v : Value) : a.resolve v = a'.resolve v :=
  congrArg (fun aliases : Aliases => aliases.resolve v) h.aliases

/-- An identity is bound on both sides or on neither, and then to registers of one outline. -/
theorem Agree.get?_cases (h : Agree a a') (id : ValueId) :
    (a.bindings.get? id = none ∧ a'.bindings.get? id = none) ∨
      ∃ held held', a.bindings.get? id = some held ∧ a'.bindings.get? id = some held' ∧
        held.outline = held'.outline := by
  have hSame := congrArg (fun t => t.get? id) h.bindings
  simp only [Table.get?_map] at hSame
  cases hFile : a.bindings.get? id with
  | none =>
      rw [hFile] at hSame
      exact .inl ⟨rfl, Option.map_eq_none_iff.mp hSame.symm⟩
  | some held =>
      rw [hFile] at hSame
      obtain ⟨held', hVirtual, hOutline⟩ := Option.map_eq_some_iff.mp hSame.symm
      exact .inr ⟨held, held', rfl, hVirtual, hOutline.symm⟩

theorem Agree.binding?_cases (h : Agree a a') (v : Value) :
    (a.binding? v = none ∧ a'.binding? v = none) ∨
      ∃ held held', a.binding? v = some held ∧ a'.binding? v = some held' ∧
        held.outline = held'.outline := by
  rw [binding?, binding?, ← h.resolve v]
  exact h.get?_cases _

/-- Outlines keep the origins, so bindings are apart on both sides or on none. -/
theorem Agree.apart (h : Agree a a') (hApart : a.Apart) : a'.Apart := by
  have hCounterpart (id : ValueId) (held' : Binding VirtualKind)
      (hHeld' : a'.bindings.get? id = some held') : ∃ held, a.bindings.get? id = some held ∧
        held.register.origins = held'.register.origins := by
    rcases h.get?_cases id with ⟨_, hNone⟩ | ⟨held, other, hHeld, hOther, hSame⟩
    · rw [hNone] at hHeld'
      cases hHeld'
    · have hOutline : held.register.outline = other.register.outline :=
        congrArg Binding.register hSame
      rw [hOther] at hHeld'
      cases hHeld'
      refine ⟨held, hHeld, ?_⟩
      rw [← Register.origins_outline, hOutline, Register.origins_outline]
  constructor
  · intro id held' hHeld' n hn
    obtain ⟨held, hHeld, hOrigins⟩ := hCounterpart id held' hHeld'
    rw [← h.supply.made]
    exact hApart.existing id held hHeld n (hOrigins ▸ hn)
  · intro id id' held held' hOther hHeld hHeld'
    obtain ⟨first, hFirst, hOrigins⟩ := hCounterpart id held hHeld
    obtain ⟨second, hSecond, hOrigins'⟩ := hCounterpart id' held' hHeld'
    rw [← hOrigins, ← hOrigins']
    exact hApart.related id id' first second hOther hFirst hSecond

/-- If what was made matches, so does what is bound. -/
theorem Agree.settle (h : Agree a a') {made : Outcome (Supply File) FileKind (Register FileKind)}
    {made' : Outcome (Supply Virtual) VirtualKind (Register VirtualKind)}
    (hMade : Matches Supply.Twin outline outline made made') (id : ValueId) (v : Value) :
    Matches Agree outline outline (a.settle id v made) (a'.settle id v made') := by
  intro hRoom
  rcases hMade.cases with ⟨kind, capacity, hOut⟩ | ⟨e, hFile, hVirtual, hSupply⟩ |
    ⟨r, r', hFile, hVirtual, hSame, hSupply⟩
  · exact absurd (by simp only [Allocator.settle, hOut]) (hRoom kind capacity)
  · simp only [Allocator.settle, hFile, hVirtual]
    exact ⟨rfl, hSupply, h.bindings, h.aliases⟩
  · simp only [Allocator.settle, hFile, hVirtual]
    refine ⟨congrArg Except.ok hSame, hSupply, ?_, h.aliases⟩
    simp only [Table.map_insert, h.bindings, Binding.outline, hSame]

/-- What the supplies do alike, the allocators do alike. -/
theorem Agree.onSupply {α β γ : Type} {f : α → γ} {g : β → γ} (h : Agree a a')
    {x : Action (Supply File) FileKind α} {y : Action (Supply Virtual) VirtualKind β}
    (hMatch : Matches Supply.Twin f g (x a.supply) (y a'.supply)) :
    Matches Agree f g (Allocator.onSupply x a) (Allocator.onSupply y a') := by
  intro hRoom
  obtain ⟨hResult, hSupply⟩ := hMatch hRoom
  exact ⟨hResult, hSupply, h.bindings, h.aliases⟩

/-- Equally many leaves are given up on both sides, and none is refused. -/
theorem Agree.releasing (h : Agree a a') {leaves : List (Hardware FileKind)}
    {leaves' : List (Hardware VirtualKind)} (hHolds : a.target.Holds leaves)
    (hLength : leaves.length = leaves'.length) :
    Matches Agree Answer.outline Answer.outline (a.releasing leaves) (a'.releasing leaves') := by
  intro _
  have hFile : (a.releasing leaves).result = .ok .done :=
    congrArg (Except.map _) (Supply.giveUpAll_of_inUse hHolds.nodup hHolds.inUse)
  have hVirtual : (a'.releasing leaves').result = .ok .done :=
    congrArg (Except.map _) (Supply.giveUpAll_virtual leaves' a'.supply)
  rw [hFile, hVirtual]
  exact ⟨rfl, h.supply.giveUpAll hHolds hLength, h.bindings, h.aliases⟩

/-- A value is loaded on both sides with registers of one outline, or on neither. -/
theorem Agree.load (h : Agree a a') (v : Value) :
    (a.load v).map outline = (a'.load v).map outline := by
  rcases h.binding?_cases v with ⟨hFile, hVirtual⟩ | ⟨held, held', hFile, hVirtual, hSame⟩
  · simp only [Allocator.load, hFile, hVirtual, h.resolve v]
    rfl
  · simp only [Allocator.load, hFile, hVirtual]
    exact congrArg (fun b => Except.ok b.register) hSame

/-- A refusal tells the variant, which outlines keep. -/
theorem Agree.unexpected (h : Agree a a') (v : Value) (expected : String) {r : Register FileKind}
    {r' : Register VirtualKind} (hSame : r.outline = r'.outline) :
    a.unexpected v expected r = a'.unexpected v expected r' := by
  rw [Allocator.unexpected, Allocator.unexpected, h.resolve v, Register.variant_eq_of_outline hSame]

theorem Agree.loadAs (h : Agree a a') (v : Value) (variant : Variant) :
    (a.loadAs v variant).map outline = (a'.loadAs v variant).map outline := by
  apply map_bind_eq_map_bind (h.load v)
  intro r r' hSame
  rw [Register.variant_eq_of_outline hSame, h.unexpected v variant.text hSame]
  split
  · exact congrArg Except.ok hSame
  · rfl

theorem Agree.loadPrimitive (h : Agree a a') (v : Value) :
    (a.loadPrimitive v).map outline = (a'.loadPrimitive v).map outline := by
  apply map_bind_eq_map_bind (h.load v)
  intro r r' hSame
  rw [Register.variant_eq_of_outline hSame, h.unexpected v "primitive" hSame]
  split
  · rfl
  · exact congrArg Except.ok hSame

/-- Of a target register only the descriptor is compared. -/
theorem Agree.loadHardware (h : Agree a a') (v : Value) :
    (a.loadHardware v).map Hardware.outline = (a'.loadHardware v).map Hardware.outline := by
  apply map_bind_eq_map_bind (h.load v)
  intro r r' hSame
  have hRefused := h.unexpected v Variant.hardware.text hSame
  cases r <;> cases r' <;>
    simp only [outline, Register.map, Register.hardware.injEq, reduceCtorEq] at hSame
  · exact congrArg Except.error hRefused
  · exact congrArg Except.ok hSame.2
  · exact congrArg Except.error hRefused

/-- No question depends on kinds or numbers. -/
theorem Agree.answer (h : Agree a a') (q : Query) :
    (a.answer q).map Answer.outline = (a'.answer q).map Answer.outline := by
  cases q with
  | isBound v =>
      rcases h.binding?_cases v with ⟨hFile, hVirtual⟩ | ⟨held, held', hFile, hVirtual, _⟩ <;>
        simp [Allocator.answer, Allocator.isBound, hFile, hVirtual, Except.map, Answer.outline]
  | load v =>
      apply map_bind_eq_map_bind (h.load v)
      intro r r' hSame
      exact congrArg (fun r => Except.ok (Answer.register r)) hSame
  | loadAs v variant =>
      apply map_bind_eq_map_bind (h.loadAs v variant)
      intro r r' hSame
      exact congrArg (fun r => Except.ok (Answer.register r)) hSame
  | loadPrimitive v =>
      apply map_bind_eq_map_bind (h.loadPrimitive v)
      intro r r' hSame
      exact congrArg (fun r => Except.ok (Answer.register r)) hSame
  | loadHardware v =>
      apply map_bind_eq_map_bind (h.loadHardware v)
      intro held held' hSame
      exact congrArg (fun held => Except.ok (Answer.hardware held)) hSame
  | aliasTarget v =>
      simp only [Allocator.answer, h.aliases]
      rfl
  | resolve v =>
      simp only [Allocator.answer, h.resolve v]
      rfl

/-- An alias closes a cycle on both sides or on neither. -/
theorem Agree.closesCycle_iff (h : Agree a a') (v t : Value) :
    a.ClosesCycle v t ↔ a'.ClosesCycle v t := by
  rw [ClosesCycle, ClosesCycle, h.aliases]

/-- An alias releases equally many leaves on both sides. What a value goes on to use is told by
origins, which outlines keep. -/
theorem Agree.length_shadowed (h : Agree a a') (hApart : a.Apart) {v t : Value}
    (hOpen : ¬ a.ClosesCycle v t) : (a.shadowed v t).length = (a'.shadowed v t).length := by
  rw [hApart.shadowed_eq hOpen,
    (h.apart hApart).shadowed_eq (mt (h.closesCycle_iff v t).mpr hOpen)]
  rcases h.get?_cases v.id with ⟨hFile, hVirtual⟩ | ⟨held, held', hFile, hVirtual, hSame⟩
  · rw [hFile, hVirtual]
    rfl
  · rw [hFile, hVirtual]
    exact Register.length_leaves_of_outline (congrArg Binding.register hSame)

/-- Both sides hold equally many leaves. -/
theorem Agree.length_leaves (h : Agree a a') :
    a.bindings.leaves.length = a'.bindings.leaves.length := by
  have hLeaves := congrArg (fun t => (Table.leaves t).length) h.bindings
  simpa [Table.leaves_map_outline] using hLeaves

/-- Both sides answer with what is bound, or place the same type. -/
theorem Agree.allocate (h : Agree a a') (v : Value) :
    Matches Agree outline outline (allocate v a) (allocate v a') := by
  apply Matches.of_silent
  rcases h.binding?_cases v with ⟨hFile, hVirtual⟩ | ⟨held, held', hFile, hVirtual, hSame⟩
  · rw [silent_allocate_of_unbound hFile, silent_allocate_of_unbound hVirtual, ← h.resolve v]
    exact h.settle (Supply.matches_place _ h.supply) _ v
  · rw [allocate_of_bound hFile, allocate_of_bound hVirtual]
    exact fun _ => ⟨congrArg Except.ok (congrArg Binding.register hSame), h⟩

/-- A bound register is refused on both sides unless it is a target register. -/
theorem Agree.allocateHardware (h : Agree a a') (v : Value) :
    Matches Agree outline outline (allocateHardware v a) (allocateHardware v a') := by
  apply Matches.of_silent
  rcases h.binding?_cases v with ⟨hFile, hVirtual⟩ | ⟨held, held', hFile, hVirtual, hSame⟩
  · rw [silent_allocateHardware_of_unbound hFile, silent_allocateHardware_of_unbound hVirtual,
      ← h.resolve v]
    exact h.settle (Supply.matches_placeWhole h.supply _) _ v
  · have hOutline : held.register.outline = held'.register.outline :=
      congrArg Binding.register hSame
    rw [allocateHardware_of_bound hFile, allocateHardware_of_bound hVirtual,
      Register.variant_eq_of_outline hOutline, h.resolve v]
    refine fun _ => ⟨?_, h⟩
    dsimp only [Outcome.silent]
    split
    · exact congrArg Except.ok hOutline
    · rfl

/-- Both sides answer with what is bound, or bind the same constant. -/
theorem Agree.allocateConstant (h : Agree a a') (v : Value) (literal : Literal) :
    Matches Agree outline outline (allocateConstant v literal a)
      (allocateConstant v literal a') := by
  apply Matches.of_silent
  rcases h.binding?_cases v with ⟨hFile, hVirtual⟩ | ⟨held, held', hFile, hVirtual, hSame⟩
  · rw [silent_allocateConstant_of_unbound hFile, silent_allocateConstant_of_unbound hVirtual,
      ← h.resolve v]
    exact h.settle (Supply.matches_placeConstant h.supply _ literal) _ v
  · rw [allocateConstant_of_bound hFile, allocateConstant_of_bound hVirtual]
    exact fun _ => ⟨congrArg Except.ok (congrArg Binding.register hSame), h⟩

/-- An alias is refused on both sides or on neither. What it releases is in use in the file, so the
file takes it back like the virtual target does. -/
theorem Agree.aliasTo (h : Agree a a') (hSound : a.Sound) (v t : Value) :
    Matches Agree Answer.outline Answer.outline (serve (.aliasTo v t) a)
      (serve (.aliasTo v t) a') := by
  apply Matches.of_silent
  rw [serve, serve, Action.silent_map_apply, Action.silent_map_apply]
  by_cases hCycle : a.ClosesCycle v t
  · rw [aliasTo_of_cycle hCycle, aliasTo_of_cycle ((h.closesCycle_iff v t).mp hCycle)]
    exact fun _ => ⟨rfl, h⟩
  · have hTables : Agree { a with
        supply := a.supply.tally fun stats => { stats with aliases := stats.aliases + 1 }
        bindings := a.bindings.erase v.id
        aliases := a.aliases.insert v.id (a.aliases.flatten t) } { a' with
        supply := a'.supply.tally fun stats => { stats with aliases := stats.aliases + 1 }
        bindings := a'.bindings.erase v.id
        aliases := a'.aliases.insert v.id (a'.aliases.flatten t) } := by
      constructor
      · exact h.supply.tally fun stats => { stats with aliases := stats.aliases + 1 }
      · simp only [Table.map_erase, h.bindings]
      · simp only [h.aliases]
    -- No bound register is part of another one, so both give all the old leaves up.
    have hHolds := (hSound.holds.perm (hSound.apart.perm_shadowed hCycle)).of_append.1
    rw [silent_aliasTo_of_accepted hCycle,
      silent_aliasTo_of_accepted (mt (h.closesCycle_iff v t).mpr hCycle)]
    refine hTables.releasing ?_ (h.length_shadowed hSound.apart hCycle)
    rw [target, Supply.tally_target]
    exact hHolds

/-- A value is freed on both sides or unbound on both. Its leaves are in use in the file, so none of
them is refused. -/
theorem Agree.free (h : Agree a a') (hSound : a.Sound) (v : Value) :
    Matches Agree Answer.outline Answer.outline (serve (.free v) a) (serve (.free v) a') := by
  apply Matches.of_silent
  rw [serve, serve, Action.silent_map_apply, Action.silent_map_apply]
  rcases h.binding?_cases v with ⟨hFile, hVirtual⟩ | ⟨held, held', hFile, hVirtual, hSame⟩
  · rw [free_of_unbound hFile, free_of_unbound hVirtual]
    exact fun _ => ⟨rfl, h⟩
  · have hTables : Agree { a with bindings := a.bindings.erase (a.resolve v).id }
        { a' with bindings := a'.bindings.erase (a'.resolve v).id } := by
      refine ⟨h.supply, ?_, h.aliases⟩
      simp only [Table.map_erase, h.bindings, h.resolve v]
    have hHolds := (hSound.holds.perm (Table.leaves_erase hFile)).of_append.1
    rw [silent_free_of_bound hFile, silent_free_of_bound hVirtual]
    exact hTables.releasing hHolds
      (Register.length_leaves_of_outline (congrArg Binding.register hSame))

/-- Whatever is bound is in use and bound once, so a reset is not refused on the file either. -/
theorem Agree.reset (h : Agree a a') (hSound : a.Sound) :
    Matches Agree Answer.outline Answer.outline (serve .reset a) (serve .reset a') := by
  have hTables : Agree { a with bindings := .empty, aliases := .empty }
      { a' with bindings := .empty, aliases := .empty } := ⟨h.supply, rfl, rfl⟩
  apply Matches.of_silent
  rw [serve, serve, Action.silent_map_apply, Action.silent_map_apply, silent_reset, silent_reset]
  exact hTables.releasing hSound.holds h.length_leaves

/-- One request to both. -/
theorem Agree.serve (h : Agree a a') (hSound : a.Sound) (r : Request) :
    Matches Agree Answer.outline Answer.outline (serve r a) (serve r a') := by
  have hRegister : ∀ (r : Register FileKind) (r' : Register VirtualKind), r.outline = r'.outline →
      (Answer.register r).outline = (Answer.register r').outline :=
    fun _ _ => congrArg Answer.register
  cases r with
  | allocate v =>
      rw [Allocator.serve, Allocator.serve, Action.map_apply, Action.map_apply]
      exact (h.allocate v).map hRegister
  | allocateHardware v =>
      rw [Allocator.serve, Allocator.serve, Action.map_apply, Action.map_apply]
      exact (h.allocateHardware v).map hRegister
  | allocateConstant v literal =>
      rw [Allocator.serve, Allocator.serve, Action.map_apply, Action.map_apply]
      exact (h.allocateConstant v literal).map hRegister
  | allocateType ty =>
      rw [Allocator.serve, Allocator.serve, Action.map_apply, Action.map_apply]
      exact (h.onSupply (Supply.matches_place ty h.supply)).map hRegister
  | aliasTo v t => exact h.aliasTo hSound v t
  | free v => exact h.free hSound v
  | reset => exact h.reset hSound
  | query q => exact fun _ => ⟨h.answer q, h⟩

section Served

variable {σ σ' κ κ' : Type}

/-- How the requests of a sequence end, one after the other. -/
def served [DecidableEq κ] [RegisterKind κ] [Target σ κ] (a : Allocator σ κ) :
    List Request → List (Outcome (Allocator σ κ) κ (Answer κ))
  | [] => []
  | r :: rest => Allocator.serve r a :: served (Allocator.serve r a).state rest

/-- Two requests ended alike, apart from kinds and numbers of target registers: with the same error
or with answers of one outline, and with the same tables and counters afterwards. -/
structure SameOutcome (o : Outcome (Allocator σ κ) κ (Answer κ))
    (o' : Outcome (Allocator σ' κ') κ' (Answer κ')) : Prop where
  result : o.result.map Answer.outline = o'.result.map Answer.outline
  bindings : o.state.bindings.map Binding.outline = o'.state.bindings.map Binding.outline
  aliases : o.state.aliases = o'.state.aliases
  stats : o.state.stats = o'.state.stats

end Served

/-- As long as the file is not exhausted, both sides answer the requests alike, one by one. -/
theorem Agree.served {requests : List Request} (h : Agree a a') (hSound : a.Sound)
    (hRoom : ∀ o ∈ a.served requests, ∀ kind capacity,
      o.result ≠ .error (.exhausted kind capacity)) :
    List.Forall₂ SameOutcome (a.served requests) (a'.served requests) := by
  induction requests generalizing a a' with
  | nil => exact .nil
  | cons r rest ih =>
      obtain ⟨hResult, hNext⟩ := h.serve hSound r (hRoom _ (List.mem_cons_self ..))
      have hSound' : (Allocator.serve r a).state.Sound := (serve_step r a).sound hSound
      refine .cons ⟨hResult, hNext.bindings, hNext.aliases, hNext.supply.stats⟩ ?_
      apply ih hNext hSound'
      intro o hMem
      exact hRoom o (List.mem_cons_of_mem _ hMem)

/-- Target independence. Any requests, to an allocator over a register file and to one over virtual
registers of the same pointer width and with the same options, end alike one by one, as long as the
register file does not run out of registers: both succeed or both fail with the same error, the
registers in the answers agree in origin, variant, tree, types and literals, and after each request
both have the same bindings up to kinds and numbers of target registers, the same aliases and the
same counters. -/
theorem requests_independent_of_target (config : FileConfig) (options : Options)
    (requests : List Request) :
    let file : Allocator File FileKind := new (File.new config) options
    let virtual : Allocator Virtual VirtualKind := new (Virtual.new config.pointerWidth) options
    (∀ o ∈ file.served requests, ∀ kind capacity,
      o.result ≠ .error (.exhausted kind capacity)) →
    List.Forall₂ SameOutcome (file.served requests) (virtual.served requests) := by
  intro file virtual hRoom
  exact (agree_new config options).served (sound_new config options) hRoom

/-- One structure is placed and one fails at its last field, a constant does not fit, a value with
registers is aliased and freed through the alias, an alias closes a cycle, and a register that no
value is bound to outlives the reset. -/
theorem requests_independent_of_target_with_failures :
    let pair : Value := ⟨0, .struct [.scalar .i32, .padding .f64]⟩
    let single : Value := ⟨1, .pointer (.scalar .i8) .global⟩
    let broken : Value := ⟨2, .struct [.string, .struct [.scalar .f32], .void]⟩
    let other : Value := ⟨3, .scalar .i64⟩
    let requests : List Request := [.allocate pair, .allocate broken,
      .allocateConstant single (.i32 7), .allocateConstant single (.i64 7),
      .allocateHardware other, .aliasTo other pair, .aliasTo pair other,
      .query (.loadHardware other), .allocateType .string, .free other, .query (.isBound pair),
      .reset]
    let file : Allocator File FileKind := new (File.new ⟨2, 2, .bits64⟩) default
    let virtual : Allocator Virtual VirtualKind := new (Virtual.new .bits64) default
    (∀ o ∈ file.served requests, ∀ kind capacity,
        o.result ≠ .error (.exhausted kind capacity)) ∧
      List.Forall₂ SameOutcome (file.served requests) (virtual.served requests) ∧
      (file.served requests).map (fun o => o.result.isOk) =
        [true, false, false, true, true, true, false, false, true, true, true, true] ∧
      (virtual.run (requests.map Command.request)).stats = ⟨6, 5, 1, 2, 1, 0⟩ := by
  intro pair single broken other requests file virtual
  have hRoom : ∀ o ∈ file.served requests, ∀ kind capacity,
      o.result ≠ .error (.exhausted kind capacity) := by
    have hNone : ((file.served requests).all fun o =>
        match o.result with
        | .ok _ => true
        | .error (.exhausted ..) => false
        | .error _ => true) = true := by decide +kernel
    intro o hMem kind capacity hOut
    have hServed := List.all_eq_true.mp hNone o hMem
    rw [hOut] at hServed
    cases hServed
  refine ⟨hRoom, requests_independent_of_target ⟨2, 2, .bits64⟩ default requests hRoom, ?_, ?_⟩
  · decide +kernel
  · decide +kernel

end RegisterAssignment.Allocator
