import RegisterAssignment.Proofs.Allocator.Step
import RegisterAssignment.Proofs.File.InUse

/-! Who owns the registers of a register file. As long as every register comes from a request that
binds it, the bindings own exactly what is in use, each register once. -/

namespace RegisterAssignment

/-- Whether every register that the request makes is bound by it. -/
def Request.managed : Request → Bool
  | .allocateType _ => false
  | _ => true

/-- Whether a command goes through the bindings: it makes no register that it does not bind, and
does not go past the allocator to the target. -/
def Command.managed {κ : Type} : Command κ → Bool
  | .request r => r.managed
  | .bindTo .. | .freeRegister _ => true
  | .describe _ | .take _ | .giveBack _ => false

namespace Allocator

variable {a b : Allocator File FileKind} {v target : Value} {leaves : List (Hardware FileKind)}

/-- The leaves of all bindings are different target registers, and these are the ones in use. -/
structure Owns (a : Allocator File FileKind) : Prop where
  nodup : (slots a.bindings.leaves).Nodup
  inUse : ∀ slot, slot ∈ slots a.bindings.leaves ↔ a.target.InUse slot

theorem owns_new (config : FileConfig) (options : Options) :
    (new (File.new config) options : Allocator File FileKind).Owns where
  nodup := List.nodup_nil
  inUse slot := iff_of_false List.not_mem_nil (File.not_inUse_new config slot)

/-- Every way of making a register takes from the file what becomes its leaves, or nothing. -/
theorem Making.makes {r : Request} {make : Action (Supply File) FileKind (Register FileKind)}
    (h : Making a r v make) (s : Supply File) : Supply.Makes s (make s) := by
  cases h with
  | allocate v => exact Supply.makes_place _ s
  | allocateHardware v => exact Supply.makes_placeWhole _ s
  | allocateConstant v literal => exact Supply.makes_placeConstant _ _ s

/-- Making a register and binding it under an unbound identity. -/
theorem Owns.settle {made : Outcome (Supply File) FileKind (Register FileKind)} (h : a.Owns)
    (hUnbound : a.binding? v = none) (hMakes : Supply.Makes a.supply made) :
    (a.settle (a.resolve v).id v made).state.Owns ∧
      ∀ name, (a.settle (a.resolve v).id v made).result ≠ .error (.invalidFree name) := by
  rw [Allocator.settle]
  cases hResult : made.result with
  | error e =>
      refine ⟨⟨h.nodup, fun slot => ?_⟩, ?_⟩
      · exact (h.inUse slot).trans (hMakes.inUse e hResult slot).symm
      · intro name hName
        exact hMakes.valid e hResult name (Except.error.inj hName)
  | ok register =>
      have hTakes := hMakes.takes register hResult
      have hPerm := (Table.leaves_insert hUnbound ⟨v, register⟩).map Hardware.slot
      change (slots _).Perm (slots (register.leaves ++ a.bindings.leaves)) at hPerm
      rw [slots_append] at hPerm
      refine ⟨⟨?_, ?_⟩, fun name hName => by cases hName⟩
      · apply hPerm.nodup_iff.mpr
        apply hTakes.nodup.append h.nodup
        intro slot hNew hOld
        exact hTakes.fresh slot hNew ((h.inUse slot).mp hOld)
      · intro slot
        rw [hPerm.mem_iff, List.mem_append, h.inUse, or_comm]
        exact (hTakes.inUse slot).symm

/-- Giving up leaves that were taken out of the bindings before. They are all in use and all
different, so none is refused. -/
theorem Owns.releasing (h : a.Owns) (hTarget : b.target = a.target)
    (hPerm : a.bindings.leaves.Perm (leaves ++ b.bindings.leaves)) :
    (b.releasing leaves).state.Owns ∧
      ∀ name, (b.releasing leaves).result ≠ .error (.invalidFree name) := by
  have hSlots : (slots a.bindings.leaves).Perm (slots leaves ++ slots b.bindings.leaves) := by
    rw [← slots_append]
    exact hPerm.map Hardware.slot
  obtain ⟨hLeaves, hRest, hApart⟩ := List.nodup_append'.mp (hSlots.nodup_iff.mp h.nodup)
  have hInUse (slot : FileKind × Nat) :
      b.target.InUse slot ↔ slot ∈ slots leaves ∨ slot ∈ slots b.bindings.leaves := by
    rw [hTarget, ← h.inUse, hSlots.mem_iff, List.mem_append]
  refine ⟨⟨hRest, ?_⟩, ?_⟩
  · intro slot
    change _ ↔ (Supply.giveUpAll leaves b.supply).state.target.InUse slot
    rw [Supply.giveUpAll_inUse]
    change _ ↔ b.target.InUse slot ∧ _
    rw [hInUse]
    constructor
    · intro hSlot
      exact ⟨.inr hSlot, fun hLeaf => hApart hLeaf hSlot⟩
    · rintro ⟨hLeaf | hSlot, hOther⟩
      · exact absurd hLeaf hOther
      · exact hSlot
  · have hTaken : (Supply.giveUpAll leaves b.supply).result = .ok () := by
      apply Supply.giveUpAll_of_inUse hLeaves
      intro slot hSlot
      exact (hInUse slot).mpr (.inl hSlot)
    have hResult : (b.releasing leaves).result = .ok .done := congrArg (Except.map _) hTaken
    rw [hResult]
    nofun

/-- An alias parts the leaves that are held: those it releases and those that bindings keep. -/
theorem Owns.perm_shadowed (h : a.Owns) (hOpen : ¬ a.ClosesCycle v target) :
    a.bindings.leaves.Perm (a.shadowed v target ++ (a.bindings.erase v.id).leaves) := by
  rw [shadowed]
  cases hDropped : a.bindings.get? v.id with
  | none => rw [Table.erase_of_absent hDropped, List.nil_append]
  | some dropped =>
      have hPerm := Table.leaves_erase hDropped
      dsimp only
      split
      next hShared =>
        -- Two bindings that share a register have no target register to share.
        have hNodup := (hPerm.map Hardware.slot).nodup_iff.mp h.nodup
        rw [List.map_append] at hNodup
        have hNone : dropped.register.leaves = [] := by
          apply List.eq_nil_iff_forall_not_mem.mpr
          intro leaf hLeaf
          have hKept := mem_leaves_erase_of_shared hOpen hShared hLeaf
          exact (List.nodup_append'.mp hNodup).2.2 (List.mem_map_of_mem hLeaf)
            (List.mem_map_of_mem hKept)
        rwa [hNone] at hPerm
      next => exact hPerm

/-- One managed request keeps the account exact and never gives back what is not in use. -/
theorem Step.owns {r : Request} {o : Outcome (Allocator File FileKind) FileKind (Answer FileKind)}
    (hStep : Step a (.request r) o) (h : a.Owns) (hManaged : r.managed = true) :
    o.state.Owns ∧ ∀ name, o.result ≠ .error (.invalidFree name) := by
  cases hStep with
  | answered hValid => exact ⟨h, hValid⟩
  | made hMaking hUnbound =>
      obtain ⟨hOwns, hValid⟩ := h.settle hUnbound (hMaking.makes _)
      exact ⟨hOwns, map_ne_invalidFree hValid⟩
  | placed ty => cases hManaged
  | aliased hOpen => exact h.releasing (Supply.tally_target _ _) (h.perm_shadowed hOpen)
  | freed hBound => exact h.releasing rfl (Table.leaves_erase hBound)
  | cleared => exact h.releasing rfl (List.Perm.of_eq (List.append_nil _).symm)

/-- After requests whose registers are all bound, the bindings own what is in use. -/
theorem run_owns (config : FileConfig) (options : Options) {requests : List Request}
    (hManaged : ∀ r ∈ requests, r.managed = true) :
    ((new (File.new config) options : Allocator File FileKind).run
      (requests.map Command.request)).Owns := by
  refine run_keeps ?_ (owns_new config options)
  intro c hMem b o hStep hOwns
  obtain ⟨r, hRequest, rfl⟩ := List.mem_map.mp hMem
  exact (hStep.owns hOwns (hManaged r hRequest)).1

/-- The counter of a pool agrees with the account. -/
theorem Owns.pool_inUse (h : a.Owns) (kind : FileKind) :
    (a.target.pool kind).inUse = (slots a.bindings.leaves).countP (·.1 = kind) := by
  have hOfKind (slot : FileKind × Nat) :
      slot ∈ (slots a.bindings.leaves).filter (·.1 = kind) ↔
        a.target.InUse slot ∧ slot.1 = kind := by
    rw [List.mem_filter, h.inUse, decide_eq_true_iff]
  have hNodup : (((slots a.bindings.leaves).filter (·.1 = kind)).map Prod.snd).Nodup := by
    apply List.Nodup.map_on _ (h.nodup.filter _)
    intro slot hSlot slot' hSlot' hIndex
    have hKind := ((hOfKind slot).mp hSlot).2
    have hKind' := ((hOfKind slot').mp hSlot').2
    exact Prod.ext (hKind.trans hKind'.symm) hIndex
  rw [Pool.inUse_eq_length hNodup, List.length_map, List.countP_eq_length_filter]
  intro i
  rw [List.mem_map]
  constructor
  · rintro ⟨slot, hSlot, rfl⟩
    obtain ⟨hUsed, rfl⟩ := (hOfKind slot).mp hSlot
    exact hUsed
  · intro hUsed
    exact ⟨(kind, i), (hOfKind (kind, i)).mpr ⟨hUsed, rfl⟩, rfl⟩

/-- Exact ownership. After any managed requests, failed ones included, the leaves of the bindings
are all different and are exactly the registers in use, which agrees with the counter of each
kind; and no further managed request gives back a register that is not in use. -/
theorem bindings_own_exactly (config : FileConfig) (options : Options) (requests : List Request)
    (hManaged : ∀ r ∈ requests, r.managed = true) :
    let a : Allocator File FileKind :=
      (new (File.new config) options).run (requests.map Command.request)
    (slots a.bindings.leaves).Nodup ∧
    (∀ slot, slot ∈ slots a.bindings.leaves ↔ a.target.InUse slot) ∧
    (∀ kind, (a.target.pool kind).inUse = (slots a.bindings.leaves).countP (·.1 = kind)) ∧
    ∀ r : Request, r.managed = true →
      ∀ name, (serve r a).result ≠ .error (.invalidFree name) := by
  intro a
  have hOwns : a.Owns := run_owns config options hManaged
  refine ⟨hOwns.nodup, hOwns.inUse, hOwns.pool_inUse, ?_⟩
  intro r hNext
  exact ((serve_step r a).owns hOwns hNext).2

/-- A second structure fails for want of a floating-point register, the register of a shadowed
value comes back, and the first structure is freed through two aliases: what is left is owned by
the last two values, and both registers are counted. -/
theorem bindings_own_exactly_after_failure :
    let pair : Value := ⟨0, .struct [.scalar .i32, .scalar .f64]⟩
    let single : Value := ⟨1, .scalar .i64⟩
    let other : Value := ⟨2, .struct [.scalar .i32, .scalar .f64]⟩
    let far : Value := ⟨3, .scalar .i64⟩
    let requests : List Request := [.allocate pair, .allocate single, .allocate other,
      .aliasTo far single, .aliasTo single pair, .allocateHardware ⟨4, .scalar .i32⟩, .free far,
      .allocate ⟨5, .scalar .i32⟩]
    let a : Allocator File FileKind :=
      (new (File.new ⟨3, 1, .bits64⟩) default).run (requests.map Command.request)
    (∀ r ∈ requests, r.managed = true) ∧
      slots a.bindings.leaves = [(.general, 1), (.general, 0)] ∧
      (a.target.pool .general).inUse = 2 ∧ ¬ a.target.InUse (.float, 0) ∧
      ∀ name, (serve (.aliasTo ⟨4, .scalar .i32⟩ pair) a).result ≠ .error (.invalidFree name) := by
  intro pair single other far requests a
  have hManaged : ∀ r ∈ requests, r.managed = true := by decide +kernel
  have hSlots : slots a.bindings.leaves = [(.general, 1), (.general, 0)] := by decide +kernel
  obtain ⟨_, hInUse, hCount, hValid⟩ :=
    bindings_own_exactly ⟨3, 1, .bits64⟩ default requests hManaged
  change ∀ slot, slot ∈ slots a.bindings.leaves ↔ a.target.InUse slot at hInUse
  change ∀ kind, (a.target.pool kind).inUse =
    (slots a.bindings.leaves).countP (·.1 = kind) at hCount
  rw [hSlots] at hInUse hCount
  refine ⟨hManaged, hSlots, (hCount .general).trans (by decide), ?_, hValid _ rfl⟩
  exact mt (hInUse (.float, 0)).mpr (by decide)

end Allocator

end RegisterAssignment
