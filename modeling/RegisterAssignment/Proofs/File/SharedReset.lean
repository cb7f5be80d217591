import RegisterAssignment.Proofs.Allocator.Freeing
import RegisterAssignment.Proofs.File.InUse

/-! A reset of an allocator whose bindings share registers. A reset goes through the bindings one by
one and offers to the register file whatever each of them holds, so a register that is held twice is
offered twice. The file takes it back the first time and refuses it from then on: everything that
was held has come back once after a reset, but the reset fails as soon as anything was shared. -/

namespace RegisterAssignment

instance Pool.decidableInUse (p : Pool) (i : Nat) : Decidable (p.InUse i) :=
  inferInstanceAs (Decidable (_ ∧ _))

instance File.decidableInUse (t : File) (slot : FileKind × Nat) : Decidable (t.InUse slot) :=
  inferInstanceAs (Decidable (Pool.InUse _ _))

/-- If nothing is refused then everything that is offered comes back. -/
theorem returnedIn_offers_of_ok {σ κ : Type} [Target σ κ] {t : σ} {leaves : List (Hardware κ)}
    (h : firstRefusal (offers t leaves) = .ok ()) : returnedIn (offers t leaves) = leaves := by
  rw [firstRefusal_eq_ok_iff] at h
  induction leaves generalizing t with
  | nil => rfl
  | cons leaf rest ih =>
      have hRest := ih fun call hMem => h call (List.mem_cons_of_mem _ hMem)
      have hFirst := h _ List.mem_cons_self
      cases hBack : (Target.giveBack leaf t).result with
      | ok _ =>
          rw [offers, hBack]
          exact congrArg (leaf :: ·) hRest
      | error e =>
          rw [hBack] at hFirst
          cases hFirst

namespace File

variable {t : File} {leaf : Hardware FileKind}

/-- What is not in use is refused by its text, and the file stays as it is. -/
theorem giveBack_of_not_inUse (h : ¬ t.InUse leaf.slot) :
    giveBack leaf t = ⟨.error (.invalidFree leaf.text), t, []⟩ := by
  rw [giveBack]
  split
  next p hBack => exact absurd (Pool.inUse_of_giveBack? hBack).1 h
  next => rfl

/-- A leaf in use comes back when it is offered first. -/
theorem returnedIn_offers_of_inUse (h : t.InUse leaf.slot) (rest : List (Hardware FileKind)) :
    returnedIn (offers t (leaf :: rest)) =
      leaf :: returnedIn (offers (giveBack leaf t).state rest) := by
  have hBack : (Target.giveBack leaf t).result = .ok () := giveBack_of_inUse h
  rw [offers, hBack]
  rfl

/-- A leaf that is not in use makes no difference to what comes back. -/
theorem returnedIn_offers_of_not_inUse (h : ¬ t.InUse leaf.slot)
    (rest : List (Hardware FileKind)) :
    returnedIn (offers t (leaf :: rest)) = returnedIn (offers t rest) := by
  have hBack : Target.giveBack leaf t = ⟨.error (.invalidFree leaf.text), t, []⟩ :=
    giveBack_of_not_inUse h
  rw [offers, hBack]
  rfl

/-- What comes back of target registers that are offered one after the other is what was in use. -/
theorem mem_slots_returnedIn_offers (leaves : List (Hardware FileKind)) (t : File)
    (slot : FileKind × Nat) :
    slot ∈ slots (returnedIn (offers t leaves)) ↔ slot ∈ slots leaves ∧ t.InUse slot := by
  induction leaves generalizing t with
  | nil => exact ⟨fun h => absurd h List.not_mem_nil, And.left⟩
  | cons leaf rest ih =>
      by_cases hUsed : t.InUse leaf.slot
      · rw [returnedIn_offers_of_inUse hUsed, slots_cons, slots_cons, List.mem_cons, List.mem_cons,
          ih, giveBack_inUse]
        by_cases hSame : slot = leaf.slot
        · simp [hSame, hUsed]
        · simp [hSame]
      · rw [returnedIn_offers_of_not_inUse hUsed, slots_cons, List.mem_cons, ih]
        by_cases hSame : slot = leaf.slot
        · simp [hSame, hUsed]
        · simp [hSame]

/-- Nothing comes back twice, because after the first time it is not in use any more. -/
theorem nodup_slots_returnedIn_offers (leaves : List (Hardware FileKind)) (t : File) :
    (slots (returnedIn (offers t leaves))).Nodup := by
  induction leaves generalizing t with
  | nil => exact List.nodup_nil
  | cons leaf rest ih =>
      by_cases hUsed : t.InUse leaf.slot
      · rw [returnedIn_offers_of_inUse hUsed, slots_cons, List.nodup_cons]
        refine ⟨?_, ih _⟩
        rw [mem_slots_returnedIn_offers, giveBack_inUse]
        exact fun h => h.2.2 rfl
      · rw [returnedIn_offers_of_not_inUse hUsed]
        exact ih t

end File

namespace Allocator

variable {a : Allocator File FileKind}

/-- A reset offers what the bindings hold, as often as they hold it. -/
theorem offeredIn_reset (a : Allocator File FileKind) :
    offeredIn (reset a).calls = a.bindings.leaves := by
  rw [(frees_reset a).calls]
  exact offeredIn_offers _ _

/-- If all that is held is in use, a reset succeeds exactly if nothing is held twice. -/
theorem reset_ok_iff_nodup (hHeld : ∀ slot ∈ slots a.bindings.leaves, a.target.InUse slot) :
    (reset a).result = .ok () ↔ (slots a.bindings.leaves).Nodup := by
  have hReset := frees_reset a
  constructor
  · intro hOk
    have hAll : returnedIn (offers a.target a.bindings.leaves) = a.bindings.leaves := by
      apply returnedIn_offers_of_ok
      rw [← hOk, hReset.result, hReset.calls]
      rfl
    rw [← hAll]
    exact File.nodup_slots_returnedIn_offers _ _
  · intro hNodup
    rw [Outcome.result_eq (silent_reset a)]
    exact Supply.giveUpAll_of_inUse hNodup hHeld

/-- When a reset succeeds. If everything that the bindings hold is in use, a reset succeeds, and
offers each register that is held exactly once, in just those cases where no register is held twice.
Shared or not, each register that is held comes back exactly once, and nothing else does. -/
theorem reset_ok_iff_unshared (config : FileConfig) (options : Options)
    (commands : List (Command FileKind)) :
    let a : Allocator File FileKind := (new (File.new config) options).run commands
    let held := slots a.bindings.leaves
    let calls := (reset a).calls
    (∀ slot ∈ held, a.target.InUse slot) →
    ((reset a).result = .ok () ↔ held.Nodup) ∧
    ((∀ slot ∈ held, (slots (offeredIn calls)).count slot = 1) ↔ held.Nodup) ∧
    (slots (returnedIn calls)).Nodup ∧ ∀ slot, slot ∈ slots (returnedIn calls) ↔ slot ∈ held := by
  intro a held calls hHeld
  have hCalls : calls = offers a.target a.bindings.leaves := (frees_reset a).calls
  refine ⟨reset_ok_iff_nodup hHeld, ?_, ?_, ?_⟩
  · rw [show offeredIn calls = a.bindings.leaves from offeredIn_reset a]
    exact List.nodup_iff_count_eq_one.symm
  · rw [hCalls]
    exact File.nodup_slots_returnedIn_offers _ _
  · intro slot
    rw [hCalls, File.mem_slots_returnedIn_offers]
    exact and_iff_left_of_imp (hHeld slot)

/-- A structure is bound whole to a second value, and one of its fields to a third: its registers
are held two and three times. The reset offers them as often and is refused, and still each of them
comes back once, with the register that only the last value holds. -/
theorem reset_ok_iff_unshared_nested :
    let general : Descriptor FileKind := ⟨.scalar .i32, some .i32, .general⟩
    let float : Descriptor FileKind := ⟨.scalar .f64, some .f64, .float⟩
    let left : Value := ⟨0, .struct [.scalar .i32, .scalar .f64]⟩
    let right : Value := ⟨1, .struct [.scalar .i32, .scalar .f64]⟩
    let field : Value := ⟨2, .scalar .i32⟩
    let single : Value := ⟨3, .scalar .i64⟩
    let part : Register FileKind := .hardware (.allocated 0) ⟨general, 0⟩
    let whole : Register FileKind := .compound (.allocated 2) [.scalar .i32, .scalar .f64]
      [part, .hardware (.allocated 1) ⟨float, 0⟩]
    let commands : List (Command FileKind) := [.request (.allocate left), .bindTo right whole,
      .bindTo field part, .request (.allocate single)]
    let a : Allocator File FileKind := (new (File.new ⟨2, 1, .bits64⟩) default).run commands
    let held := slots a.bindings.leaves
    (∀ slot ∈ held, a.target.InUse slot) ∧
      held = [(.general, 0), (.float, 0), (.general, 0), (.float, 0), (.general, 0),
        (.general, 1)] ∧
      (reset a).result ≠ .ok () ∧ (slots (returnedIn (reset a).calls)).Nodup ∧
      ∀ slot, slot ∈ slots (returnedIn (reset a).calls) ↔ slot ∈ held := by
  intro general float left right field single part whole commands a held
  have hHeld : ∀ slot ∈ held, a.target.InUse slot := by decide +kernel
  have hSlots : held = [(.general, 0), (.float, 0), (.general, 0), (.float, 0), (.general, 0),
      (.general, 1)] := by decide +kernel
  obtain ⟨hOk, _, hOnce, hReturned⟩ :=
    reset_ok_iff_unshared ⟨2, 1, .bits64⟩ default commands hHeld
  have hShared : ¬ held.Nodup := by
    rw [hSlots]
    decide
  exact ⟨hHeld, hSlots, mt hOk.mp hShared, hOnce, hReturned⟩

/-- Two values are bound to one register, as where two branches meet, and the register is in use.
The reset offers it twice, and fails because it is refused the second time. -/
theorem reset_refused_at_join :
    let left : Value := ⟨0, .scalar .i32⟩
    let join : Value := ⟨1, .scalar .i32⟩
    let general : Descriptor FileKind := ⟨.scalar .i32, some .i32, .general⟩
    let shared : Register FileKind := .hardware (.allocated 0) ⟨general, 0⟩
    let a : Allocator File FileKind := (new (File.new ⟨1, 0, .bits64⟩) default).run
      [.request (.allocate left), .bindTo join shared]
    (∀ slot ∈ slots a.bindings.leaves, a.target.InUse slot) ∧
      a.load left = .ok shared ∧ a.load join = .ok shared ∧
      slots (offeredIn (reset a).calls) = [(.general, 0), (.general, 0)] ∧
      (reset a).result = .error (.invalidFree "General#0") := by
  decide +kernel

end Allocator

end RegisterAssignment
