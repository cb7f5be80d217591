import Mathlib.Data.List.Nodup
import RegisterAssignment.Proofs.Allocator.Operations
import RegisterAssignment.Target.File

/-! Which registers of a register file are in use, and how the actions of a supply change that:
giving leaves up takes exactly them out of use, and making a register brings exactly its leaves
into use or changes nothing. -/

namespace RegisterAssignment

variable {κ : Type}

/-- The place of a target register: its kind and its number. -/
def Hardware.slot (h : Hardware κ) : κ × Nat := (h.kind, h.index)

def slots (leaves : List (Hardware κ)) : List (κ × Nat) := leaves.map Hardware.slot

@[simp] theorem slots_nil : slots ([] : List (Hardware κ)) = [] := rfl

@[simp] theorem slots_cons (leaf : Hardware κ) (rest : List (Hardware κ)) :
    slots (leaf :: rest) = leaf.slot :: slots rest := rfl

@[simp] theorem slots_append (leaves leaves' : List (Hardware κ)) :
    slots (leaves ++ leaves') = slots leaves ++ slots leaves' :=
  List.map_append

namespace Pool

variable {p q : Pool} {i : Nat}

def InUse (p : Pool) (i : Nat) : Prop := i < p.capacity ∧ i ∉ p.free

theorem not_inUse_full (capacity i : Nat) : ¬ (full capacity).InUse i := by
  rintro ⟨hBound, hUsed⟩
  exact hUsed (List.mem_range.mpr hBound)

/-- What a pool hands out was free and is in use afterwards, and nothing else changes. -/
theorem inUse_of_take? (h : p.take? = some (i, q)) :
    ¬ p.InUse i ∧ ∀ j, q.InUse j ↔ j = i ∨ p.InUse j := by
  obtain ⟨capacity, free, peak, ascending, bounded⟩ := p
  cases free with
  | nil => cases h
  | cons lowest rest =>
      cases h
      obtain ⟨hLow, _⟩ := List.pairwise_cons.mp ascending
      have hBound : i < capacity := bounded i (List.mem_cons_self ..)
      have hGone : i ∉ rest := fun hMem => Nat.lt_irrefl _ (hLow i hMem)
      refine ⟨fun hUsed => hUsed.2 (List.mem_cons_self ..), ?_⟩
      intro j
      simp only [InUse, List.mem_cons, not_or]
      constructor
      · rintro ⟨hj, hUsed⟩
        by_cases hLowest : j = i
        · exact .inl hLowest
        · exact .inr ⟨hj, hLowest, hUsed⟩
      · rintro (rfl | ⟨hj, _, hUsed⟩)
        · exact ⟨hBound, hGone⟩
        · exact ⟨hj, hUsed⟩

/-- Only what is not in use is refused. -/
theorem giveBack?_eq_none (h : p.giveBack? i = none) : ¬ p.InUse i := by
  rw [giveBack?] at h
  split at h
  next => cases h
  next hUnused => exact hUnused

/-- What a pool takes back was in use and is not so afterwards, and nothing else changes. -/
theorem inUse_of_giveBack? (h : p.giveBack? i = some q) :
    p.InUse i ∧ ∀ j, q.InUse j ↔ p.InUse j ∧ j ≠ i := by
  rw [giveBack?] at h
  split at h
  next hUsed =>
    cases h
    refine ⟨hUsed, ?_⟩
    intro j
    simp only [InUse, mem_insertAscending, not_or]
    constructor
    · rintro ⟨hj, hNe, hFree⟩
      exact ⟨⟨hj, hFree⟩, hNe⟩
    · rintro ⟨⟨hj, hFree⟩, hNe⟩
      exact ⟨hj, hNe, hFree⟩
  next => cases h

/-- The number of registers in use is the length of any list of them without repetitions. In
particular the subtraction in its definition does not run below zero. -/
theorem inUse_eq_length {used : List Nat} (hNodup : used.Nodup)
    (hUsed : ∀ i, i ∈ used ↔ p.InUse i) : p.inUse = used.length := by
  have hFree : p.free.Nodup := p.ascending.imp fun hLt => Nat.ne_of_lt hLt
  have hApart : List.Disjoint used p.free := fun i hi hFree => ((hUsed i).mp hi).2 hFree
  have hPerm : (used ++ p.free).Perm (List.range p.capacity) := by
    apply (List.perm_ext_iff_of_nodup (hNodup.append hFree hApart) List.nodup_range).mpr
    intro i
    rw [List.mem_append, hUsed, List.mem_range]
    constructor
    · rintro (hIn | hIn)
      · exact hIn.1
      · exact p.bounded i hIn
    · intro hBound
      by_cases hIn : i ∈ p.free
      · exact .inr hIn
      · exact .inl ⟨hBound, hIn⟩
  have hLength := hPerm.length_eq
  rw [List.length_append, List.length_range] at hLength
  rw [inUse]
  omega

end Pool

namespace File

variable {t : File} {wanted : Descriptor FileKind} {held : Hardware FileKind}

def InUse (t : File) (slot : FileKind × Nat) : Prop := (t.pool slot.1).InUse slot.2

/-- Nothing is in use in a new register file. -/
theorem not_inUse_new (config : FileConfig) (slot : FileKind × Nat) :
    ¬ (new config).InUse slot := by
  obtain ⟨kind, i⟩ := slot
  cases kind <;> exact Pool.not_inUse_full _ i

/-- A register that is handed out was not in use, and is the only one that comes into use. -/
theorem take_of_ok (h : (take wanted t).result = .ok held) :
    ¬ t.InUse held.slot ∧
      ∀ slot, (take wanted t).state.InUse slot ↔ slot = held.slot ∨ t.InUse slot := by
  rw [take] at h ⊢
  split at h
  next i rest hTake =>
    cases h
    obtain ⟨hFresh, hRest⟩ := Pool.inUse_of_take? hTake
    refine ⟨hFresh, ?_⟩
    rintro ⟨kind, j⟩
    simp only [InUse, pool_setPool, Hardware.slot, Hardware.kind, Prod.mk.injEq]
    by_cases hKind : kind = wanted.kind
    · simp only [hKind, if_true, hRest, true_and]
    · simp only [hKind, if_false, false_and, false_or]
  next => cases h

/-- A file that cannot hand out a register stays as it is, and says so by another error than that of
a release. -/
theorem take_of_error {e : Error} (h : (take wanted t).result = .error e) :
    (take wanted t).state = t ∧ ∀ name, e ≠ .invalidFree name := by
  rw [take] at h ⊢
  split at h
  next => cases h
  next =>
    cases h
    exact ⟨rfl, fun name hName => by cases hName⟩

/-- A register that is given back is not in use afterwards, whether it is taken or refused. -/
theorem giveBack_inUse (held : Hardware FileKind) (t : File) (slot : FileKind × Nat) :
    (giveBack held t).state.InUse slot ↔ t.InUse slot ∧ slot ≠ held.slot := by
  rw [giveBack]
  split
  next p hBack =>
    obtain ⟨_, hRest⟩ := Pool.inUse_of_giveBack? hBack
    obtain ⟨kind, j⟩ := slot
    simp only [InUse, pool_setPool, Hardware.slot, ne_eq, Prod.mk.injEq]
    by_cases hKind : kind = held.kind
    · simp only [hKind, if_true, hRest, true_and, ne_eq]
    · simp only [hKind, if_false, false_and, not_false_eq_true, and_true]
  next hBack =>
    have hUnused : ¬ t.InUse held.slot := Pool.giveBack?_eq_none hBack
    constructor
    · intro hSlot
      exact ⟨hSlot, fun hEq => hUnused (hEq ▸ hSlot)⟩
    · exact And.left

/-- A register in use is taken back. -/
theorem giveBack_of_inUse (h : t.InUse held.slot) : (giveBack held t).result = .ok () := by
  rw [giveBack]
  split
  next => rfl
  next hBack => exact absurd h (Pool.giveBack?_eq_none hBack)

/-- From one state of a register file to another, exactly these target registers came into use,
all of them different and none in use before. -/
structure Takes (before after : File) (leaves : List (Hardware FileKind)) : Prop where
  nodup : (slots leaves).Nodup
  fresh : ∀ slot ∈ slots leaves, ¬ before.InUse slot
  inUse : ∀ slot, after.InUse slot ↔ before.InUse slot ∨ slot ∈ slots leaves

theorem Takes.none {before after : File} (h : ∀ slot, after.InUse slot ↔ before.InUse slot) :
    Takes before after [] :=
  ⟨List.nodup_nil, by simp, by simp [h]⟩

/-- What is taken in two steps is taken together, and the second step takes nothing that the first
one took. -/
theorem Takes.trans {before middle after : File} {first second : List (Hardware FileKind)}
    (h : Takes before middle first) (h' : Takes middle after second) :
    Takes before after (first ++ second) := by
  constructor
  · rw [slots_append]
    apply h.nodup.append h'.nodup
    intro slot hFirst hSecond
    exact h'.fresh slot hSecond ((h.inUse slot).mpr (.inr hFirst))
  · intro slot hSlot
    rw [slots_append, List.mem_append] at hSlot
    rcases hSlot with hFirst | hSecond
    · exact h.fresh slot hFirst
    · intro hBefore
      exact h'.fresh slot hSecond ((h.inUse slot).mpr (.inl hBefore))
  · intro slot
    rw [h'.inUse, h.inUse, slots_append, List.mem_append, or_assoc]

end File

namespace Supply

open File (Takes)

variable {s : Supply File} {leaves : List (Hardware FileKind)}

/-- Whichever leaves are refused, none of them is in use after all were given up, and nothing else
changes. -/
theorem giveUpAll_inUse (leaves : List (Hardware FileKind)) (s : Supply File)
    (slot : FileKind × Nat) :
    (giveUpAll leaves s).state.target.InUse slot ↔ s.target.InUse slot ∧ slot ∉ slots leaves := by
  induction leaves generalizing s with
  | nil => simp [giveUpAll, Action.all, Action.done]
  | cons leaf rest ih =>
      change (giveUpAll rest (giveUp leaf s).state).state.target.InUse slot ↔ _
      rw [ih, giveUp_target]
      change (File.giveBack leaf s.target).state.InUse slot ∧ _ ↔ _
      rw [File.giveBack_inUse, slots_cons, List.mem_cons, not_or, and_assoc]

/-- Leaves that are all different and all in use are taken back without a refusal. -/
theorem giveUpAll_of_inUse (hNodup : (slots leaves).Nodup)
    (hInUse : ∀ slot ∈ slots leaves, s.target.InUse slot) :
    (giveUpAll leaves s).result = .ok () := by
  induction leaves generalizing s with
  | nil => rfl
  | cons leaf rest ih =>
      rw [slots_cons, List.nodup_cons] at hNodup
      have hFirst : (giveUp leaf s).result = .ok () := by
        rw [giveUp_result]
        exact File.giveBack_of_inUse (hInUse leaf.slot (by simp))
      rw [giveUpAll_cons, Action.both, hFirst]
      apply ih hNodup.2
      intro slot hSlot
      rw [giveUp_target]
      apply (File.giveBack_inUse leaf s.target slot).mpr
      refine ⟨hInUse slot (by simp [hSlot]), ?_⟩
      intro hSame
      exact hNodup.1 (hSame ▸ hSlot)

/-- What an action that makes a register does to a register file: the leaves of the register come
into use, or the action fails and nothing changes. -/
structure Makes (s : Supply File) (o : Outcome (Supply File) FileKind (Register FileKind)) :
    Prop where
  takes : ∀ register, o.result = .ok register → Takes s.target o.state.target register.leaves
  inUse : ∀ e, o.result = .error e → ∀ slot, o.state.target.InUse slot ↔ s.target.InUse slot
  valid : ∀ e, o.result = .error e → ∀ name, e ≠ .invalidFree name

/-- The same for the fields of a structure, of which those in `placed` were made before: if one
cannot be made, these are given up as well. -/
structure MakesFields (s : Supply File) (placed : List (Register FileKind))
    (o : Outcome (Supply File) FileKind (List (Register FileKind))) : Prop where
  takes : ∀ children, o.result = .ok children → ∃ made, children = placed ++ made ∧
    Takes s.target o.state.target (Register.leavesList made)
  inUse : ∀ e, o.result = .error e → ∀ slot, o.state.target.InUse slot ↔
    s.target.InUse slot ∧ slot ∉ slots (Register.leavesList placed)
  valid : ∀ e, o.result = .error e → ∀ name, e ≠ .invalidFree name

theorem Makes.of_ok {o : Outcome (Supply File) FileKind (Register FileKind)}
    {register : Register FileKind} (hResult : o.result = .ok register)
    (hTakes : Takes s.target o.state.target register.leaves) : Makes s o := by
  constructor <;> intro _ h <;> rw [hResult] at h <;> cases h
  exact hTakes

theorem Makes.of_error {o : Outcome (Supply File) FileKind (Register FileKind)} {e : Error}
    (hResult : o.result = .error e)
    (hInUse : ∀ slot, o.state.target.InUse slot ↔ s.target.InUse slot)
    (hValid : ∀ name, e ≠ .invalidFree name) : Makes s o := by
  constructor <;> intro _ h <;> rw [hResult] at h <;> cases h
  · exact hInUse
  · exact hValid

/-- A target register is made by taking it, and by nothing else. -/
theorem makes_hardware (wanted : Descriptor FileKind) (s : Supply File) :
    Makes s (hardware wanted s) := by
  cases hTake : (Target.take wanted s.target).result with
  | ok held =>
      obtain ⟨hFresh, hInUse⟩ := File.take_of_ok hTake
      have hResult : (hardware wanted s).result = .ok (.hardware (.allocated s.made) held) := by
        rw [hardware_result, hTake]
        rfl
      apply Makes.of_ok hResult
      rw [hardware_target]
      refine ⟨List.nodup_singleton _, ?_, ?_⟩
      · intro slot hSlot
        rw [List.mem_singleton.mp hSlot]
        exact hFresh
      · intro slot
        rw [or_comm]
        exact (hInUse slot).trans (or_congr_left List.mem_singleton.symm)
  | error e =>
      obtain ⟨hState, hValid⟩ := File.take_of_error hTake
      apply Makes.of_error _ _ hValid
      · rw [hardware_result, hTake]
        rfl
      · intro slot
        rw [hardware_target]
        exact Iff.of_eq (congrArg (fun t => File.InUse t slot) hState)

/-- Describing a type takes nothing. -/
theorem makes_describe_bind {ty : Ty}
    {f : Descriptor FileKind → Action (Supply File) FileKind (Register FileKind)}
    (h : ∀ descriptor, Makes s (f descriptor s)) : Makes s ((describe ty >>= f) s) := by
  cases hDescribe : File.describe s.target ty with
  | ok descriptor =>
      rw [describe_bind_of_ok hDescribe]
      exact ⟨(h descriptor).takes, (h descriptor).inUse, (h descriptor).valid⟩
  | error e =>
      rw [describe_bind_of_error hDescribe]
      refine Makes.of_error rfl (fun _ => Iff.rfl) ?_
      rw [File.describe] at hDescribe
      split at hDescribe
      · cases hDescribe
      · cases hDescribe
        exact fun name hName => by cases hName

theorem makes_placeWhole (ty : Ty) (s : Supply File) : Makes s (placeWhole ty s) :=
  makes_describe_bind fun descriptor => makes_hardware descriptor s

/-- A constant takes nothing. -/
theorem makes_placeConstant (root : Value) (literal : Literal) (s : Supply File) :
    Makes s (placeConstant root literal s) := by
  apply makes_describe_bind
  intro descriptor
  split
  · exact Makes.of_ok (constant_result _ _ s) (Takes.none fun slot => by rw [constant_target])
  · exact Makes.of_error rfl (fun _ => Iff.rfl) fun name hName => by cases hName

mutual

/-- Placing a type takes one register for each leaf, or fails and leaves the use as it was: what
was taken before the failure has been given back. -/
theorem makes_place : ∀ (ty : Ty) (s : Supply File), Makes s (place ty s)
  | .void, _ => .of_error rfl (fun _ => Iff.rfl) fun name hName => by cases hName
  | .view .., _ => .of_error rfl (fun _ => Iff.rfl) fun name hName => by cases hName
  | .scalar _, s => makes_describe_bind fun descriptor => makes_hardware descriptor s
  | .pointer .., s => makes_describe_bind fun descriptor => makes_hardware descriptor s
  | .string, s => makes_describe_bind fun descriptor => makes_hardware descriptor s
  | .padding _, s => makes_describe_bind fun _ => makes_hardware _ s
  | .struct fields, s => by
      have hFields := makes_placeFields [] fields s
      rw [place]
      cases h : (placeFields [] fields s).result with
      | error e =>
          rw [Action.bind_apply_of_error h]
          refine Makes.of_error rfl ?_ (hFields.valid e h)
          intro slot
          have hInUse := hFields.inUse e h slot
          simpa [Register.leavesList] using hInUse
      | ok children =>
          obtain ⟨made, hMade, hTakes⟩ := hFields.takes children h
          rw [Action.bind_apply_of_ok h]
          refine Makes.of_ok (compound_result fields children _) ?_
          rw [compound_target, Register.leaves, hMade]
          exact hTakes

/-- The same for the fields of a structure: if one fails, those before it are given back. -/
theorem makes_placeFields : ∀ (placed : List (Register FileKind)) (fields : List Ty)
    (s : Supply File), MakesFields s placed (placeFields placed fields s)
  | placed, [], s => by
      constructor
      · intro children h
        cases h
        exact ⟨[], by simp, Takes.none fun _ => Iff.rfl⟩
      all_goals
        intro e h
        cases h
  | placed, field :: rest, s => by
      have hField := makes_place field s
      rw [placeFields]
      cases h : (place field s).result with
      | error e =>
          have hCleaned := Action.cleaningUp_of_error (y := releaseAll placed) h
          rw [Action.bind_apply_of_error (congrArg Outcome.result hCleaned), hCleaned]
          constructor
          · intro children hChildren
            cases hChildren
          · intro e' hError slot
            dsimp only
            rw [releaseAll_state, giveUpAll_inUse, hField.inUse e h]
          · intro e' hError
            cases hError
            exact hField.valid e h
      | ok child =>
          have hKept := Action.cleaningUp_of_ok (y := releaseAll placed) h
          have hTakes := hField.takes child h
          have hRest := makes_placeFields (placed ++ [child]) rest (place field s).state
          rw [Action.bind_apply_of_ok ((congrArg Outcome.result hKept).trans h), hKept]
          constructor
          · intro children hChildren
            obtain ⟨made, hMade, hMadeTakes⟩ := hRest.takes children hChildren
            exact ⟨child :: made, by simp [hMade], hTakes.trans hMadeTakes⟩
          · intro e hError slot
            -- The new child was not in use before, so giving it up too restores the use.
            have hFresh := hTakes.fresh slot
            rw [hRest.inUse e hError slot, hTakes.inUse, Register.leavesList_append,
              Register.leavesList_singleton, slots_append, List.mem_append]
            tauto
          · exact hRest.valid

end

end Supply

end RegisterAssignment
