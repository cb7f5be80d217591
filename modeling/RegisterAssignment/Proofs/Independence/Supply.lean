import RegisterAssignment.Proofs.File.InUse
import RegisterAssignment.Proofs.Independence.Outline
import RegisterAssignment.Target.Virtual

/-! The same actions on a register file and on virtual registers. As long as the register file does
not run out of registers, both targets answer alike: they describe the same types in the same way,
and the register file takes back whatever is in use. -/

namespace RegisterAssignment

section Matches

variable {σ σ' κ κ' α α' β β' γ γ' : Type}

/-- Results that agree through two maps are one error, or values that agree through them. -/
theorem cases_of_map_eq_map {f : α → γ} {g : β → γ} {x : Except Error α} {y : Except Error β}
    (h : x.map f = y.map g) :
    (∃ e, x = .error e ∧ y = .error e) ∨ ∃ a b, x = .ok a ∧ y = .ok b ∧ f a = g b := by
  cases x with
  | error e =>
      cases y with
      | error e' => exact .inl ⟨e, rfl, by cases h; rfl⟩
      | ok b => cases h
  | ok a =>
      cases y with
      | error e' => cases h
      | ok b => exact .inr ⟨a, b, rfl, rfl, Except.ok.inj h⟩

/-- Results that agree still do after what follows, if that makes agreeing results of agreeing
values. -/
theorem map_bind_eq_map_bind {f : α → γ} {g : β → γ} {f' : α' → γ'} {g' : β' → γ'}
    {x : Except Error α} {y : Except Error β} {k : α → Except Error α'} {k' : β → Except Error β'}
    (h : x.map f = y.map g) (hNext : ∀ a b, f a = g b → (k a).map f' = (k' b).map g') :
    (x >>= k).map f' = (y >>= k').map g' := by
  rcases cases_of_map_eq_map h with ⟨e, rfl, rfl⟩ | ⟨a, b, rfl, rfl, hSame⟩
  · rfl
  · exact hNext a b hSame

/-- Unless the first of two outcomes is that a register file has no register left, their results
look the same under `f` and `g`, errors included, and their states are related. -/
def Matches (T : σ → σ' → Prop) (f : α → γ) (g : β → γ) (o : Outcome σ κ α) (o' : Outcome σ' κ' β) :
    Prop :=
  (∀ kind capacity, o.result ≠ .error (.exhausted kind capacity)) →
    o.result.map f = o'.result.map g ∧ T o.state o'.state

variable {T : σ → σ' → Prop} {f : α → γ} {g : β → γ} {f' : α' → γ'} {g' : β' → γ'}

/-- The three ways in which two outcomes can match. -/
theorem Matches.cases {o : Outcome σ κ α} {o' : Outcome σ' κ' β} (h : Matches T f g o o') :
    (∃ kind capacity, o.result = .error (.exhausted kind capacity)) ∨
    (∃ e, o.result = .error e ∧ o'.result = .error e ∧ T o.state o'.state) ∨
    ∃ a b, o.result = .ok a ∧ o'.result = .ok b ∧ f a = g b ∧ T o.state o'.state := by
  by_cases hOut : ∃ kind capacity, o.result = .error (.exhausted kind capacity)
  · exact .inl hOut
  · obtain ⟨hResult, hState⟩ := h fun kind capacity hResult => hOut ⟨kind, capacity, hResult⟩
    rcases cases_of_map_eq_map hResult with ⟨e, ho, ho'⟩ | ⟨a, b, ho, ho', hSame⟩
    · exact .inr (.inl ⟨e, ho, ho', hState⟩)
    · exact .inr (.inr ⟨a, b, ho, ho', hSame, hState⟩)

theorem Matches.of_silent {o : Outcome σ κ α} {o' : Outcome σ' κ' β}
    (h : Matches T f g o.silent o'.silent) : Matches T f g o o' := h

/-- Outcomes that match still do if both values are changed alike. -/
theorem Matches.map {o : Outcome σ κ α} {o' : Outcome σ' κ' β} {k : α → α'} {k' : β → β'}
    (h : Matches T f g o o') (hNext : ∀ a b, f a = g b → f' (k a) = g' (k' b)) :
    Matches T f' g' (o.map k) (o'.map k') := by
  intro hRoom
  rcases h.cases with ⟨kind, capacity, hOut⟩ | ⟨e, ho, ho', hState⟩ | ⟨a, b, ho, ho', hSame, hState⟩
  · exact absurd (by simp only [Outcome.map, hOut, Except.map]) (hRoom kind capacity)
  · exact ⟨by simp only [Outcome.map, ho, ho', Except.map], hState⟩
  · exact ⟨by simp only [Outcome.map, ho, ho', Except.map, hNext a b hSame], hState⟩

variable {x : Action σ κ α} {y : Action σ' κ' β} {state : σ} {state' : σ'}

theorem matches_fail (h : T state state') (e : Error) :
    Matches T f g (Action.fail e state : Outcome σ κ α) (Action.fail e state' : Outcome σ' κ' β) :=
  fun _ => ⟨rfl, h⟩

/-- Actions that go on in a matching way after matching ones. -/
theorem Matches.bind {k : α → Action σ κ α'} {k' : β → Action σ' κ' β'}
    (h : Matches T f g (x state) (y state'))
    (hNext : ∀ a b, f a = g b → (x state).result = .ok a → T (x state).state (y state').state →
      Matches T f' g' (k a (x state).state) (k' b (y state').state)) :
    Matches T f' g' ((x >>= k) state) ((y >>= k') state') := by
  intro hRoom
  rcases h.cases with ⟨kind, capacity, hOut⟩ | ⟨e, hx, hy, hState⟩ | ⟨a, b, hx, hy, hSame, hState⟩
  · exact absurd (by rw [Action.bind_apply_of_error hOut]) (hRoom kind capacity)
  · rw [Action.bind_apply_of_error hx, Action.bind_apply_of_error hy]
    exact ⟨rfl, hState⟩
  · rw [Action.bind_apply_of_ok hx] at hRoom ⊢
    rw [Action.bind_apply_of_ok hy]
    exact hNext a b hSame hx hState hRoom

/-- Actions that match, with what cleans up after them. -/
theorem Matches.cleaningUp {c : Action σ κ Unit} {c' : Action σ' κ' Unit}
    (h : Matches T f g (x state) (y state'))
    (hClean : ∀ e, (x state).result = .error e → T (x state).state (y state').state →
      T (c (x state).state).state (c' (y state').state).state) :
    Matches T f g (x.cleaningUp c state) (y.cleaningUp c' state') := by
  intro hRoom
  rcases h.cases with ⟨kind, capacity, hOut⟩ | ⟨e, hx, hy, hState⟩ | ⟨a, b, hx, hy, hSame, hState⟩
  · exact absurd (by rw [Action.cleaningUp_of_error hOut]) (hRoom kind capacity)
  · rw [Action.cleaningUp_of_error hx, Action.cleaningUp_of_error hy]
    exact ⟨rfl, hClean e hx hState⟩
  · rw [Action.cleaningUp_of_ok hx, Action.cleaningUp_of_ok hy, hx, hy]
    exact ⟨congrArg Except.ok hSame, hState⟩

end Matches

namespace File

variable {t t' : File} {leaves leaves' : List (Hardware FileKind)}

/-- Target registers that are all different and all in use. -/
structure Holds (t : File) (leaves : List (Hardware FileKind)) : Prop where
  nodup : (slots leaves).Nodup
  inUse : ∀ slot ∈ slots leaves, t.InUse slot

theorem holds_nil (t : File) : t.Holds [] :=
  ⟨List.nodup_nil, fun _ hSlot => by cases hSlot⟩

/-- In which order target registers are listed does not matter. -/
theorem Holds.perm (h : t.Holds leaves) (hPerm : leaves.Perm leaves') : t.Holds leaves' where
  nodup := (hPerm.map Hardware.slot).nodup_iff.mp h.nodup
  inUse slot hSlot := h.inUse slot ((hPerm.map Hardware.slot).mem_iff.mpr hSlot)

/-- What else is in use does not matter. -/
theorem Holds.mono (h : t.Holds leaves) (hMono : ∀ slot, t.InUse slot → t'.InUse slot) :
    t'.Holds leaves where
  nodup := h.nodup
  inUse slot hSlot := hMono slot (h.inUse slot hSlot)

/-- What is taken joins what is held. -/
theorem Holds.takes (h : t.Holds leaves) (hTakes : Takes t t' leaves') :
    t'.Holds (leaves ++ leaves') := by
  constructor
  · rw [slots_append]
    apply h.nodup.append hTakes.nodup
    intro slot hOld hNew
    exact hTakes.fresh slot hNew (h.inUse slot hOld)
  · intro slot hSlot
    rw [slots_append, List.mem_append] at hSlot
    apply (hTakes.inUse slot).mpr
    rcases hSlot with hOld | hNew
    · exact .inl (h.inUse slot hOld)
    · exact .inr hNew

/-- A part of what is held is held, and apart from the rest. -/
theorem Holds.of_append (h : t.Holds (leaves ++ leaves')) :
    t.Holds leaves ∧ ∀ slot ∈ slots leaves', slot ∉ slots leaves ∧ t.InUse slot := by
  have hNodup := h.nodup
  rw [slots_append, List.nodup_append'] at hNodup
  obtain ⟨hFirst, _, hApart⟩ := hNodup
  refine ⟨⟨hFirst, fun slot hSlot => h.inUse slot (by simp [hSlot])⟩, ?_⟩
  intro slot hSlot
  exact ⟨fun hOther => hApart hOther hSlot, h.inUse slot (by simp [hSlot])⟩

/-- What is given up leaves the rest in use. -/
theorem Holds.giveUpAll {s : Supply File} (h : s.target.Holds (leaves ++ leaves')) :
    (Supply.giveUpAll leaves s).state.target.Holds leaves' := by
  have hNodup := h.nodup
  rw [slots_append] at hNodup
  refine ⟨hNodup.of_append_right, ?_⟩
  intro slot hSlot
  obtain ⟨hOther, hInUse⟩ := h.of_append.2 slot hSlot
  exact (Supply.giveUpAll_inUse leaves s slot).mpr ⟨hInUse, hOther⟩

@[simp] theorem setPool_pointerWidth (t : File) (kind : FileKind) (p : Pool) :
    (t.setPool kind p).pointerWidth = t.pointerWidth := by
  cases kind <;> rfl

@[simp] theorem take_pointerWidth (wanted : Descriptor FileKind) (t : File) :
    (take wanted t).state.pointerWidth = t.pointerWidth := by
  rw [take]
  split <;> simp

@[simp] theorem giveBack_pointerWidth (held : Hardware FileKind) (t : File) :
    (giveBack held t).state.pointerWidth = t.pointerWidth := by
  rw [giveBack]
  split <;> simp

/-- A register file hands out exactly what is asked for, or has none left. -/
theorem take_result (wanted : Descriptor FileKind) (t : File) :
    (∃ i, (take wanted t).result = .ok ⟨wanted, i⟩) ∨
      ∃ kind capacity, (take wanted t).result = .error (.exhausted kind capacity) := by
  rw [take]
  split
  next i rest _ => exact .inl ⟨i, rfl⟩
  next => exact .inr ⟨_, _, rfl⟩

end File

namespace Supply

open Register (outline)

/-- A register file and virtual registers of one pointer width, after as many registers made and
with the same counters. -/
structure Twin (s : Supply File) (s' : Supply Virtual) : Prop where
  width : s.target.pointerWidth = s'.target.pointerWidth
  made : s.made = s'.made
  counting : s.counting = s'.counting
  stats : s.stats = s'.stats

variable {s : Supply File} {s' : Supply Virtual}

theorem Twin.tally (h : Twin s s') (f : Stats → Stats) : Twin (s.tally f) (s'.tally f) where
  width := by simp [h.width]
  made := by simp [h.made]
  counting := by simp [h.counting]
  stats := by simp [h.counting, h.stats]

/-- A register is made and counted on both sides. -/
theorem Twin.count (h : Twin s s') (f : Stats → Stats) :
    Twin { s.tally f with made := s.made + 1 } { s'.tally f with made := s'.made + 1 } :=
  ⟨(h.tally f).width, congrArg (· + 1) h.made, (h.tally f).counting, (h.tally f).stats⟩

/-- Twins stay twins while their targets keep the width of pointers. -/
theorem Twin.retarget (h : Twin s s') {t : File} {t' : Virtual}
    (hFile : t.pointerWidth = s.target.pointerWidth)
    (hVirtual : t'.pointerWidth = s'.target.pointerWidth) :
    Twin { s with target := t } { s' with target := t' } :=
  ⟨hFile.trans (h.width.trans hVirtual.symm), h.made, h.counting, h.stats⟩

/-- One target register is given up on both sides. -/
theorem Twin.giveUp (h : Twin s s') {leaf : Hardware FileKind} (leaf' : Hardware VirtualKind)
    (hInUse : s.target.InUse leaf.slot) : Twin (giveUp leaf s).state (giveUp leaf' s').state := by
  have hTaken : (Target.giveBack leaf s.target).result = .ok () := File.giveBack_of_inUse hInUse
  have hTarget : Twin { s with target := (File.giveBack leaf s.target).state }
      { s' with target := (Virtual.giveBack leaf' s'.target).state } :=
    h.retarget (File.giveBack_pointerWidth leaf s.target) rfl
  rw [Outcome.state_eq (silent_giveUp_of_ok hTaken),
    Outcome.state_eq (silent_giveUp_of_ok (s := s') rfl)]
  exact hTarget.tally fun stats => { stats with hardwareFreed := stats.hardwareFreed + 1 }

/-- Equally many target registers are given up on both sides. -/
theorem Twin.giveUpAll (h : Twin s s') {leaves : List (Hardware FileKind)}
    {leaves' : List (Hardware VirtualKind)} (hHolds : s.target.Holds leaves)
    (hLength : leaves.length = leaves'.length) :
    Twin (giveUpAll leaves s).state (giveUpAll leaves' s').state := by
  induction leaves generalizing leaves' s s' with
  | nil =>
      cases leaves' with
      | nil => exact h
      | cons _ _ => cases hLength
  | cons leaf rest ih =>
      cases leaves' with
      | nil => cases hLength
      | cons leaf' rest' =>
          have hSplit : s.target.Holds ([leaf] ++ rest) := hHolds
          have hFirst := h.giveUp leaf' (hHolds.inUse leaf.slot (by simp))
          exact ih hFirst hSplit.giveUpAll (Nat.succ.inj hLength)

/-- Virtual registers are always taken back. -/
theorem giveUpAll_virtual (leaves : List (Hardware VirtualKind)) (s : Supply Virtual) :
    (giveUpAll leaves s).result = .ok () := by
  induction leaves generalizing s with
  | nil => rfl
  | cons leaf rest ih => exact ih _

/-- The two targets represent every type alike, or both refuse it. -/
theorem matches_describe (h : Twin s s') (ty : Ty) :
    Matches Twin Descriptor.outline Descriptor.outline (describe ty s) (describe ty s') := by
  intro _
  refine ⟨?_, h⟩
  change (File.describe s.target ty).map _ = (Virtual.describe s'.target ty).map _
  rw [File.describe, Virtual.describe, h.width]
  cases s'.target.pointerWidth.represent? ty <;> rfl

/-- While the file has a register left, both hand one out. The outline forgets the numbers. -/
theorem matches_hardware (h : Twin s s') {wanted : Descriptor FileKind}
    {wanted' : Descriptor VirtualKind} (hWanted : wanted.outline = wanted'.outline) :
    Matches Twin outline outline (hardware wanted s) (hardware wanted' s') := by
  intro hRoom
  rcases File.take_result wanted s.target with ⟨i, hTaken⟩ | ⟨kind, capacity, hOut⟩
  · have hFile := silent_hardware_of_ok (s := s) hTaken
    have hVirtual : (hardware wanted' s').silent = _ := silent_hardware_of_ok rfl
    have hTarget : Twin { s with target := (File.take wanted s.target).state }
        { s' with target := (Virtual.take wanted' s'.target).state } :=
      h.retarget (File.take_pointerWidth wanted s.target) rfl
    constructor
    · rw [Outcome.result_eq hFile, Outcome.result_eq hVirtual]
      simp only [Except.map, outline, Register.map, Hardware.outline, hWanted, h.made]
    · rw [Outcome.state_eq hFile, Outcome.state_eq hVirtual]
      exact hTarget.count fun stats =>
        { stats with hardwareAllocated := stats.hardwareAllocated + 1 }
  · exact absurd (Outcome.result_eq (silent_hardware_of_error (s := s) hOut)) (hRoom kind capacity)

/-- Constants involve no target. -/
theorem matches_constant (h : Twin s s') {descriptor : Descriptor FileKind}
    {descriptor' : Descriptor VirtualKind} (hSame : descriptor.outline = descriptor'.outline)
    (literal : Literal) :
    Matches Twin outline outline (constant descriptor literal s)
      (constant descriptor' literal s') := by
  intro _
  rw [constant_apply, constant_apply]
  refine ⟨?_, h.count _⟩
  simp only [Except.map, outline, Register.map, hSame, h.made]

/-- Compounds of children with the same outlines have the same outline. -/
theorem matches_compound (h : Twin s s') (fields : List Ty) {children : List (Register FileKind)}
    {children' : List (Register VirtualKind)}
    (hSame : children.map outline = children'.map outline) :
    Matches Twin outline outline (compound fields children s) (compound fields children' s') := by
  intro _
  rw [compound_apply, compound_apply]
  refine ⟨?_, h.count _⟩
  simp only [Except.map, Register.outline_compound, hSame, h.made]

theorem matches_placeWhole (h : Twin s s') (ty : Ty) :
    Matches Twin outline outline (placeWhole ty s) (placeWhole ty s') :=
  (matches_describe h ty).bind fun _ _ hSame _ hTwin => matches_hardware hTwin hSame

/-- Whether a literal fits is decided alike on both. -/
theorem matches_placeConstant (h : Twin s s') (root : Value) (literal : Literal) :
    Matches Twin outline outline (placeConstant root literal s)
      (placeConstant root literal s') := by
  apply (matches_describe h root.ty).bind
  intro descriptor descriptor' hSame _ hTwin
  have hBasic : descriptor.basic = descriptor'.basic := congrArg Descriptor.basic hSame
  rw [hBasic]
  split
  · exact matches_constant hTwin hSame literal
  · exact matches_fail hTwin _

mutual

/-- A type is placed on both sides in registers of one outline, or fails with one error. -/
theorem matches_place : ∀ (ty : Ty) {s : Supply File} {s' : Supply Virtual}, Twin s s' →
    Matches Twin outline outline (place ty s) (place ty s')
  | .void, _, _, h => matches_fail h _
  | .view .., _, _, h => matches_fail h _
  | .scalar _, _, _, h => matches_placeWhole h _
  | .pointer .., _, _, h => matches_placeWhole h _
  | .string, _, _, h => matches_placeWhole h _
  | .padding scalar, _, _, h => by
      apply (matches_describe h (.scalar scalar)).bind
      intro descriptor descriptor' hSame _ hTwin
      have hBasic : descriptor.basic = descriptor'.basic := congrArg Descriptor.basic hSame
      apply matches_hardware hTwin
      simp only [Descriptor.outline, hBasic]
  | .struct fields, s, s', h => by
      have hFields : Matches Twin (List.map outline) (List.map outline) (placeFields [] fields s)
          (placeFields [] fields s') := matches_placeFields fields h rfl (File.holds_nil _)
      rw [place, place]
      apply hFields.bind
      intro children children' hSame _ hTwin
      exact matches_compound hTwin fields hSame

/-- If a field cannot be placed, those before it are released on both sides: on the register file
they are all in use, so none is refused. -/
theorem matches_placeFields : ∀ (fields : List Ty) {s : Supply File} {s' : Supply Virtual}
    {placed : List (Register FileKind)} {placed' : List (Register VirtualKind)}, Twin s s' →
    placed.map outline = placed'.map outline → s.target.Holds (Register.leavesList placed) →
    Matches Twin (List.map outline) (List.map outline) (placeFields placed fields s)
      (placeFields placed' fields s')
  | [], s, s', placed, placed', h, hSame, _ => fun _ => ⟨congrArg Except.ok hSame, h⟩
  | field :: rest, s, s', placed, placed', h, hSame, hHolds => by
      have hMakes := makes_place field s
      rw [placeFields, placeFields]
      apply Matches.bind (f := outline) (g := outline)
      · apply (matches_place field h).cleaningUp
        intro e hError hTwin
        -- The failed field has left the use as it was, so what was placed before is still in use.
        rw [releaseAll_state, releaseAll_state]
        apply hTwin.giveUpAll (hHolds.mono fun slot => (hMakes.inUse e hError slot).mpr)
        exact Register.length_leavesList_of_outline hSame
      · intro child child' hChild hResult hTwin
        have hPlaced : (place field s).result = .ok child := Action.result_of_cleaningUp hResult
        rw [Action.cleaningUp_of_ok hPlaced] at hTwin ⊢
        apply matches_placeFields rest hTwin
        · simp only [List.map_append, List.map_cons, List.map_nil, hSame, hChild]
        · rw [Register.leavesList_append, Register.leavesList_singleton]
          exact hHolds.takes (hMakes.takes child hPlaced)

end

end Supply

end RegisterAssignment
