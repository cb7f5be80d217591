import RegisterAssignment.Proofs.Supply.Release

/-! Where registers come from. Everything in a register that the supply makes has an origin of its
own, numbered between the count before and the count after, on any target. So what is made later
has no part in common with what exists already. -/

namespace RegisterAssignment

variable {σ κ : Type}

namespace Register

mutual

def origins : Register κ → List Origin
  | .constant o .. => [o]
  | .hardware o _ => [o]
  | .compound o _ children => o :: originsList children

def originsList : List (Register κ) → List Origin
  | [] => []
  | r :: rs => origins r ++ originsList rs

end

mutual

/-- The leaves of a register as instances, each with its origin. -/
def cells : Register κ → List (Origin × Hardware κ)
  | .constant .. => []
  | .hardware o held => [(o, held)]
  | .compound _ _ children => cellsList children

def cellsList : List (Register κ) → List (Origin × Hardware κ)
  | [] => []
  | r :: rs => cells r ++ cellsList rs

end

theorem origin_mem_origins (r : Register κ) : r.origin ∈ r.origins := by
  cases r <;> simp [origin, origins]

mutual

/-- Without their origins, the instances are the leaves. -/
theorem map_snd_cells : ∀ r : Register κ, r.cells.map Prod.snd = r.leaves
  | .constant .. => rfl
  | .hardware .. => rfl
  | .compound _ _ children => map_snd_cellsList children

theorem map_snd_cellsList : ∀ rs : List (Register κ),
    (cellsList rs).map Prod.snd = leavesList rs
  | [] => rfl
  | r :: rs => by
      simp [cellsList, leavesList, map_snd_cells r, map_snd_cellsList rs]

end

mutual

/-- Each leaf has an origin of the register. -/
theorem fst_mem_origins : ∀ (r : Register κ) {cell : Origin × Hardware κ},
    cell ∈ r.cells → cell.1 ∈ r.origins
  | .constant .., _, h => by cases h
  | .hardware .., _, h => by
      rw [List.mem_singleton.mp h]
      simp [origins]
  | .compound _ _ children, _, h => List.mem_cons_of_mem _ (fst_mem_originsList children h)

theorem fst_mem_originsList : ∀ (rs : List (Register κ)) {cell : Origin × Hardware κ},
    cell ∈ cellsList rs → cell.1 ∈ originsList rs
  | [], _, h => by cases h
  | r :: rs, _, h => by
      rcases List.mem_append.mp h with hFirst | hRest
      · exact List.mem_append_left _ (fst_mem_origins r hFirst)
      · exact List.mem_append_right _ (fst_mem_originsList rs hRest)

end

end Register

/-- Origins that were given out from one count up to another. -/
def MadeBetween (first next : Nat) (origins : List Origin) : Prop :=
  ∀ o ∈ origins, ∃ n, o = .allocated n ∧ first ≤ n ∧ n < next

/-- Origins stay within wider bounds. -/
theorem MadeBetween.mono {first next first' next' : Nat} {origins : List Origin}
    (h : MadeBetween first next origins) (hFirst : first' ≤ first) (hNext : next ≤ next') :
    MadeBetween first' next' origins := by
  intro o ho
  obtain ⟨n, hOrigin, hLow, hHigh⟩ := h o ho
  exact ⟨n, hOrigin, by omega, by omega⟩

theorem MadeBetween.append {first next : Nat} {origins origins' : List Origin}
    (h : MadeBetween first next origins) (h' : MadeBetween first next origins') :
    MadeBetween first next (origins ++ origins') := by
  intro o ho
  rcases List.mem_append.mp ho with hLeft | hRight
  · exact h o hLeft
  · exact h' o hRight

theorem madeBetween_singleton {first n next : Nat} (hLow : first ≤ n) (hHigh : n < next) :
    MadeBetween first next [.allocated n] := by
  intro o ho
  exact ⟨n, List.mem_singleton.mp ho, hLow, hHigh⟩

namespace Supply

/-- The count never goes back, and a register that is made takes all its origins from it. -/
structure Numbered (s : Supply σ) (o : Outcome (Supply σ) κ (Register κ)) : Prop where
  mono : s.made ≤ o.state.made
  made : ∀ r, o.result = .ok r → MadeBetween s.made o.state.made r.origins

/-- The same for the fields of a structure, of which those in `placed` were made before. -/
structure NumberedFields (s : Supply σ) (placed : List (Register κ))
    (o : Outcome (Supply σ) κ (List (Register κ))) : Prop where
  mono : s.made ≤ o.state.made
  made : ∀ children, o.result = .ok children → ∃ new, children = placed ++ new ∧
    MadeBetween s.made o.state.made (Register.originsList new)

theorem Numbered.of_error {s : Supply σ} {o : Outcome (Supply σ) κ (Register κ)} {e : Error}
    (hResult : o.result = .error e) (hMade : o.state.made = s.made) : Numbered s o where
  mono := by omega
  made r h := by
    rw [hResult] at h
    cases h

/-- One register that takes the next origin. -/
theorem Numbered.of_next {s : Supply σ} {o : Outcome (Supply σ) κ (Register κ)} {r : Register κ}
    (hResult : o.result = .ok r) (hOrigins : r.origins = [.allocated s.made])
    (hMade : o.state.made = s.made + 1) : Numbered s o where
  mono := by omega
  made r' h := by
    rw [hResult] at h
    cases h
    rw [hOrigins, hMade]
    exact madeBetween_singleton (Nat.le_refl _) (Nat.lt_succ_self _)

theorem numbered_constant (descriptor : Descriptor κ) (literal : Literal) (s : Supply σ) :
    Numbered s (constant descriptor literal s) := by
  rw [constant_apply]
  exact .of_next rfl rfl rfl

/-- A compound takes one more origin after those of its children. -/
theorem numbered_compound {s first : Supply σ} {fields : List Ty} {children : List (Register κ)}
    (hMono : first.made ≤ s.made)
    (hMade : MadeBetween first.made s.made (Register.originsList children)) :
    Numbered first (compound fields children s) := by
  rw [compound_apply]
  constructor
  · exact Nat.le_succ_of_le hMono
  · intro r hResult
    cases hResult
    have hOwn : MadeBetween first.made (s.made + 1) [.allocated s.made] :=
      madeBetween_singleton hMono (Nat.lt_succ_self _)
    exact hOwn.append (hMade.mono (Nat.le_refl _) (Nat.le_succ _))

variable [Target σ κ]

theorem giveUp_made (held : Hardware κ) (s : Supply σ) : (giveUp held s).state.made = s.made := by
  cases h : (Target.giveBack held s.target).result with
  | ok _ =>
      rw [Outcome.state_eq (silent_giveUp_of_ok h)]
      exact tally_made _ _
  | error e => rw [Outcome.state_eq (silent_giveUp_of_error h)]

/-- Releasing registers does not touch the count, so their numbers are not given out again. -/
theorem giveUpAll_made (leaves : List (Hardware κ)) (s : Supply σ) :
    (giveUpAll leaves s).state.made = s.made := by
  induction leaves generalizing s with
  | nil => rfl
  | cons leaf rest ih => exact (ih _).trans (giveUp_made leaf s)

/-- A target register takes one number, or none if the target has none to give. -/
theorem numbered_hardware (wanted : Descriptor κ) (s : Supply σ) :
    Numbered s (hardware wanted s) := by
  cases h : (Target.take wanted s.target).result with
  | ok held =>
      have hTaken := silent_hardware_of_ok h
      refine .of_next (Outcome.result_eq hTaken) rfl ?_
      rw [Outcome.state_eq hTaken]
  | error e =>
      have hRefused := silent_hardware_of_error h
      refine .of_error (Outcome.result_eq hRefused) ?_
      rw [Outcome.state_eq hRefused]

/-- Describing a type takes no number. -/
theorem numbered_describe_bind {s : Supply σ} {ty : Ty}
    {f : Descriptor κ → Action (Supply σ) κ (Register κ)}
    (h : ∀ descriptor, Numbered s (f descriptor s)) : Numbered s ((describe ty >>= f) s) := by
  cases hDescribe : Target.describe s.target ty with
  | ok descriptor =>
      rw [describe_bind_of_ok hDescribe]
      exact ⟨(h descriptor).mono, (h descriptor).made⟩
  | error e =>
      rw [describe_bind_of_error hDescribe]
      exact .of_error rfl rfl

theorem numbered_placeWhole (ty : Ty) (s : Supply σ) : Numbered s (placeWhole ty s) :=
  numbered_describe_bind fun descriptor => numbered_hardware descriptor s

theorem numbered_placeConstant (root : Value) (literal : Literal) (s : Supply σ) :
    Numbered s (placeConstant root literal s) := by
  apply numbered_describe_bind
  intro descriptor
  split
  · exact numbered_constant descriptor literal s
  · exact .of_error rfl rfl

variable [RegisterKind κ]

mutual

/-- All that is placed for a type is numbered from the count, a structure after its fields. -/
theorem numbered_place : ∀ (ty : Ty) (s : Supply σ), Numbered s (place ty s)
  | .void, _ => .of_error rfl rfl
  | .view .., _ => .of_error rfl rfl
  | .scalar _, s => numbered_describe_bind fun descriptor => numbered_hardware descriptor s
  | .pointer .., s => numbered_describe_bind fun descriptor => numbered_hardware descriptor s
  | .string, s => numbered_describe_bind fun descriptor => numbered_hardware descriptor s
  | .padding _, s => numbered_describe_bind fun _ => numbered_hardware _ s
  | .struct fields, s => by
      have hFields := numbered_placeFields [] fields s
      rw [place]
      cases h : (placeFields [] fields s).result with
      | error e =>
          rw [Action.bind_apply_of_error h]
          exact ⟨hFields.mono, fun r hResult => by cases hResult⟩
      | ok children =>
          obtain ⟨new, hChildren, hMade⟩ := hFields.made children h
          rw [List.nil_append] at hChildren
          subst hChildren
          rw [Action.bind_apply_of_ok h]
          exact ⟨(numbered_compound hFields.mono hMade).mono,
            (numbered_compound hFields.mono hMade).made⟩

/-- The same for the fields of a structure, after those that were placed before. -/
theorem numbered_placeFields : ∀ (placed : List (Register κ)) (fields : List Ty) (s : Supply σ),
    NumberedFields s placed (placeFields placed fields s)
  | placed, [], s => by
      refine ⟨Nat.le_refl _, ?_⟩
      intro children h
      cases h
      exact ⟨[], by simp, fun o ho => by cases ho⟩
  | placed, field :: rest, s => by
      have hField := numbered_place field s
      rw [placeFields]
      cases h : (place field s).result with
      | error e =>
          have hCleaned := Action.cleaningUp_of_error (y := releaseAll placed) h
          rw [Action.bind_apply_of_error (congrArg Outcome.result hCleaned), hCleaned]
          refine ⟨?_, fun children hResult => by cases hResult⟩
          dsimp only
          rw [releaseAll_state, giveUpAll_made]
          exact hField.mono
      | ok child =>
          have hKept := Action.cleaningUp_of_ok (y := releaseAll placed) h
          have hRest := numbered_placeFields (placed ++ [child]) rest (place field s).state
          rw [Action.bind_apply_of_ok ((congrArg Outcome.result hKept).trans h), hKept]
          refine ⟨Nat.le_trans hField.mono hRest.mono, ?_⟩
          intro children hResult
          obtain ⟨new, hChildren, hMade⟩ := hRest.made children hResult
          refine ⟨child :: new, by simp [hChildren], ?_⟩
          have hChild := (hField.made child h).mono (Nat.le_refl _) hRest.mono
          exact hChild.append (hMade.mono hField.mono (Nat.le_refl _))

end

end Supply

end RegisterAssignment
