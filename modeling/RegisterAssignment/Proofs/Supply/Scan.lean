import RegisterAssignment.Proofs.Supply.Offers

/-! Placing a type against a flat scan of its leaves. The scan asks the target for one register
after the other and stops at the first that cannot be had; it knows nothing of structures and gives
nothing back. Placing makes the calls of the scan, in the same order. If the scan gets to its end,
no other call is made; if it stops, everything that it has taken is offered to the target again,
once, and its error is the error of placing. -/

namespace RegisterAssignment

variable {σ κ : Type}

namespace Ty

mutual

/-- What remains of a type when its structures are taken apart, depth first and in field order. What
a pointer or a view points to is no part of the type. -/
def leaves : Ty → List Ty
  | .struct fields => leavesList fields
  | .void => [.void]
  | .scalar s => [.scalar s]
  | .pointer element space => [.pointer element space]
  | .string => [.string]
  | .padding s => [.padding s]
  | .view element space => [.view element space]

def leavesList : List Ty → List Ty
  | [] => []
  | field :: rest => leaves field ++ leavesList rest

end

mutual

/-- How many structures a type is made of, itself included. -/
def structs : Ty → Nat
  | .struct fields => structsList fields + 1
  | .void | .scalar _ | .pointer .. | .string | .padding _ | .view .. => 0

def structsList : List Ty → Nat
  | [] => 0
  | field :: rest => structs field + structsList rest

end

end Ty

section Scan

variable [Target σ κ]

/-- Asks a target to describe a type, and then for a register for what is wanted in view of that. -/
def acquireAs (ty : Ty) (wanted : Descriptor κ → Descriptor κ) : Action σ κ (Hardware κ) := fun t =>
  match Target.describe t ty with
  | .error e => ⟨.error e, t, [.describe ty (.error e)], []⟩
  | .ok described =>
    let reply := Target.take (wanted described) t
    ⟨reply.result, reply.state,
      [.describe ty (.ok described), .take (wanted described) reply.result], reply.log⟩

/-- Acquires the register for a leaf. Padding is described as the scalar that it is made of, and is
wanted under its own type. A type without a register of its own is refused before any call. -/
def acquire : Ty → Action σ κ (Hardware κ)
  | .scalar s => acquireAs (.scalar s) id
  | .pointer element space => acquireAs (.pointer element space) id
  | .string => acquireAs .string id
  | .padding s =>
    acquireAs (.scalar s) fun described => ⟨.padding s, described.basic, described.kind⟩
  | .void => Action.fail (Ty.unsupported .void)
  | .struct fields => Action.fail (Ty.unsupported (.struct fields))
  | .view element space => Action.fail (Ty.unsupported (.view element space))

/-- Acquires the registers for leaves one after the other, up to the first that cannot be had. What
was acquired until then stays with the caller. -/
def acquireAll : List Ty → Action σ κ (List (Hardware κ))
  | [] => return []
  | leaf :: rest => do
    let held ← acquire leaf
    let more ← acquireAll rest
    return held :: more

theorem acquireAs_of_describe_error {ty : Ty} {wanted : Descriptor κ → Descriptor κ} {t : σ}
    {e : Error} (h : Target.describe t ty = .error e) :
    acquireAs ty wanted t = ⟨.error e, t, [.describe ty (.error e)], []⟩ := by
  simp only [acquireAs, h]

theorem acquireAs_of_describe_ok {ty : Ty} {wanted : Descriptor κ → Descriptor κ} {t : σ}
    {d : Descriptor κ} (h : Target.describe t ty = .ok d) :
    acquireAs ty wanted t = ⟨(Target.take (wanted d) t).result, (Target.take (wanted d) t).state,
      [.describe ty (.ok d), .take (wanted d) (Target.take (wanted d) t).result],
      (Target.take (wanted d) t).log⟩ := by
  simp only [acquireAs, h]

/-- What is acquired was described and then handed out for what was wanted. -/
theorem acquireAs_ok {ty : Ty} {wanted : Descriptor κ → Descriptor κ} {t : σ} {held : Hardware κ}
    (h : (acquireAs ty wanted t).result = .ok held) :
    ∃ d, Target.describe t ty = .ok d ∧ (Target.take (wanted d) t).result = .ok held := by
  cases hDescribe : Target.describe t ty with
  | error e =>
      rw [acquireAs_of_describe_error hDescribe] at h
      cases h
  | ok d =>
      rw [acquireAs_of_describe_ok hDescribe] at h
      exact ⟨d, rfl, h⟩

/-- A scan goes on after each leaf that it acquires. -/
theorem acquireAll_cons_of_ok {leaf : Ty} {t : σ} {held : Hardware κ}
    (h : (acquire leaf t).result = .ok held) (rest : List Ty) :
    acquireAll (leaf :: rest) t =
      let first := acquire leaf t
      let later := acquireAll rest first.state
      ⟨later.result.map fun more => held :: more, later.state, first.calls ++ later.calls,
        first.log ++ later.log⟩ := by
  have hLater :=
    Action.map_apply (fun more => held :: more) (acquireAll rest) (acquire leaf t).state
  rw [acquireAll, Action.bind_apply_of_ok h]
  exact congrArg (fun o : Outcome σ κ (List (Hardware κ)) => Outcome.mk o.result o.state
    ((acquire leaf t).calls ++ o.calls) ((acquire leaf t).log ++ o.log)) hLater

/-- A scan stops at the first leaf that it cannot acquire, and gives nothing back. -/
theorem acquireAll_cons_of_error {leaf : Ty} {t : σ} {e : Error}
    (h : (acquire leaf t : Outcome σ κ (Hardware κ)).result = .error e) (rest : List Ty) :
    acquireAll (leaf :: rest) t =
      ⟨.error e, (acquire leaf t).state, (acquire leaf t).calls, (acquire leaf t).log⟩ := by
  rw [acquireAll, Action.bind_apply_of_error h]

/-- A scan that succeeds has acquired its first leaf and then the others. -/
theorem acquireAll_cons_ok {leaf : Ty} {rest : List Ty} {t : σ} {held : List (Hardware κ)}
    (h : (acquireAll (leaf :: rest) t).result = .ok held) :
    ∃ one more, (acquire leaf t).result = .ok one ∧
      (acquireAll rest (acquire leaf t).state).result = .ok more ∧ held = one :: more := by
  obtain ⟨one, hOne, hLater, _⟩ := Action.ok_of_bind h
  obtain ⟨more, hMore, hHeld, _⟩ := Action.ok_of_bind hLater
  exact ⟨one, more, hOne, hMore, (Except.ok.inj hHeld).symm⟩

/-- A scan that fails has failed at its first leaf or later. -/
theorem acquireAll_cons_error {leaf : Ty} {rest : List Ty} {t : σ} {e : Error}
    (h : (acquireAll (leaf :: rest) t : Outcome σ κ _).result = .error e) :
    (acquire leaf t : Outcome σ κ _).result = .error e ∨
      ∃ one, (acquire leaf t).result = .ok one ∧
        (acquireAll rest (acquire leaf t).state : Outcome σ κ _).result = .error e := by
  cases hLeaf : (acquire leaf t).result with
  | error e' =>
      rw [acquireAll_cons_of_error hLeaf] at h
      cases h
      exact .inl rfl
  | ok one =>
      rw [acquireAll_cons_of_ok hLeaf] at h
      dsimp only at h
      cases hRest : (acquireAll rest (acquire leaf t).state).result with
      | ok more =>
          rw [hRest] at h
          cases h
      | error e' =>
          rw [hRest] at h
          cases h
          exact .inr ⟨one, rfl, rfl⟩

theorem acquireAll_singleton (leaf : Ty) (t : σ) :
    acquireAll [leaf] t = (acquire leaf t).map fun held => [held] := by
  cases h : (acquire leaf t).result with
  | ok held =>
      rw [acquireAll_cons_of_ok h]
      simp [acquireAll, Outcome.map, h, Except.map]
  | error e =>
      rw [acquireAll_cons_of_error h, Outcome.map, h]
      rfl

/-- A scan of two lists of leaves is a scan of the first and, if that gets to its end, of the
second. -/
theorem acquireAll_append (leaves leaves' : List Ty) :
    (acquireAll (leaves ++ leaves') : Action σ κ (List (Hardware κ))) =
      acquireAll leaves >>= fun held => (fun more => held ++ more) <$> acquireAll leaves' := by
  induction leaves with
  | nil =>
      change _ = id <$> acquireAll leaves'
      funext t
      rw [Action.map_apply, Outcome.map, Except.map_id]
      rfl
  | cons leaf rest ih =>
      rw [List.cons_append, acquireAll, acquireAll, ih, Action.bind_assoc]
      congr 1
      funext held
      rw [Action.bind_assoc, Action.bind_assoc]
      congr 1
      funext more
      exact Action.bind_assoc (acquireAll leaves') _ _

theorem acquireAll_append_of_ok {leaves : List Ty} {t : σ} {held : List (Hardware κ)}
    (h : (acquireAll leaves t).result = .ok held) (leaves' : List Ty) :
    acquireAll (leaves ++ leaves') t =
      let first := acquireAll leaves t
      let second := acquireAll leaves' first.state
      ⟨second.result.map fun more => held ++ more, second.state, first.calls ++ second.calls,
        first.log ++ second.log⟩ := by
  rw [acquireAll_append, Action.bind_apply_of_ok h, Action.map_apply]
  rfl

/-- What comes after the leaf where a scan stops makes no difference. -/
theorem acquireAll_append_of_error {leaves : List Ty} {t : σ} {e : Error}
    (h : (acquireAll leaves t).result = .error e) (leaves' : List Ty) :
    acquireAll (leaves ++ leaves') t = acquireAll leaves t := by
  rw [acquireAll_append, Action.bind_apply_of_error h, ← h]

/-- What is taken for a leaf is what is acquired for it, and nothing is offered back. -/
theorem calls_acquireAs (ty : Ty) (wanted : Descriptor κ → Descriptor κ) (t : σ) :
    takenIn (acquireAs ty wanted t).calls = (acquireAs ty wanted t).result.toOption.toList ∧
      offeredIn (acquireAs ty wanted t).calls = [] := by
  cases hDescribe : Target.describe t ty with
  | error e =>
      rw [acquireAs_of_describe_error hDescribe]
      exact ⟨rfl, rfl⟩
  | ok d =>
      rw [acquireAs_of_describe_ok hDescribe]
      cases (Target.take (wanted d) t).result <;> exact ⟨rfl, rfl⟩

theorem calls_acquire (leaf : Ty) (t : σ) :
    takenIn (acquire leaf t).calls = (acquire leaf t).result.toOption.toList ∧
      offeredIn (acquire leaf t).calls = [] := by
  cases leaf with
  | scalar _ | pointer _ _ | string | padding _ => exact calls_acquireAs _ _ t
  | void | struct _ | view _ _ => exact ⟨rfl, rfl⟩

/-- A scan gives nothing back. -/
theorem offeredIn_acquireAll (leaves : List Ty) (t : σ) :
    offeredIn (acquireAll leaves t).calls = [] := by
  induction leaves generalizing t with
  | nil => rfl
  | cons leaf rest ih =>
      have hLeaf := (calls_acquire leaf t).2
      cases h : (acquire leaf t).result with
      | ok held =>
          rw [acquireAll_cons_of_ok h, offeredIn_append, hLeaf]
          exact ih _
      | error e =>
          rw [acquireAll_cons_of_error h]
          exact hLeaf

/-- A scan that gets to its end returns what the target has handed out. -/
theorem takenIn_acquireAll {leaves : List Ty} {t : σ} {held : List (Hardware κ)}
    (h : (acquireAll leaves t).result = .ok held) : takenIn (acquireAll leaves t).calls = held := by
  induction leaves generalizing t held with
  | nil =>
      cases h
      rfl
  | cons leaf rest ih =>
      obtain ⟨one, more, hOne, hMore, rfl⟩ := acquireAll_cons_ok h
      rw [acquireAll_cons_of_ok hOne, takenIn_append, (calls_acquire leaf t).1, hOne, ih hMore]
      rfl

/-- It returns a register for each leaf, in order. What is known of every register that is acquired
for a leaf is known of each of them. -/
theorem map_acquireAll {γ : Type} {f : Hardware κ → γ} {g : Ty → γ} {leaves : List Ty} {t : σ}
    {held : List (Hardware κ)}
    (hLeaf : ∀ leaf (t : σ) one, (acquire leaf t).result = .ok one → f one = g leaf)
    (h : (acquireAll leaves t).result = .ok held) : held.map f = leaves.map g := by
  induction leaves generalizing t held with
  | nil =>
      cases h
      rfl
  | cons leaf rest ih =>
      obtain ⟨one, more, hOne, hMore, rfl⟩ := acquireAll_cons_ok h
      rw [List.map_cons, List.map_cons, hLeaf leaf t one hOne, ih hMore]

end Scan

namespace Supply

/-- A supply that has made this many registers for leaves and this many compounds, and whose target
has come to `t` on the way. -/
def grown (s : Supply σ) (t : σ) (hardware compounds : Nat) : Supply σ where
  target := t
  made := s.made + hardware + compounds
  counting := s.counting
  stats := if s.counting then
      { s.stats with
        hardwareAllocated := s.stats.hardwareAllocated + hardware
        compoundsBuilt := s.stats.compoundsBuilt + compounds }
    else s.stats

theorem grown_zero (s : Supply σ) : s.grown s.target 0 0 = s := by
  obtain ⟨target, made, counting, stats⟩ := s
  cases counting <;> rfl

/-- Growth adds up. -/
theorem grown_grown (s : Supply σ) (t t' : σ) (hardware hardware' compounds compounds' : Nat) :
    (s.grown t hardware compounds).grown t' hardware' compounds' =
      s.grown t' (hardware + hardware') (compounds + compounds') := by
  cases hCounting : s.counting <;> simp [grown, hCounting] <;> omega

variable [Target σ κ]

/-- How placing a type ends, given how a scan of its leaves ends. -/
structure Places (s : Supply σ) (ty : Ty) (scan : Outcome σ κ (List (Hardware κ)))
    (o : Outcome (Supply σ) κ (Register κ)) : Prop where
  complete : ∀ held, scan.result = .ok held → ∃ r, o.result = .ok r ∧ r.leaves = held ∧
    o.calls = scan.calls ∧ o.state = s.grown scan.state ty.leaves.length ty.structs
  undone : ∀ e, scan.result = .error e → o.result = .error e ∧
    ∃ released, released.Perm (takenIn scan.calls) ∧
      o.calls = scan.calls ++ offers scan.state released ∧
      o.state.target = afterOffers scan.state released

/-- The same for the remaining fields of a structure, after those in `placed`: if one cannot be
placed, these are released as well. -/
structure PlacesFields (s : Supply σ) (placed : List (Register κ)) (fields : List Ty)
    (scan : Outcome σ κ (List (Hardware κ))) (o : Outcome (Supply σ) κ (List (Register κ))) :
    Prop where
  complete : ∀ held, scan.result = .ok held → ∃ new, o.result = .ok (placed ++ new) ∧
    Register.leavesList new = held ∧ o.calls = scan.calls ∧
    o.state = s.grown scan.state (Ty.leavesList fields).length (Ty.structsList fields)
  undone : ∀ e, scan.result = .error e → o.result = .error e ∧
    ∃ released, released.Perm (Register.leavesList placed ++ takenIn scan.calls) ∧
      o.calls = scan.calls ++ offers scan.state released ∧
      o.state.target = afterOffers scan.state released

/-- A target register that is made grows a supply by one leaf. -/
theorem hardware_state_of_ok {wanted : Descriptor κ} {s : Supply σ} {held : Hardware κ}
    (h : (Target.take wanted s.target).result = .ok held) :
    (hardware wanted s).state = s.grown (Target.take wanted s.target).state 1 0 := by
  rw [Outcome.state_eq (silent_hardware_of_ok h)]
  obtain ⟨target, made, counting, stats⟩ := s
  cases counting <;> rfl

omit [Target σ κ] in
/-- A compound grows it by one structure. -/
theorem compound_state (fields : List Ty) (children : List (Register κ)) (s : Supply σ) :
    (compound fields children s).state = s.grown s.target 0 1 := by
  rw [compound_apply]
  obtain ⟨target, made, counting, stats⟩ := s
  cases counting <;> rfl

/-- A leaf is placed by acquiring its register. -/
theorem places_leaf {leaf ty : Ty} {wanted : Descriptor κ → Descriptor κ}
    (hLeaf : leaf.leaves = [leaf]) (hStructs : leaf.structs = 0)
    (hAcquire : (acquire leaf : Action σ κ (Hardware κ)) = acquireAs ty wanted) (s : Supply σ) :
    Places s leaf (acquireAll leaf.leaves s.target)
      ((describe ty >>= fun d => hardware (wanted d)) s) := by
  rw [hLeaf, acquireAll_singleton, hAcquire]
  cases hDescribe : Target.describe s.target ty with
  | error e =>
      rw [acquireAs_of_describe_error hDescribe, describe_bind_of_error hDescribe]
      constructor
      · intro held h
        cases h
      · intro e' h
        cases h
        exact ⟨rfl, [], .nil, (List.append_nil _).symm, rfl⟩
  | ok d =>
      rw [acquireAs_of_describe_ok hDescribe, describe_bind_of_ok hDescribe]
      cases hTake : (Target.take (wanted d) s.target).result with
      | error e =>
          have hRefused := silent_hardware_of_error hTake
          constructor
          · intro held h
            cases h
          · intro e' h
            cases h
            refine ⟨Outcome.result_eq hRefused, [], .nil, ?_, hardware_target _ s⟩
            rw [Outcome.calls_eq hRefused]
            rfl
      | ok one =>
          have hMade := silent_hardware_of_ok hTake
          constructor
          · intro held h
            cases h
            refine ⟨_, Outcome.result_eq hMade, rfl, ?_, ?_⟩
            · rw [Outcome.calls_eq hMade]
              rfl
            · rw [hLeaf, hStructs]
              exact hardware_state_of_ok hTake
          · intro e h
            cases h

/-- A type that cannot live in registers is refused without a call. -/
theorem places_unsupported {leaf : Ty} (hLeaf : leaf.leaves = [leaf])
    (hAcquire : (acquire leaf : Action σ κ (Hardware κ)) = Action.fail leaf.unsupported)
    (s : Supply σ) :
    Places s leaf (acquireAll leaf.leaves s.target) (Action.fail leaf.unsupported s) := by
  rw [hLeaf, acquireAll_singleton, hAcquire]
  constructor
  · intro held h
    cases h
  · intro e h
    cases h
    exact ⟨rfl, [], .nil, rfl, rfl⟩

variable [RegisterKind κ]

section Fields

variable {s : Supply σ} {field : Ty} {rest : List Ty} {placed : List (Register κ)}

/-- If a field cannot be placed, what it has released itself comes first, then the fields before
it. -/
theorem places_cons_of_error {e : Error}
    (hField : Places s field (acquireAll field.leaves s.target) (place field s : Outcome _ κ _))
    (hScan : (acquireAll field.leaves s.target : Outcome σ κ _).result = .error e) :
    PlacesFields s placed (field :: rest) (acquireAll (Ty.leavesList (field :: rest)) s.target)
      (placeFields placed (field :: rest) s) := by
  obtain ⟨hResult, released, hPerm, hCalls, hTarget⟩ := hField.undone e hScan
  have hCleaned := Action.cleaningUp_of_error (y := releaseAll placed) hResult
  rw [Ty.leavesList, placeFields, acquireAll_append_of_error hScan,
    Action.bind_apply_of_error (congrArg Outcome.result hCleaned), hCleaned]
  constructor
  · intro held h
    rw [hScan] at h
    cases h
  · intro e' h
    rw [hScan] at h
    cases h
    refine ⟨rfl, released ++ Register.leavesList placed, ?_, ?_, ?_⟩
    · exact List.perm_append_comm.trans (hPerm.append_left _)
    · simp only [releaseAll_calls, hCalls, hTarget, offers_append, List.append_assoc]
    · simp only [releaseAll_target, hTarget, afterOffers_append]

/-- If a field is placed, the scan goes on from where the field has left the target. -/
theorem places_cons_of_ok {child : Register κ} {held : List (Hardware κ)}
    (hScan : (acquireAll field.leaves s.target).result = .ok held)
    (hResult : (place field s).result = .ok child) (hLeaves : child.leaves = held)
    (hCalls : (place field s).calls = (acquireAll field.leaves s.target).calls)
    (hState : (place field s).state =
      s.grown (acquireAll field.leaves s.target).state field.leaves.length field.structs)
    (hRest : PlacesFields (place field s).state (placed ++ [child]) rest
      (acquireAll (Ty.leavesList rest) (place field s).state.target)
      (placeFields (placed ++ [child]) rest (place field s).state)) :
    PlacesFields s placed (field :: rest) (acquireAll (Ty.leavesList (field :: rest)) s.target)
      (placeFields placed (field :: rest) s) := by
  have hKept := Action.cleaningUp_of_ok (y := releaseAll placed) hResult
  have hTarget : (place field s).state.target = (acquireAll field.leaves s.target).state :=
    congrArg target hState
  rw [hTarget] at hRest
  rw [Ty.leavesList, placeFields, acquireAll_append_of_ok hScan,
    Action.bind_apply_of_ok ((congrArg Outcome.result hKept).trans hResult), hKept]
  cases hMore : (acquireAll (Ty.leavesList rest)
      (acquireAll field.leaves s.target).state).result with
  | error e =>
      obtain ⟨hFailed, released, hPerm, hLater, hAfter⟩ := hRest.undone e hMore
      have hTaken : takenIn (acquireAll field.leaves s.target).calls = child.leaves :=
        hLeaves ▸ takenIn_acquireAll hScan
      constructor
      · intro all h
        simp only [hMore] at h
        cases h
      · intro e' h
        simp only [hMore] at h
        cases h
        refine ⟨hFailed, released, ?_, ?_, hAfter⟩
        · rw [Register.leavesList_append, Register.leavesList_singleton,
            List.append_assoc] at hPerm
          rw [takenIn_append, hTaken]
          exact hPerm
        · simp only [hCalls, hLater, List.append_assoc]
  | ok more =>
      obtain ⟨new, hNew, hNewLeaves, hLater, hAfter⟩ := hRest.complete more hMore
      constructor
      · intro all h
        simp only [hMore] at h
        cases h
        refine ⟨child :: new, ?_, ?_, ?_, hAfter.trans ?_⟩
        · simpa using hNew
        · rw [Register.leavesList, hLeaves, hNewLeaves]
        · simp only [hCalls, hLater]
        · rw [hState, grown_grown, Ty.leavesList, Ty.structsList, List.length_append]
      · intro e h
        simp only [hMore] at h
        cases h

end Fields

mutual

/-- Placing a type follows the scan of its leaves, and undoes it if it stops. -/
theorem places_place : ∀ (ty : Ty) (s : Supply σ),
    Places s ty (acquireAll ty.leaves s.target : Outcome σ κ (List (Hardware κ))) (place ty s)
  | .void, s => places_unsupported rfl rfl s
  | .view .., s => places_unsupported rfl rfl s
  | .scalar _, s => places_leaf rfl rfl rfl s
  | .pointer .., s => places_leaf rfl rfl rfl s
  | .string, s => places_leaf rfl rfl rfl s
  | .padding _, s => places_leaf rfl rfl rfl s
  | .struct fields, s => by
      have hFields := places_placeFields [] fields s
      constructor
      · intro held hScan
        obtain ⟨new, hResult, hLeaves, hCalls, hState⟩ := hFields.complete held hScan
        rw [place, Action.bind_apply_of_ok hResult, compound_state, hState, grown_grown]
        refine ⟨_, compound_result _ _ _, hLeaves, ?_, rfl⟩
        rw [hCalls, compound_apply]
        exact List.append_nil _
      · intro e hScan
        obtain ⟨hResult, released, hPerm, hCalls, hTarget⟩ := hFields.undone e hScan
        rw [place, Action.bind_apply_of_error hResult]
        exact ⟨rfl, released, hPerm, hCalls, hTarget⟩

/-- The same for the remaining fields of a structure. If one of them fails, those in `placed` are
released as well. -/
theorem places_placeFields : ∀ (placed : List (Register κ)) (fields : List Ty) (s : Supply σ),
    PlacesFields s placed fields (acquireAll (Ty.leavesList fields) s.target)
      (placeFields placed fields s)
  | placed, [], s => by
      constructor
      · intro held hScan
        cases hScan
        exact ⟨[], by simp [placeFields], rfl, rfl, (grown_zero s).symm⟩
      · intro e hScan
        cases hScan
  | placed, field :: rest, s => by
      have hField := places_place field s
      cases hScan : (acquireAll field.leaves s.target).result with
      | error e => exact places_cons_of_error hField hScan
      | ok held =>
          obtain ⟨child, hResult, hLeaves, hCalls, hState⟩ := hField.complete held hScan
          exact places_cons_of_ok hScan hResult hLeaves hCalls hState
            (places_placeFields (placed ++ [child]) rest (place field s).state)

end

/-- If a type is placed, the scan of its leaves succeeds with the leaves of the register, by the
same calls. -/
theorem place_of_ok {ty : Ty} {s : Supply σ} {r : Register κ} (h : (place ty s).result = .ok r) :
    (acquireAll ty.leaves s.target).result = .ok r.leaves ∧
      (place ty s).calls = (acquireAll ty.leaves s.target).calls ∧
      (place ty s).state =
        s.grown (acquireAll ty.leaves s.target).state ty.leaves.length ty.structs := by
  have hPlaces := places_place ty s
  cases hScan : (acquireAll ty.leaves s.target).result with
  | ok held =>
      obtain ⟨r', hResult, hLeaves, hCalls, hState⟩ := hPlaces.complete held hScan
      cases h.symm.trans hResult
      exact ⟨congrArg Except.ok hLeaves.symm, hCalls, hState⟩
  | error e => cases h.symm.trans (hPlaces.undone e hScan).1

/-- If a type cannot be placed, the scan of its leaves fails with the same error, and what it has
taken is offered back. -/
theorem place_of_error {ty : Ty} {s : Supply σ} {e : Error}
    (h : (place ty s : Outcome _ κ _).result = .error e) :
    (acquireAll ty.leaves s.target).result = .error e ∧
      ∃ released, released.Perm (takenIn (acquireAll ty.leaves s.target).calls) ∧
        (place ty s).calls = (acquireAll ty.leaves s.target).calls ++
          offers (acquireAll ty.leaves s.target).state released ∧
        (place ty s).state.target =
          afterOffers (acquireAll ty.leaves s.target).state released := by
  have hPlaces := places_place ty s
  cases hScan : (acquireAll ty.leaves s.target).result with
  | ok held =>
      obtain ⟨r, hResult, _⟩ := hPlaces.complete held hScan
      cases h.symm.trans hResult
  | error e' =>
      obtain ⟨hResult, hUndone⟩ := hPlaces.undone e' hScan
      cases h.symm.trans hResult
      exact ⟨rfl, hUndone⟩

end Supply

end RegisterAssignment
