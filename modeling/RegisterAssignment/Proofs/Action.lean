import RegisterAssignment.Action

/-! Laws of actions. Most statements about actions do not look at the log; for these an action is
compared after its log is dropped. -/

namespace RegisterAssignment

variable {s κ α β : Type}

def Outcome.silent (o : Outcome s κ α) : Outcome s κ α := { o with log := [] }

theorem Outcome.state_eq {o o' : Outcome s κ α} (h : o.silent = o') : o.state = o'.state := by
  rw [← h, silent]

theorem Outcome.result_eq {o o' : Outcome s κ α} (h : o.silent = o') : o.result = o'.result := by
  rw [← h, silent]

theorem Outcome.calls_eq {o o' : Outcome s κ α} (h : o.silent = o') : o.calls = o'.calls := by
  rw [← h, silent]

def Outcome.map (f : α → β) (o : Outcome s κ α) : Outcome s κ β :=
  ⟨o.result.map f, o.state, o.calls, o.log⟩

namespace Action

/-- An action that logs nothing and otherwise does the same. -/
def silent (x : Action s κ α) : Action s κ α := fun state => (x state).silent

/-- Actions that differ in their log only end in the same state. -/
theorem state_eq_of_silent {x y : Action s κ α} (h : x.silent = y.silent) (state : s) :
    (x state).state = (y state).state := by
  change (x.silent state).state = (y.silent state).state
  rw [h]

theorem current_bind (f : s → Action s κ α) (state : s) :
    (current >>= f) state = f state state := rfl

/-- The calls and the log of three actions do not depend on how they are grouped. -/
theorem bind_assoc {γ : Type} (x : Action s κ α) (f : α → Action s κ β) (g : β → Action s κ γ) :
    x >>= f >>= g = x >>= fun a => f a >>= g := by
  funext state
  cases h : (x state).result with
  | error e =>
      have hBoth : ((x >>= f) state).result = .error e := by rw [bind_apply_of_error h]
      rw [bind_apply_of_error hBoth, bind_apply_of_error h, bind_apply_of_error h]
  | ok a =>
      rw [bind_apply_of_ok h]
      cases hf : (f a (x state).state).result with
      | error e =>
          rw [bind_apply_of_error hf]
          have hBoth : ((x >>= f) state).result = .error e := by rw [bind_apply_of_ok h, hf]
          rw [bind_apply_of_error hBoth, bind_apply_of_ok h]
      | ok b =>
          rw [bind_apply_of_ok hf]
          have hBoth : ((x >>= f) state).result = .ok b := by rw [bind_apply_of_ok h, hf]
          rw [bind_apply_of_ok hBoth, bind_apply_of_ok h]
          simp only [List.append_assoc]

/-- Changing the value of an action changes nothing else about its outcome. -/
theorem map_apply (f : α → β) (x : Action s κ α) (state : s) :
    (f <$> x) state = (x state).map f := by
  change (x >>= fun b => pure (f b)) state = _
  cases h : (x state).result with
  | ok b =>
      rw [bind_apply_of_ok h]
      simp [Outcome.map, h, Except.map]
  | error e =>
      rw [bind_apply_of_error h, Outcome.map, h]
      rfl

/-- Two actions that succeed one after the other have both succeeded. -/
theorem ok_of_bind {x : Action s κ α} {f : α → Action s κ β} {state : s} {b : β}
    (h : ((x >>= f) state).result = .ok b) :
    ∃ a, (x state).result = .ok a ∧ (f a (x state).state).result = .ok b ∧
      ((x >>= f) state).calls = (x state).calls ++ (f a (x state).state).calls := by
  cases hFirst : (x state).result with
  | ok a =>
      rw [bind_apply_of_ok hFirst] at h ⊢
      exact ⟨a, rfl, h, rfl⟩
  | error e =>
      rw [bind_apply_of_error hFirst] at h
      cases h

theorem silent_map_apply (f : α → β) (x : Action s κ α) (state : s) :
    ((f <$> x) state).silent = (x state).silent.map f := by
  rw [map_apply]
  rfl

@[simp] theorem silent_both (x y : Action s κ Unit) :
    (both x y).silent = both x.silent y.silent := rfl

/-- A warning is all that this adds. -/
@[simp] theorem silent_warnOnError (x : Action s κ α) (warning : Error → String) :
    (x.warnOnError warning).silent = x.silent := by
  funext state
  simp only [silent, warnOnError]
  split <;> rfl

@[simp] theorem silent_onPart {t : Type} (get : s → t) (set : t → s → s) (x : Action t κ α) :
    (onPart get set x).silent = onPart get set x.silent := rfl

/-- Dropping the log of a sequence is dropping the log of each part. -/
theorem silent_all (xs : List (Action s κ Unit)) : (all xs).silent = all (xs.map silent) := by
  induction xs with
  | nil => rfl
  | cons x rest ih => rw [all, silent_both, ih, List.map_cons, all]

/-- Nothing is cleaned up after a success. -/
theorem cleaningUp_of_ok {x : Action s κ α} {y : Action s κ Unit} {state : s} {b : α}
    (h : (x state).result = .ok b) : x.cleaningUp y state = x state := by
  simp only [cleaningUp, h]

/-- After a failure the error stays and the cleaning adds its calls, whatever comes of it. -/
theorem cleaningUp_of_error {x : Action s κ α} {y : Action s κ Unit} {state : s} {e : Error}
    (h : (x state).result = .error e) :
    x.cleaningUp y state = ⟨.error e, (y (x state).state).state,
      (x state).calls ++ (y (x state).state).calls, (x state).log ++ (y (x state).state).log⟩ := by
  simp only [cleaningUp, h]

/-- Cleaning up never turns a failure into a success. -/
theorem result_of_cleaningUp {x : Action s κ α} {y : Action s κ Unit} {state : s} {b : α}
    (h : (x.cleaningUp y state).result = .ok b) : (x state).result = .ok b := by
  cases hFirst : (x state).result with
  | ok c => rwa [cleaningUp_of_ok hFirst, hFirst] at h
  | error e =>
      rw [cleaningUp_of_error hFirst] at h
      cases h

theorem both_done (x : Action s κ Unit) : both x (done ()) = x := by
  funext state
  simp only [both, done, List.append_nil]
  cases h : (x state).result <;> simp [← h]

/-- Running the rest in two portions is the same as running it in one: errors do not stop
anything, and the first one is kept either way. -/
theorem both_assoc (x y z : Action s κ Unit) : both (both x y) z = both x (both y z) := by
  funext state
  simp only [both, List.append_assoc]
  cases (x state).result <;> rfl

/-- A sequence can be cut anywhere, because no failure ends it. -/
theorem all_append (xs ys : List (Action s κ Unit)) : all (xs ++ ys) = both (all xs) (all ys) := by
  induction xs with
  | nil => rfl
  | cons x rest ih => rw [List.cons_append, all, ih, ← both_assoc, all]

/-- A sequence of sequences can be run as one. -/
theorem all_flatMap {ι : Type} (items : List ι) (f : ι → List (Action s κ Unit)) :
    all (items.flatMap f) = all (items.map fun item => all (f item)) := by
  induction items with
  | nil => rfl
  | cons item rest ih => rw [List.flatMap_cons, all_append, ih, List.map_cons, all]

end Action

end RegisterAssignment
