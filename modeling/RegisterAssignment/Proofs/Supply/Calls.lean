import RegisterAssignment.Proofs.Supply.Release

/-! The calls into a target as the record of what happened to it. Whatever a supply does, the
target is where its own answers have brought it, and the counters for target registers follow the
answers: one for each register that was handed out, one for each that was taken back. -/

namespace RegisterAssignment

variable {σ κ α β : Type}

namespace Call

def taken? : Call κ → Option (Hardware κ)
  | .take _ (.ok held) => some held
  | _ => none

/-- The target register that a call offered to the target, which may have refused it. -/
def offered? : Call κ → Option (Hardware κ)
  | .giveBack held _ => some held
  | _ => none

def returned? : Call κ → Option (Hardware κ)
  | .giveBack held (.ok _) => some held
  | _ => none

/-- The reason why the target did not take a register back. -/
def refusal? : Call κ → Option Error
  | .giveBack _ (.error e) => some e
  | _ => none

end Call

def takenIn (calls : List (Call κ)) : List (Hardware κ) := calls.filterMap Call.taken?

def offeredIn (calls : List (Call κ)) : List (Hardware κ) := calls.filterMap Call.offered?

def returnedIn (calls : List (Call κ)) : List (Hardware κ) := calls.filterMap Call.returned?

/-- The result of offering registers: the first refusal, if there is one. -/
def firstRefusal (calls : List (Call κ)) : Except Error Unit :=
  match calls.findSome? Call.refusal? with
  | some e => .error e
  | none => .ok ()

@[simp] theorem takenIn_append (calls calls' : List (Call κ)) :
    takenIn (calls ++ calls') = takenIn calls ++ takenIn calls' :=
  List.filterMap_append

@[simp] theorem offeredIn_append (calls calls' : List (Call κ)) :
    offeredIn (calls ++ calls') = offeredIn calls ++ offeredIn calls' :=
  List.filterMap_append

@[simp] theorem returnedIn_append (calls calls' : List (Call κ)) :
    returnedIn (calls ++ calls') = returnedIn calls ++ returnedIn calls' :=
  List.filterMap_append

/-- A target gets from one state to another by answering calls, and the answers are its own. -/
inductive Exchange [Target σ κ] : σ → List (Call κ) → σ → Prop where
  | none (t : σ) : Exchange t [] t
  | describe {t t' : σ} {rest : List (Call κ)} (ty : Ty) (later : Exchange t rest t') :
      Exchange t (.describe ty (Target.describe t ty) :: rest) t'
  | take {t t' : σ} {rest : List (Call κ)} (wanted : Descriptor κ)
      (later : Exchange (Target.take wanted t).state rest t') :
      Exchange t (.take wanted (Target.take wanted t).result :: rest) t'
  | giveBack {t t' : σ} {rest : List (Call κ)} (held : Hardware κ)
      (later : Exchange (Target.giveBack held t).state rest t') :
      Exchange t (.giveBack held (Target.giveBack held t).result :: rest) t'

/-- Two exchanges make one if the second goes on where the first has ended. -/
theorem Exchange.trans [Target σ κ] {t t' t'' : σ} {first second : List (Call κ)}
    (h : Exchange t first t') (h' : Exchange t' second t'') : Exchange t (first ++ second) t'' := by
  induction h with
  | none => exact h'
  | describe ty _ ih => exact .describe ty (ih h')
  | take wanted _ ih => exact .take wanted (ih h')
  | giveBack held _ ih => exact .giveBack held (ih h')

namespace Supply

variable [Target σ κ]

/-- The target and the counters of a supply have followed these calls. The counters do so only if
they are kept at all. -/
structure Booked (s : Supply σ) (calls : List (Call κ)) (s' : Supply σ) : Prop where
  exchange : Exchange s.target calls s'.target
  counting : s'.counting = s.counting
  allocated : s.counting = true →
    s'.stats.hardwareAllocated = s.stats.hardwareAllocated + (takenIn calls).length
  freed : s.counting = true →
    s'.stats.hardwareFreed = s.stats.hardwareFreed + (returnedIn calls).length

/-- Accounts add up. -/
theorem Booked.trans {s s' s'' : Supply σ} {first second : List (Call κ)}
    (h : Booked s first s') (h' : Booked s' second s'') : Booked s (first ++ second) s'' where
  exchange := h.exchange.trans h'.exchange
  counting := h'.counting.trans h.counting
  allocated hCounting := by
    have hFirst := h.allocated hCounting
    have hSecond := h'.allocated (h.counting.trans hCounting)
    rw [takenIn_append, List.length_append]
    omega
  freed hCounting := by
    have hFirst := h.freed hCounting
    have hSecond := h'.freed (h.counting.trans hCounting)
    rw [returnedIn_append, List.length_append]
    omega

/-- The numbering of registers is no concern of the target or of the counters. -/
theorem Booked.renumber {s s' : Supply σ} {calls : List (Call κ)} (h : Booked s calls s')
    (made : Nat) : Booked s calls { s' with made := made } :=
  ⟨h.exchange, h.counting, h.allocated, h.freed⟩

/-- Counting anything but target registers needs no call. -/
theorem booked_tally {f : Stats → Stats}
    (hAllocated : ∀ stats, (f stats).hardwareAllocated = stats.hardwareAllocated)
    (hFreed : ∀ stats, (f stats).hardwareFreed = stats.hardwareFreed) (s : Supply σ) :
    Booked s ([] : List (Call κ)) (tally f s) where
  exchange := by
    rw [tally_target]
    exact .none _
  counting := tally_counting f s
  allocated hCounting := by simp [hCounting, hAllocated, takenIn]
  freed hCounting := by simp [hCounting, hFreed, returnedIn]

theorem booked_refl (s : Supply σ) : Booked s ([] : List (Call κ)) s :=
  ⟨.none _, rfl, fun _ => rfl, fun _ => rfl⟩

/-- An action whose calls account for all that it does to the target and to the counters. -/
def Books (x : Action (Supply σ) κ α) : Prop := ∀ s, Booked s (x s).calls (x s).state

/-- What is logged is not accounted for. -/
theorem Books.of_silent {x y : Action (Supply σ) κ α} (h : Books y) (hSame : x.silent = y.silent) :
    Books x := by
  intro s
  have hOutcome : (x s).silent = (y s).silent := congrFun hSame s
  rw [Outcome.calls_eq hOutcome, Outcome.state_eq hOutcome]
  exact h s

theorem books_done (b : α) : Books (Action.done b : Action (Supply σ) κ α) := booked_refl

theorem books_fail (e : Error) : Books (Action.fail e : Action (Supply σ) κ α) := booked_refl

/-- Two actions with an exact account have one together, also if the first one fails. -/
theorem Books.bind {x : Action (Supply σ) κ α} {f : α → Action (Supply σ) κ β} (h : Books x)
    (hNext : ∀ b, Books (f b)) : Books (x >>= f) := by
  intro s
  cases hResult : (x s).result with
  | ok b =>
      rw [Action.bind_apply_of_ok hResult]
      exact (h s).trans (hNext b _)
  | error e =>
      rw [Action.bind_apply_of_error hResult]
      exact h s

theorem Books.both {x y : Action (Supply σ) κ Unit} (h : Books x) (h' : Books y) :
    Books (x.both y) :=
  fun s => (h s).trans (h' _)

/-- What is released while cleaning up is accounted for, too. -/
theorem Books.cleaningUp {x : Action (Supply σ) κ α} {y : Action (Supply σ) κ Unit} (h : Books x)
    (h' : Books y) : Books (x.cleaningUp y) := by
  intro s
  cases hResult : (x s).result with
  | ok b =>
      rw [Action.cleaningUp_of_ok hResult]
      exact h s
  | error e =>
      rw [Action.cleaningUp_of_error hResult]
      exact (h s).trans (h' _)

theorem books_describe (ty : Ty) : Books (describe ty : Action (Supply σ) κ (Descriptor κ)) :=
  fun _ => ⟨.describe ty (.none _), rfl, fun _ => rfl, fun _ => rfl⟩

/-- A register that the target hands out is counted, and only such a one. -/
theorem books_hardware (wanted : Descriptor κ) :
    Books (hardware wanted : Action (Supply σ) κ (Register κ)) := by
  intro s
  have hTaken : Exchange s.target [.take wanted (Target.take wanted s.target).result]
      (Target.take wanted s.target).state := .take wanted (.none _)
  cases hTake : (Target.take wanted s.target).result with
  | ok held =>
      have hMade := silent_hardware_of_ok hTake
      rw [Outcome.calls_eq hMade, Outcome.state_eq hMade]
      rw [hTake] at hTaken
      refine ⟨by simpa using hTaken, by simp, ?_, ?_⟩
      · intro hCounting
        simp [hCounting, takenIn, Call.taken?]
      · intro hCounting
        simp [hCounting, returnedIn, Call.returned?]
  | error e =>
      have hRefused := silent_hardware_of_error hTake
      rw [Outcome.calls_eq hRefused, Outcome.state_eq hRefused]
      rw [hTake] at hTaken
      exact ⟨hTaken, rfl, fun _ => rfl, fun _ => rfl⟩

/-- A register that the target takes back is counted, and only such a one. -/
theorem books_giveUp (held : Hardware κ) :
    Books (giveUp held : Action (Supply σ) κ Unit) := by
  intro s
  have hGiven : Exchange s.target [.giveBack held (Target.giveBack held s.target).result]
      (Target.giveBack held s.target).state := .giveBack held (.none _)
  cases hBack : (Target.giveBack held s.target).result with
  | ok _ =>
      have hTaken := silent_giveUp_of_ok hBack
      rw [Outcome.calls_eq hTaken, Outcome.state_eq hTaken]
      rw [hBack] at hGiven
      refine ⟨by simpa using hGiven, by simp, ?_, ?_⟩
      · intro hCounting
        simp [hCounting, takenIn, Call.taken?]
      · intro hCounting
        simp [hCounting, returnedIn, Call.returned?]
  | error e =>
      have hRefused := silent_giveUp_of_error hBack
      rw [Outcome.calls_eq hRefused, Outcome.state_eq hRefused]
      rw [hBack] at hGiven
      exact ⟨hGiven, rfl, fun _ => rfl, fun _ => rfl⟩

theorem books_giveUpAll (leaves : List (Hardware κ)) :
    Books (giveUpAll leaves : Action (Supply σ) κ Unit) := by
  induction leaves with
  | nil => exact books_done ()
  | cons leaf rest ih => exact (books_giveUp leaf).both ih

/-- Leaves that are given up are offered one after the other, whichever are refused. -/
theorem offeredIn_giveUpAll (leaves : List (Hardware κ)) (s : Supply σ) :
    offeredIn (giveUpAll leaves s).calls = leaves := by
  induction leaves generalizing s with
  | nil => rfl
  | cons leaf rest ih =>
      change offeredIn ((giveUp leaf s).calls ++ (giveUpAll rest (giveUp leaf s).state).calls) = _
      rw [offeredIn_append, ih, giveUp_calls]
      rfl

/-- The error of giving leaves up is the first refusal among the calls. -/
theorem giveUpAll_result (leaves : List (Hardware κ)) (s : Supply σ) :
    (giveUpAll leaves s).result = firstRefusal (giveUpAll leaves s).calls := by
  induction leaves generalizing s with
  | nil => rfl
  | cons leaf rest ih =>
      have hRest := ih (giveUp leaf s).state
      rw [giveUpAll_cons, Action.both, giveUp_result, giveUp_calls, hRest]
      cases (Target.giveBack leaf s.target).result <;> rfl

theorem books_compound (fields : List Ty) (children : List (Register κ)) :
    Books (compound fields children : Action (Supply σ) κ (Register κ)) := by
  intro s
  rw [compound_apply]
  apply Booked.renumber
  apply booked_tally <;> exact fun _ => rfl

theorem books_constant (descriptor : Descriptor κ) (literal : Literal) :
    Books (constant descriptor literal : Action (Supply σ) κ (Register κ)) := by
  intro s
  rw [constant_apply]
  apply Booked.renumber
  apply booked_tally <;> exact fun _ => rfl

theorem books_placeWhole (ty : Ty) :
    Books (placeWhole ty : Action (Supply σ) κ (Register κ)) :=
  (books_describe ty).bind books_hardware

theorem books_placeConstant (root : Value) (literal : Literal) :
    Books (placeConstant root literal : Action (Supply σ) κ (Register κ)) := by
  apply (books_describe root.ty).bind
  intro descriptor
  split
  · exact books_constant descriptor literal
  · exact books_fail _

variable [RegisterKind κ]

mutual

/-- Placing a type does nothing but what its calls say, also if it fails and gives back what it
has taken. -/
theorem books_place : ∀ ty : Ty, Books (place ty : Action (Supply σ) κ (Register κ))
  | .void => books_fail _
  | .view .. => books_fail _
  | .scalar _ => (books_describe _).bind books_hardware
  | .pointer .. => (books_describe _).bind books_hardware
  | .string => (books_describe _).bind books_hardware
  | .padding _ => (books_describe _).bind fun _ => books_hardware _
  | .struct fields => (books_placeFields [] fields).bind (books_compound fields)

/-- The same for the fields of a structure, with what is released if one fails. -/
theorem books_placeFields : ∀ (placed : List (Register κ)) (fields : List Ty),
    Books (placeFields placed fields : Action (Supply σ) κ (List (Register κ)))
  | placed, [] => books_done placed
  | placed, field :: rest => by
      have hReleased : Books (releaseAll placed : Action (Supply σ) κ Unit) :=
        (books_giveUpAll _).of_silent (silent_releaseAll placed)
      exact ((books_place field).cleaningUp hReleased).bind fun child =>
        books_placeFields (placed ++ [child]) rest

end

end Supply

end RegisterAssignment
