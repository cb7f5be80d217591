import RegisterAssignment.Log
import RegisterAssignment.Register.Descriptor

/-!
Actions: computations that change a state, may fail, call the target and write to the log. An
action that fails keeps the state it has reached, with its calls and its log, because what was
done to the target cannot be undone by failing.
-/

namespace RegisterAssignment

/-- A call into the target, with the target's answer. -/
inductive Call (κ : Type) where
  | describe (ty : Ty) (answer : Except Error (Descriptor κ))
  | take (wanted : Descriptor κ) (answer : Except Error (Hardware κ))
  | giveBack (held : Hardware κ) (answer : Except Error Unit)

namespace Call

variable {κ : Type}

/-- The text of a call. The answer is not part of it. -/
def text [RegisterKind κ] : Call κ → String
  | describe ty _ => s!"describe {ty.text}"
  | take wanted _ => s!"alloc {wanted.text}"
  | giveBack held _ => s!"free {held.text}"

end Call

/-- How an action ended: its result, the state it left, the calls it made and the lines it
logged, both in order. -/
structure Outcome (s κ α : Type) where
  result : Except Error α
  state : s
  calls : List (Call κ)
  log : List LogLine

/-- An action on states `s`, over a target with register kinds `κ`. -/
def Action (s κ α : Type) : Type := s → Outcome s κ α

namespace Action

variable {s κ α β : Type}

def done (a : α) : Action s κ α := fun state => ⟨.ok a, state, [], []⟩

def fail (e : Error) : Action s κ α := fun state => ⟨.error e, state, [], []⟩

def andThen (x : Action s κ α) (f : α → Action s κ β) : Action s κ β := fun state =>
  let first := x state
  match first.result with
  | .error e => ⟨.error e, first.state, first.calls, first.log⟩
  | .ok a =>
    let second := f a first.state
    ⟨second.result, second.state, first.calls ++ second.calls, first.log ++ second.log⟩

instance : Monad (Action s κ) where
  pure := done
  bind := andThen

@[simp] theorem pure_apply (a : α) (state : s) :
    (pure a : Action s κ α) state = ⟨.ok a, state, [], []⟩ := rfl

/-- After a success the second action runs in the state that the first one left, and calls and
log lines are put one after the other. -/
theorem bind_apply_of_ok {x : Action s κ α} {f : α → Action s κ β} {state : s} {a : α}
    (h : (x state).result = .ok a) :
    (x >>= f) state = ⟨(f a (x state).state).result, (f a (x state).state).state,
      (x state).calls ++ (f a (x state).state).calls,
      (x state).log ++ (f a (x state).state).log⟩ := by
  change andThen x f state = _
  simp only [andThen, h]

/-- After a failure nothing more happens. -/
theorem bind_apply_of_error {x : Action s κ α} {f : α → Action s κ β} {state : s} {e : Error}
    (h : (x state).result = .error e) :
    (x >>= f) state = ⟨.error e, (x state).state, (x state).calls, (x state).log⟩ := by
  change andThen x f state = _
  simp only [andThen, h]

def current : Action s κ s := fun state => ⟨.ok state, state, [], []⟩

def modify (f : s → s) : Action s κ Unit := fun state => ⟨.ok (), f state, [], []⟩

def note (level : Level) (message : String) : Action s κ Unit := fun state =>
  ⟨.ok (), state, [], [⟨level, message⟩]⟩

/-- An answer found without any effect. -/
def ofExcept (answer : Except Error α) : Action s κ α := fun state => ⟨answer, state, [], []⟩

/-- Runs an action, and logs a warning about its error if it fails. It still fails. -/
def warnOnError (x : Action s κ α) (warning : Error → String) : Action s κ α := fun state =>
  let o := x state
  match o.result with
  | .ok _ => o
  | .error e => { o with log := o.log ++ [⟨.warn, warning e⟩] }

/-- Runs two actions one after the other, the second one also if the first fails. The first error
is the error of both. -/
def both (x y : Action s κ Unit) : Action s κ Unit := fun state =>
  let first := x state
  let second := y first.state
  { result := match first.result with
      | .error e => .error e
      | .ok () => second.result
    state := second.state
    calls := first.calls ++ second.calls
    log := first.log ++ second.log }

/-- Runs all actions in order, whichever of them fail. The first error is the error of all. -/
def all : List (Action s κ Unit) → Action s κ Unit
  | [] => done ()
  | x :: rest => both x (all rest)

/-- Runs an action, and after a failure also a second one to clean up. The failure is the one of
the action itself, whether or not cleaning up works. -/
def cleaningUp (x : Action s κ α) (cleanUp : Action s κ Unit) : Action s κ α := fun state =>
  let o := x state
  match o.result with
  | .ok _ => o
  | .error e =>
    let after := cleanUp o.state
    ⟨.error e, after.state, o.calls ++ after.calls, o.log ++ after.log⟩

def onPart {t : Type} (get : s → t) (set : t → s → s) (x : Action t κ α) : Action s κ α :=
  fun state =>
    let o := x (get state)
    ⟨o.result, set o.state state, o.calls, o.log⟩

end Action

end RegisterAssignment
