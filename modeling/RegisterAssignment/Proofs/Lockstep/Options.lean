import RegisterAssignment.Proofs.Lockstep.Commands
import RegisterAssignment.Target.Scripted

/-! Options that only observe. Whether counters are kept, and whether a dropped register is worth a
warning, shows in the counters and in the log. Allocators that differ in nothing else go in lockstep
over one and the same target. -/

namespace RegisterAssignment

variable {σ κ : Type} [Target σ κ]

/-- Every target is interchangeable with itself. -/
theorem interchangeable_eq : Interchangeable fun t t' : σ => t = t' where
  describe h ty := by rw [h]
  take h wanted := by
    subst h
    exact ⟨rfl, rfl⟩
  giveBack h held := by
    subst h
    exact ⟨rfl, rfl⟩

/-- Nothing is counted, and nothing has been. -/
def Supply.Uncounted (s : Supply σ) : Prop := s.counting = false ∧ s.stats = .zero

/-- Without counting, no action of a supply changes a counter. -/
theorem Supply.stable_uncounted : Stable fun s : Supply σ => s.Uncounted where
  take _ h := h
  giveBack _ h := h
  tally f h := by
    obtain ⟨hCounting, hStats⟩ := h
    exact ⟨by simpa using hCounting, by simpa [hCounting] using hStats⟩
  number h := h

namespace Allocator

variable {a a' : Allocator σ κ}

/-- The same target state, the same tables and as many registers made, and both or neither forbid to
replace a binding. -/
abbrev Coincide (a a' : Allocator σ κ) : Prop := InStep (fun t t' : σ => t = t') 0 a a'

omit [Target σ κ] in
/-- Options do not show in a new allocator, except that they may deny bindings. -/
theorem coincide_new (target : σ) {options options' : Options}
    (hDeny : options'.rebind = .deny ↔ options.rebind = .deny) :
    Coincide (new target options : Allocator σ κ) (new target options') :=
  ⟨⟨rfl, rfl⟩, rfl, rfl, hDeny⟩

variable [DecidableEq κ] [RegisterKind κ]

/-- No command tells two such allocators apart. -/
theorem Coincide.perform (h : Coincide a a') (c : Command κ) :
    Mirrors Coincide id (perform c a) (Allocator.perform c a') := by
  have hStep := lockstep_perform interchangeable_eq c h
  rwa [Command.shift_zero, Answer.shift_zero] at hStep

/-- No sequence of commands tells two such allocators apart. -/
theorem Coincide.run (h : Coincide a a') (commands : List (Command κ)) :
    Coincide (a.run commands) (a'.run commands) := by
  induction commands generalizing a a' with
  | nil => exact h
  | cons c rest ih => exact ih (h.perform c).state

theorem run_uncounted (h : a.supply.Uncounted) (commands : List (Command κ)) :
    (a.run commands).supply.Uncounted :=
  run_keeps (fun _ _ _ _ hStep => hStep.keeps_supply Supply.stable_uncounted) h

/-- Counting and warning are pure observers. Start two allocators on the same target state, with
options of which both or neither forbid to replace a binding, and whatever their counters do. After
any commands they have the same tables and target states, and any next command makes the same calls
and gives the same result on both; and counters that are not kept stay at zero. -/
theorem options_only_observe (target : σ) (options options' : Options)
    (hDeny : options'.rebind = .deny ↔ options.rebind = .deny) (commands : List (Command κ)) :
    let a : Allocator σ κ := (new target options).run commands
    let a' : Allocator σ κ := (new target options').run commands
    a'.bindings = a.bindings ∧ a'.aliases = a.aliases ∧ a'.target = a.target ∧
      (∀ c : Command κ, (perform c a').result = (perform c a).result ∧
        (perform c a').calls = (perform c a).calls) ∧
      (options.collectStats = false → a.stats = .zero) := by
  intro a a'
  have hCoincide : Coincide a a' := (coincide_new target hDeny).run commands
  refine ⟨?_, hCoincide.aliases, hCoincide.supply.target.symm, ?_, ?_⟩
  · rw [hCoincide.bindings, Table.map_shift_zero]
  · intro c
    have hNext := hCoincide.perform c
    exact ⟨by rw [hNext.result, Except.map_id]; rfl, hNext.calls⟩
  · intro hOff
    exact (run_uncounted (a := new target options) ⟨hOff, rfl⟩ commands).2

/-- One allocator counts and does not warn of dropped registers, the other warns and does not count.
A structure is dropped for a register of the client's own, and an alias drops a register that the
target refuses to take back: the logs and the counters differ, and all else is the same. -/
theorem options_only_observe_when_refused :
    let pair : Value := ⟨0, .struct [.scalar .i32, .scalar .f64]⟩
    let single : Value := ⟨1, .scalar .i32⟩
    let own : Register ScriptedKind :=
      .hardware (.supplied 0) ⟨⟨.scalar .i32, some .i32, .int⟩, 7⟩
    let target := Scripted.new (some 3) [2] false
    let before : List (Command ScriptedKind) :=
      [.request (.allocate pair), .request (.allocate single)]
    let rebind : Command ScriptedKind := .bindTo pair own
    let drop : Command ScriptedKind := .request (.aliasTo single pair)
    let counting : Allocator Scripted ScriptedKind := new target ⟨.silent, true⟩
    let warning : Allocator Scripted ScriptedKind := new target ⟨.warn, false⟩
    let a := counting.run (before ++ [rebind])
    let a' := warning.run (before ++ [rebind])
    (RebindPolicy.warn = .deny ↔ RebindPolicy.silent = .deny) ∧
      a'.bindings = a.bindings ∧ a'.target = a.target ∧
      (perform drop a').result = .error (.invalidFree "Int#2") ∧
      (perform drop a').result = (perform drop a).result ∧
      (perform drop a').calls = (perform drop a).calls ∧
      a.stats.hardwareAllocated = 3 ∧ a'.stats = .zero ∧
      (perform rebind (counting.run before)).log.map LogLine.level = [.debug, .trace] ∧
      (perform rebind (warning.run before)).log.map LogLine.level = [.warn, .trace] := by
  intro pair single own target before rebind drop counting warning a a'
  have hDeny : RebindPolicy.warn = .deny ↔ RebindPolicy.silent = .deny := by decide
  obtain ⟨hBindings, _, hTarget, hNext, _⟩ :=
    options_only_observe target ⟨.silent, true⟩ ⟨.warn, false⟩ hDeny (before ++ [rebind])
  obtain ⟨_, _, _, _, hZero⟩ :=
    options_only_observe target ⟨.warn, false⟩ ⟨.silent, true⟩ hDeny.symm (before ++ [rebind])
  have hRefused : (perform drop a').result = .error (.invalidFree "Int#2") := by decide +kernel
  have hCounted : a.stats.hardwareAllocated = 3 := by decide +kernel
  exact ⟨hDeny, hBindings, hTarget, hRefused, (hNext drop).1, (hNext drop).2, hCounted, hZero rfl,
    by decide +kernel, by decide +kernel⟩

end Allocator

end RegisterAssignment
