import RegisterAssignment.Proofs.Supply.Place

/-! Releasing a register is giving back its leaves one after the other. The tree of the register
decides the order and what is logged, and nothing else. -/

namespace RegisterAssignment

namespace Register

variable {κ : Type}

/-- The leaves of registers are those of each, one after the other. -/
theorem leavesList_eq_flatMap (rs : List (Register κ)) : leavesList rs = rs.flatMap leaves := by
  induction rs with
  | nil => rfl
  | cons r rest ih => rw [leavesList, ih, List.flatMap_cons]

theorem leavesList_append (rs rs' : List (Register κ)) :
    leavesList (rs ++ rs') = leavesList rs ++ leavesList rs' := by
  simp only [leavesList_eq_flatMap, List.flatMap_append]

theorem leavesList_singleton (r : Register κ) : leavesList [r] = r.leaves := by
  simp only [leavesList, List.append_nil]

end Register

namespace Supply

variable {σ κ : Type}

variable [Target σ κ]

/-- Gives one target register back, and counts it if the target takes it. -/
def giveUp (held : Hardware κ) : Action (Supply σ) κ Unit := do
  giveBack held
  count fun stats => { stats with hardwareFreed := stats.hardwareFreed + 1 }

/-- Gives target registers back in order, whichever of them are refused. The first refusal is
returned. -/
def giveUpAll (leaves : List (Hardware κ)) : Action (Supply σ) κ Unit :=
  Action.all (leaves.map giveUp)

/-- The target alone decides whether a register is taken back. -/
theorem giveUp_result (held : Hardware κ) (s : Supply σ) :
    (giveUp held s).result = (Target.giveBack held s.target).result := by
  cases h : (Target.giveBack held s.target).result with
  | ok _ => exact congrArg Outcome.result (Action.bind_apply_of_ok h)
  | error e => exact congrArg Outcome.result (Action.bind_apply_of_error h)

/-- Everything that giving a register up does if the target takes it. -/
theorem silent_giveUp_of_ok {held : Hardware κ} {s : Supply σ}
    (h : (Target.giveBack held s.target).result = .ok ()) :
    (giveUp held s).silent = ⟨.ok (),
      tally (fun stats => { stats with hardwareFreed := stats.hardwareFreed + 1 })
        { s with target := (Target.giveBack held s.target).state },
      [.giveBack held (.ok ())], []⟩ := by
  have hCall : Call.giveBack held (Target.giveBack held s.target).result =
      .giveBack held (.ok ()) := by rw [h]
  rw [giveUp, Action.bind_apply_of_ok (x := giveBack held) h, ← hCall]
  rfl

/-- Everything that it does if the target refuses: nothing is counted. -/
theorem silent_giveUp_of_error {held : Hardware κ} {s : Supply σ} {e : Error}
    (h : (Target.giveBack held s.target).result = .error e) :
    (giveUp held s).silent = ⟨.error e,
      { s with target := (Target.giveBack held s.target).state },
      [.giveBack held (.error e)], []⟩ := by
  rw [giveUp, Action.bind_apply_of_error (x := giveBack held) h, ← h]
  rfl

theorem giveUp_target (held : Hardware κ) (s : Supply σ) :
    (giveUp held s).state.target = (Target.giveBack held s.target).state := by
  cases h : (Target.giveBack held s.target).result with
  | ok _ =>
      rw [giveUp, Action.bind_apply_of_ok (x := giveBack held) h]
      exact tally_target _ _
  | error e => rw [giveUp, Action.bind_apply_of_error (x := giveBack held) h]; rfl

/-- The target is asked once. -/
theorem giveUp_calls (held : Hardware κ) (s : Supply σ) :
    (giveUp held s).calls = [.giveBack held (Target.giveBack held s.target).result] := by
  cases h : (Target.giveBack held s.target).result with
  | ok _ =>
      rw [giveUp, Action.bind_apply_of_ok (x := giveBack held) h, ← h]
      exact List.append_nil _
  | error e =>
      rw [giveUp, Action.bind_apply_of_error (x := giveBack held) h, ← h]
      rfl

theorem giveUpAll_cons (held : Hardware κ) (rest : List (Hardware κ)) :
    (giveUpAll (held :: rest) : Action (Supply σ) κ Unit) =
      (giveUp held).both (giveUpAll rest) := rfl

/-- Leaves may be given up in two parts, because a refusal does not stop the rest. -/
theorem giveUpAll_append (leaves leaves' : List (Hardware κ)) :
    (giveUpAll (leaves ++ leaves') : Action (Supply σ) κ Unit) =
      (giveUpAll leaves).both (giveUpAll leaves') := by
  rw [giveUpAll, List.map_append, Action.all_append]
  rfl

/-- Leaves may be given up in groups. -/
theorem giveUpAll_flatMap {ι : Type} (items : List ι) (leaves : ι → List (Hardware κ)) :
    (giveUpAll (items.flatMap leaves) : Action (Supply σ) κ Unit) =
      Action.all (items.map fun item => giveUpAll (leaves item)) := by
  rw [giveUpAll, List.map_flatMap, Action.all_flatMap]
  rfl

/-- An error of giving leaves up is the target's own answer to one of them. -/
theorem exists_of_giveUpAll_error {leaves : List (Hardware κ)} {s : Supply σ} {e : Error}
    (h : (giveUpAll leaves s).result = .error e) :
    ∃ leaf ∈ leaves, ∃ t : σ, (Target.giveBack leaf t).result = .error e := by
  induction leaves generalizing s with
  | nil => cases h
  | cons leaf rest ih =>
      rw [giveUpAll_cons, Action.both, giveUp_result] at h
      cases hBack : (Target.giveBack leaf s.target).result with
      | ok _ =>
          rw [hBack] at h
          obtain ⟨later, hMem, t, hLater⟩ := ih h
          exact ⟨later, List.mem_cons_of_mem leaf hMem, t, hLater⟩
      | error refusal =>
          rw [hBack] at h
          cases h
          exact ⟨leaf, List.mem_cons_self, s.target, hBack⟩

variable [RegisterKind κ]

mutual

/-- A register is released by giving up its leaves in order. -/
theorem silent_release : ∀ r : Register κ,
    (release r : Action (Supply σ) κ Unit).silent = (giveUpAll r.leaves).silent
  | .constant .. => rfl
  | .hardware _ held => by
      change (giveUp held).silent = (Action.both (giveUp held) (Action.done ())).silent
      rw [Action.both_done]
  | .compound origin fields children => by
      rw [release, Register.leaves, silent_releaseChildren]

/-- The same for the children of a compound; their numbers show in warnings only. -/
theorem silent_releaseChildren : ∀ (whole : Register κ) (i : Nat) (children : List (Register κ)),
    (releaseChildren whole i children : Action (Supply σ) κ Unit).silent =
      (giveUpAll (Register.leavesList children)).silent
  | _, _, [] => rfl
  | whole, i, child :: rest => by
      rw [releaseChildren, Register.leavesList, giveUpAll_append]
      simp only [Action.silent_both, Action.silent_warnOnError]
      rw [silent_release child, silent_releaseChildren whole (i + 1) rest]

end

/-- The fields of an unfinished structure are released by giving up all their leaves in order. -/
theorem silent_releaseAll (placed : List (Register κ)) :
    (releaseAll placed : Action (Supply σ) κ Unit).silent =
      (giveUpAll (Register.leavesList placed)).silent := by
  rw [releaseAll, Register.leavesList_eq_flatMap, giveUpAll_flatMap, Action.silent_all,
    Action.silent_all, List.map_map, List.map_map]
  congr 1
  apply List.map_congr_left
  intro r _
  simp only [Function.comp_apply, Action.silent_warnOnError, silent_release]

theorem releaseAll_state (placed : List (Register κ)) (s : Supply σ) :
    (releaseAll placed s).state = (giveUpAll (Register.leavesList placed) s).state :=
  Action.state_eq_of_silent (silent_releaseAll placed) s

end Supply

end RegisterAssignment
