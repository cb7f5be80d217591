import RegisterAssignment.Proofs.Supply.Calls
import RegisterAssignment.Register.Walk

/-! Releasing as a fold over a walk. A walk comes to the leaves of a register in their order, and a
register is released by offering these to the target one after the other. Each answer depends on
the target as the offers before it have left it, and a refusal does not stop the rest. -/

namespace RegisterAssignment

variable {σ κ : Type}

namespace Walk

/-- A step of a walk takes the first of the leaves that are still to be visited. -/
theorem leavesList_of_next? {w later : Walk κ} {held : Hardware κ}
    (h : w.next? = some (held, later)) :
    Register.leavesList w.stack = held :: Register.leavesList later.stack := by
  fun_induction next? w with
  | case1 => cases h
  | case2 origin found rest =>
      cases h
      rfl
  | case3 origin descriptor literal rest ih => exact ih h
  | case4 origin fields children rest ih =>
      have hChildren := ih h
      rw [push_eq_append, Register.leavesList_append] at hChildren
      exact hChildren

/-- A walk ends when no leaf is left. -/
theorem leavesList_of_next?_eq_none {w : Walk κ} (h : w.next? = none) :
    Register.leavesList w.stack = [] := by
  fun_induction next? w with
  | case1 => rfl
  | case2 => cases h
  | case3 origin descriptor literal rest ih => exact ih h
  | case4 origin fields children rest ih =>
      have hChildren := ih h
      rw [push_eq_append, Register.leavesList_append] at hChildren
      exact hChildren

/-- A walk comes to all leaves on its stack, in their order. -/
theorem yielded_eq_leavesList (w : Walk κ) : w.yielded = Register.leavesList w.stack := by
  fun_induction yielded w with
  | case1 w hNone => rw [leavesList_of_next?_eq_none hNone]
  | case2 w held later hNext ih => rw [leavesList_of_next? hNext, ih]

end Walk

/-- A walk over a register comes to its leaves, depth first and in field order, and to a leaf that
occurs twice also twice. -/
theorem Register.yielded_walk (r : Register κ) : r.walk.yielded = r.leaves := by
  rw [Walk.yielded_eq_leavesList]
  exact leavesList_singleton r

section Offers

variable [Target σ κ]

/-- The calls by which target registers are offered one after the other, with the answers. -/
def offers (t : σ) : List (Hardware κ) → List (Call κ)
  | [] => []
  | held :: rest =>
    .giveBack held (Target.giveBack held t).result :: offers (Target.giveBack held t).state rest

/-- The target after target registers were offered to it one after the other. -/
def afterOffers (t : σ) (leaves : List (Hardware κ)) : σ :=
  leaves.foldl (fun t held => (Target.giveBack held t).state) t

/-- Later registers are offered to the target as the earlier ones have left it. -/
theorem offers_append (t : σ) (leaves leaves' : List (Hardware κ)) :
    offers t (leaves ++ leaves') = offers t leaves ++ offers (afterOffers t leaves) leaves' := by
  induction leaves generalizing t with
  | nil => rfl
  | cons leaf rest ih =>
      rw [List.cons_append, offers, ih]
      rfl

theorem afterOffers_append (t : σ) (leaves leaves' : List (Hardware κ)) :
    afterOffers t (leaves ++ leaves') = afterOffers (afterOffers t leaves) leaves' :=
  List.foldl_append

/-- Each of the registers is offered once, whatever becomes of those before it. -/
theorem offeredIn_offers (t : σ) (leaves : List (Hardware κ)) :
    offeredIn (offers t leaves) = leaves := by
  induction leaves generalizing t with
  | nil => rfl
  | cons leaf rest ih => exact congrArg (leaf :: ·) (ih _)

theorem takenIn_offers (t : σ) (leaves : List (Hardware κ)) :
    takenIn (offers t leaves) = [] := by
  induction leaves generalizing t with
  | nil => rfl
  | cons leaf rest ih => exact ih _

end Offers

/-- There is no refusal among these calls exactly if none of them was refused. -/
theorem firstRefusal_eq_ok_iff {calls : List (Call κ)} :
    firstRefusal calls = .ok () ↔ ∀ call ∈ calls, call.refusal? = none := by
  rw [← List.findSome?_eq_none_iff, firstRefusal]
  cases calls.findSome? Call.refusal? <;> simp

namespace Supply

variable [Target σ κ]

/-- Giving leaves up is offering them in order. -/
theorem giveUpAll_calls (leaves : List (Hardware κ)) (s : Supply σ) :
    (giveUpAll leaves s).calls = offers s.target leaves := by
  induction leaves generalizing s with
  | nil => rfl
  | cons leaf rest ih =>
      change (giveUp leaf s).calls ++ (giveUpAll rest (giveUp leaf s).state).calls = _
      rw [giveUp_calls, ih, giveUp_target]
      rfl

/-- A supply whose target was offered these registers. Those that it took back are counted. -/
def offered (s : Supply σ) (leaves : List (Hardware κ)) : Supply σ :=
  { s with
    target := afterOffers s.target leaves
    stats := if s.counting then
        { s.stats with hardwareFreed :=
            s.stats.hardwareFreed + (returnedIn (offers s.target leaves)).length }
      else s.stats }

/-- Registers may be offered one at a time. -/
theorem offered_cons (s : Supply σ) (leaf : Hardware κ) (rest : List (Hardware κ)) :
    s.offered (leaf :: rest) = (s.offered [leaf]).offered rest := by
  have hCalls : offers s.target (leaf :: rest) =
      offers s.target [leaf] ++ offers (afterOffers s.target [leaf]) rest :=
    offers_append s.target [leaf] rest
  have hTarget : afterOffers s.target (leaf :: rest) =
      afterOffers (afterOffers s.target [leaf]) rest := rfl
  cases hCounting : s.counting <;>
    simp [offered, hCounting, hCalls, hTarget, Nat.add_assoc]

/-- Giving up one leaf leaves the supply as offering it does: it is counted if it was taken back. -/
theorem giveUp_state (leaf : Hardware κ) (s : Supply σ) :
    (giveUp leaf s).state = s.offered [leaf] := by
  cases hBack : (Target.giveBack leaf s.target).result with
  | ok _ =>
      have hReturned : returnedIn (offers s.target [leaf]) = [leaf] := by
        rw [offers, hBack]
        rfl
      rw [Outcome.state_eq (silent_giveUp_of_ok hBack), offered, hReturned]
      obtain ⟨target, made, counting, stats⟩ := s
      cases counting <;> rfl
  | error e =>
      have hReturned : returnedIn (offers s.target [leaf]) = [] := by
        rw [offers, hBack]
        rfl
      rw [Outcome.state_eq (silent_giveUp_of_error hBack), offered, hReturned]
      obtain ⟨target, made, counting, stats⟩ := s
      cases counting <;> rfl

/-- Giving leaves up leaves the supply as offering them to the target does. -/
theorem giveUpAll_state (leaves : List (Hardware κ)) (s : Supply σ) :
    (giveUpAll leaves s).state = s.offered leaves := by
  induction leaves generalizing s with
  | nil =>
      obtain ⟨target, made, counting, stats⟩ := s
      cases counting <;> rfl
  | cons leaf rest ih =>
      change (giveUpAll rest (giveUp leaf s).state).state = _
      rw [ih, giveUp_state, ← offered_cons]

theorem giveUpAll_target (leaves : List (Hardware κ)) (s : Supply σ) :
    (giveUpAll leaves s).state.target = afterOffers s.target leaves := by
  rw [giveUpAll_state]
  rfl

variable [RegisterKind κ]

/-- The fields of an unfinished structure are offered leaf by leaf. -/
theorem releaseAll_calls (placed : List (Register κ)) (s : Supply σ) :
    (releaseAll placed s).calls = offers s.target (Register.leavesList placed) := by
  have hSame : (releaseAll placed s).silent = (giveUpAll (Register.leavesList placed) s).silent :=
    congrFun (silent_releaseAll placed) s
  rw [Outcome.calls_eq hSame]
  exact giveUpAll_calls _ s

theorem releaseAll_target (placed : List (Register κ)) (s : Supply σ) :
    (releaseAll placed s).state.target = afterOffers s.target (Register.leavesList placed) := by
  rw [releaseAll_state, giveUpAll_target]

end Supply

end RegisterAssignment
